/- The course of a division: the steps it is made of, each with all that the step says about the
lines before and after it. What holds of every division is proved along its course. -/
import Delimited.Proofs.Record.Passed
import Delimited.Proofs.Record.Scanning

namespace Delimited

/-- Of the lines that a malformed record was read from, those before the dropped one are lost. -/
theorem dropped_scanRecord {d : Dialect} {limit : Int} {start : Cursor} {warning : Warning}
    {left : List Line} (h : scanRecord d limit start = .malformed warning left) :
    ∃ lost, start.line :: start.pending = lost ++ warning.dropped :: left := by
  fun_induction scanRecord d limit start generalizing left with
  | case1 start value quoted earlier stop hscan ih =>
      have hlines := lines_scanColumn d limit start
      rw [hscan] at hlines
      cases hrest : scanRecord d limit stop with
      | malformed warning' left' =>
          rw [hrest] at h
          obtain ⟨rfl, rfl⟩ : warning' = warning ∧ left' = left := by
            simpa [RecordScan.cons] using h
          obtain ⟨lost, hlost⟩ := ih hrest
          refine ⟨earlier ++ lost, ?_⟩
          rw [← hlines, Scan.lines, hlost, List.append_assoc]
      | record | unclosed | undivided => simp [hrest, RecordScan.cons] at h
  | case4 start fault earlier stop hscan =>
      obtain ⟨rfl, rfl⟩ : _ = warning ∧ start.pending = left := by simpa using h
      exact ⟨[], rfl⟩
  | case2 | case3 | case5 => simp at h

theorem scanQuoted_ne_undivided (d : Dialect) (quote : Char) (limit : Int) (value : Text)
    (earlier : List Line) (line : Line) (rest : Text) (pending : List Line) (stop : Cursor) :
    scanQuoted d quote limit value earlier line rest pending ≠ .undivided stop := by
  fun_induction scanQuoted d quote limit value earlier line rest pending with
  | case1 value earlier line rest pending part rest' hcut rest'' hclose =>
      cases rest'' <;> simp [Scan.ofRest]
  | case2 | case3 | case4 => simp
  | case5 value earlier line rest part next pending hcut ih => exact ih

theorem scanColumn_ne_undivided {d : Dialect} (hd : d.delimiter ≠ []) (limit : Int)
    (start stop : Cursor) : scanColumn d limit start ≠ .undivided stop := by
  obtain ⟨line, rest, pending⟩ := start
  cases ho : opening d d.trim rest with
  | bare t =>
      rw [scanColumn_bare hd ho]
      cases (cutBare d.delimiter t).2 <;> simp [Scan.ofRest]
  | quoted quote t =>
      rw [scanColumn_quoted hd ho]
      exact scanQuoted_ne_undivided d quote limit [] [] line t pending stop

theorem scanRecord_ne_undivided {d : Dialect} (hd : d.delimiter ≠ []) (limit : Int)
    (start : Cursor) : scanRecord d limit start ≠ .undivided := by
  fun_induction scanRecord d limit start with
  | case1 start value quoted earlier stop hscan ih =>
      cases hrest : scanRecord d limit stop <;> simp_all [RecordScan.cons]
  | case2 | case3 | case4 => simp
  | case5 start stop hscan => exact absurd hscan (scanColumn_ne_undivided hd limit start stop)

/-- Lines divide into records step by step: an empty line is left out, a record is read whatever
comes after it, the lines run out inside quotes, or a malformed record is given up. -/
inductive Course (d : Dialect) (skipEmpty : Bool) (limit : Int) : List Line → Prop
  | done : Course d skipEmpty limit []
  | blank {line : Line} {pending : List Line} : (skipEmpty && line.text.isEmpty) = true →
      Course d skipEmpty limit pending → Course d skipEmpty limit (line :: pending)
  | record {line : Line} {passed rest : List Line} {fields : Record} :
      (skipEmpty && line.text.isEmpty) = false →
      (∀ later, scanRecord d limit ⟨line, line.text, passed ++ later⟩ = .record fields later) →
      Course d skipEmpty limit rest → Course d skipEmpty limit (line :: (passed ++ rest))
  | unclosed {line : Line} {pending : List Line} {fields : Record} :
      (skipEmpty && line.text.isEmpty) = false →
      scanRecord d limit ⟨line, line.text, pending⟩ = .unclosed fields →
      Course d skipEmpty limit (line :: pending)
  | malformed {line : Line} {pending lost rest : List Line} {warning : Warning} :
      (skipEmpty && line.text.isEmpty) = false →
      scanRecord d limit ⟨line, line.text, pending⟩ = .malformed warning rest →
      line :: pending = lost ++ warning.dropped :: rest →
      Course d skipEmpty limit rest → Course d skipEmpty limit (line :: pending)

theorem course {d : Dialect} (hd : d.delimiter ≠ []) (skipEmpty : Bool) (limit : Int)
    (lines : List Line) : Course d skipEmpty limit lines := by
  fun_induction split d skipEmpty limit lines with
  | case1 => exact .done
  | case2 line pending h ih => exact .blank h ih
  | case3 line pending h fields rest hscan ih =>
      obtain ⟨passed, hpending, hlater⟩ := scanRecord_passed hscan
      obtain rfl : pending = passed ++ rest := hpending
      exact .record (by simpa using h) hlater ih
  | case4 line pending h fields hscan => exact .unclosed (by simpa using h) hscan
  | case5 line pending h warning rest hscan ih =>
      obtain ⟨lost, hlost⟩ := dropped_scanRecord hscan
      exact .malformed (by simpa using h) hscan hlost ih
  | case6 line pending h hscan => exact absurd hscan (scanRecord_ne_undivided hd limit _)

/-- The division of lines; with an empty delimiter there may be none, and this one says nothing. -/
def division (d : Dialect) (skipEmpty : Bool) (limit : Int) (lines : List Line) : Division :=
  (split d skipEmpty limit lines).getD {}

section Division

variable {d : Dialect} {skipEmpty : Bool} {limit : Int} {line : Line} {pending rest : List Line}
  {fields : Record} {warning : Warning}

theorem split_eq_division (hd : d.delimiter ≠ []) (skipEmpty : Bool) (limit : Int)
    (lines : List Line) :
    split d skipEmpty limit lines = some (division d skipEmpty limit lines) := by
  have hsome : ∃ s, split d skipEmpty limit lines = some s := by
    induction course hd skipEmpty limit lines with
    | done => exact ⟨{}, split_nil⟩
    | blank h _ ih =>
        obtain ⟨s, hs⟩ := ih
        exact ⟨s, by rw [split_blank h, hs]⟩
    | record h hlater _ ih =>
        obtain ⟨s, hs⟩ := ih
        exact ⟨_, by rw [split_record h (hlater _), hs, Option.map_some]⟩
    | unclosed h hscan => exact ⟨_, split_unclosed h hscan⟩
    | malformed h hscan _ _ ih =>
        obtain ⟨s, hs⟩ := ih
        exact ⟨_, by rw [split_malformed h hscan, hs, Option.map_some]⟩
  obtain ⟨s, hs⟩ := hsome
  rw [division, hs, Option.getD_some]

@[simp] theorem division_nil : division d skipEmpty limit [] = {} := by
  rw [division, split_nil, Option.getD_some]

theorem division_blank (h : (skipEmpty && line.text.isEmpty) = true) :
    division d skipEmpty limit (line :: pending) = division d skipEmpty limit pending := by
  rw [division, split_blank h, division]

theorem division_record (hd : d.delimiter ≠ []) (h : (skipEmpty && line.text.isEmpty) = false)
    (hscan : scanRecord d limit ⟨line, line.text, pending⟩ = .record fields rest) :
    division d skipEmpty limit (line :: pending) =
      { division d skipEmpty limit rest with
        records := fields :: (division d skipEmpty limit rest).records } := by
  rw [division, split_record h hscan, split_eq_division hd, Option.map_some, Option.getD_some]

theorem division_unclosed (h : (skipEmpty && line.text.isEmpty) = false)
    (hscan : scanRecord d limit ⟨line, line.text, pending⟩ = .unclosed fields) :
    division d skipEmpty limit (line :: pending) = { records := [fields], openEnd := true } := by
  rw [division, split_unclosed h hscan, Option.getD_some]

theorem division_malformed (hd : d.delimiter ≠ []) (h : (skipEmpty && line.text.isEmpty) = false)
    (hscan : scanRecord d limit ⟨line, line.text, pending⟩ = .malformed warning rest) :
    division d skipEmpty limit (line :: pending) =
      { division d skipEmpty limit rest with
        warnings := warning :: (division d skipEmpty limit rest).warnings } := by
  rw [division, split_malformed h hscan, split_eq_division hd, Option.map_some, Option.getD_some]

end Division

end Delimited
