/- Records without fields. A record that is read to its end has a field, and one that is given up is
left out; so only the record at which the lines run out may have none, and it has none just when its
first column is the one that opens a quote (`getLast?_records_eq_nil_iff`). -/
import Delimited.Proofs.Record.Readings

namespace Delimited

/-- The line opens a quote in its first column, and the lines run out before it is closed. -/
def OpensToEnd (d : Dialect) (limit : Int) (line : Line) (pending : List Line) : Prop :=
  ∃ quote inside number, opening d d.trim line.text = .quoted quote inside ∧
    scanQuoted d quote limit [] [] line inside pending = .unclosed (line :: pending) number

/-- The record read last is one whose first column opens a quote, and the lines run out there. -/
def LastOpensToEnd (d : Dialect) (skipEmpty : Bool) (limit : Int) (lines : List Line) : Prop :=
  ∃ line pending fields, (readings d skipEmpty limit lines).getLast? = some (line :: pending, fields) ∧
    line :: pending <:+ lines ∧ OpensToEnd d limit line pending

variable {d : Dialect} {skipEmpty : Bool} {limit : Int} {line : Line} {pending lines : List Line}

/-- The lines run out before a first field just when they do inside the first column. -/
theorem scanRecord_eq_unclosed_nil_iff (hd : d.delimiter ≠ []) :
    scanRecord d limit ⟨line, line.text, pending⟩ = .unclosed [] ↔
      OpensToEnd d limit line pending := by
  constructor
  · intro h
    cases hscan : scanColumn d limit ⟨line, line.text, pending⟩ with
    | more value quoted earlier stop =>
        rw [scanRecord_more hscan] at h
        cases hrest : scanRecord d limit stop <;> simp [hrest, RecordScan.cons] at h
    | last => simp [scanRecord_last hscan] at h
    | malformed => simp [scanRecord_malformed hscan] at h
    | undivided => simp [scanRecord_of_undivided hscan] at h
    | unclosed earlier number =>
        have hlines := lines_scanColumn d limit ⟨line, line.text, pending⟩
        rw [hscan] at hlines
        obtain rfl : earlier = line :: pending := hlines
        cases hopening : opening d d.trim line.text with
        | bare rest =>
            rw [scanColumn_bare hd hopening] at hscan
            cases hcut : (cutBare d.delimiter rest).2 <;> simp [hcut, Scan.ofRest] at hscan
        | quoted quote inside =>
            rw [scanColumn_quoted hd hopening] at hscan
            exact ⟨quote, inside, number, hopening, hscan⟩
  · rintro ⟨quote, inside, number, hopening, hscan⟩
    apply scanRecord_unclosed
    rw [scanColumn_quoted hd hopening]
    exact hscan

/-- More lines and readings at the start leave the last reading as it is. -/
theorem LastOpensToEnd.extend {left : List Line} (h : LastOpensToEnd d skipEmpty limit left)
    (hlines : left <:+ lines)
    (hreadings : readings d skipEmpty limit left <:+ readings d skipEmpty limit lines) :
    LastOpensToEnd d skipEmpty limit lines := by
  obtain ⟨line, pending, fields, hlast, hsuffix, hopens⟩ := h
  obtain ⟨before, hbefore⟩ := hreadings
  refine ⟨line, pending, fields, ?_, hsuffix.trans hlines, hopens⟩
  rw [← hbefore, List.getLast?_append, hlast, Option.some_or]

/-- A record without fields is one at which the lines run out. -/
theorem lastOpensToEnd_of_nil_mem (hd : d.delimiter ≠ [])
    (h : [] ∈ (division d skipEmpty limit lines).records) :
    (division d skipEmpty limit lines).openEnd = true ∧ LastOpensToEnd d skipEmpty limit lines := by
  induction course hd skipEmpty limit lines with
  | done => simp at h
  | @blank line pending hblank _ ih =>
      rw [division_blank hblank] at h ⊢
      obtain ⟨hopen, hlast⟩ := ih h
      refine ⟨hopen, hlast.extend (List.suffix_cons line pending) ?_⟩
      simp only [readings_blank hblank, List.suffix_refl]
  | @record line passed rest fields hne hlater _ ih =>
      rw [division_record hd hne (hlater rest)] at h ⊢
      have hrest : [] ∈ (division d skipEmpty limit rest).records := by
        rcases List.mem_cons.mp h with hnil | hmem
        · exact absurd hnil.symm (fields_ne_nil_of_scanRecord (hlater rest))
        · exact hmem
      obtain ⟨hopen, hlast⟩ := ih hrest
      refine ⟨hopen, hlast.extend (List.suffix_append (line :: passed) rest) ?_⟩
      rw [readings_record hne (hlater rest)]
      exact List.suffix_cons _ _
  | @unclosed line pending fields hne hscan =>
      rw [division_unclosed hne hscan] at h ⊢
      obtain rfl : [] = fields := List.mem_singleton.mp h
      refine ⟨rfl, line, pending, [], ?_, List.suffix_refl _,
        (scanRecord_eq_unclosed_nil_iff hd).mp hscan⟩
      rw [readings_unclosed hne hscan, List.getLast?_singleton]
  | @malformed line pending lost rest warning hne hscan hlines _ ih =>
      rw [division_malformed hd hne hscan] at h ⊢
      obtain ⟨hopen, hlast⟩ := ih h
      have hrest : rest <:+ pending := suffix_of_append_eq hlines.symm
      refine ⟨hopen, hlast.extend (hrest.trans (List.suffix_cons line pending)) ?_⟩
      simp only [readings_malformed hne hscan, List.suffix_refl]

theorem ne_nil_of_mem_dropLast (hd : d.delimiter ≠ []) {r : Record}
    (h : r ∈ (division d skipEmpty limit lines).records.dropLast) : r ≠ [] := by
  induction course hd skipEmpty limit lines with
  | done => simp at h
  | blank hblank _ ih =>
      rw [division_blank hblank] at h
      exact ih h
  | @record line passed rest fields hne hlater _ ih =>
      rw [division_record hd hne (hlater rest)] at h
      cases hrecords : (division d skipEmpty limit rest).records with
      | nil => simp [hrecords] at h
      | cons next records =>
          rw [hrecords] at h ih
          rcases List.mem_cons.mp h with rfl | hmem
          · exact fields_ne_nil_of_scanRecord (hlater rest)
          · exact ih hmem
  | unclosed hne hscan => simp [division_unclosed hne hscan] at h
  | malformed hne hscan _ _ ih =>
      rw [division_malformed hd hne hscan] at h
      exact ih h

/-- A record whose first column opens a quote that is never closed has no fields. -/
theorem fields_of_opensToEnd (hd : d.delimiter ≠ []) {fields : Record}
    (hmem : (line :: pending, fields) ∈ readings d skipEmpty limit lines)
    (h : OpensToEnd d limit line pending) : fields = [] := by
  have hrunsOut := (scanRecord_eq_unclosed_nil_iff hd).mpr h
  induction course hd skipEmpty limit lines with
  | done => simp at hmem
  | blank hblank _ ih =>
      rw [readings_blank hblank] at hmem
      exact ih hmem
  | @record first passed rest fields' hne hlater _ ih =>
      rw [readings_record hne (hlater rest)] at hmem
      rcases List.mem_cons.mp hmem with heq | hmem
      · obtain ⟨⟨rfl, rfl⟩, rfl⟩ : (line = first ∧ pending = passed) ∧ fields = fields' := by
          simpa using heq
        have hscan := hlater []
        rw [List.append_nil, hrunsOut] at hscan
        contradiction
      · exact ih hmem
  | @unclosed first others fields' hne hscan =>
      rw [readings_unclosed hne hscan, List.mem_singleton] at hmem
      obtain ⟨⟨rfl, rfl⟩, rfl⟩ : (line = first ∧ pending = others) ∧ fields = fields' := by
        simpa using hmem
      exact (RecordScan.unclosed.inj (hrunsOut.symm.trans hscan)).symm
  | malformed hne hscan _ _ ih =>
      rw [readings_malformed hne hscan] at hmem
      exact ih hmem

/-- The last record has no fields just when its first column opens a quote and the lines run out
there. -/
theorem getLast?_records_eq_nil_iff (hd : d.delimiter ≠ []) :
    (division d skipEmpty limit lines).records.getLast? = some [] ↔
      LastOpensToEnd d skipEmpty limit lines := by
  constructor
  · intro h
    exact (lastOpensToEnd_of_nil_mem hd (List.mem_of_getLast? h)).2
  · rintro ⟨line, pending, fields, hlast, -, hopens⟩
    obtain rfl := fields_of_opensToEnd hd (List.mem_of_getLast? hlast) hopens
    rw [← records_readings hd, List.getLast?_map, hlast]
    rfl

end Delimited
