/- How a record follows from its columns and a division from its records, one equation for each way
that a record ends. -/
import Delimited.Record.Split

namespace Delimited

/-- Of a bare field the null string is no value. -/
theorem Field.read_bare (d : Dialect) (value : Text) :
    Field.read d value false = ⟨if d.nullString = some value then none else some value, false⟩ := by
  by_cases hnull : d.nullString = some value <;> simp [Field.read, hnull]

section Record

variable {d : Dialect} {limit : Int} {start stop : Cursor} {value : Text} {quoted : Bool}
  {earlier : List Line}

theorem scanRecord_more (h : scanColumn d limit start = .more value quoted earlier stop) :
    scanRecord d limit start = (scanRecord d limit stop).cons (.read d value quoted) := by
  rw [scanRecord]
  split <;> simp_all

theorem scanRecord_last (h : scanColumn d limit start = .last value quoted earlier stop) :
    scanRecord d limit start = .record [.read d value quoted] stop.pending := by
  rw [scanRecord]
  split <;> simp_all

theorem scanRecord_malformed {fault : Fault}
    (h : scanColumn d limit start = .malformed fault earlier stop) :
    scanRecord d limit start = .malformed ⟨start.line, fault, stop.line.number⟩ start.pending := by
  rw [scanRecord]
  split <;> simp_all

theorem scanRecord_unclosed {number : Int}
    (h : scanColumn d limit start = .unclosed earlier number) :
    scanRecord d limit start = .unclosed [] := by
  rw [scanRecord]
  split <;> simp_all

theorem scanRecord_of_undivided (h : scanColumn d limit start = .undivided stop) :
    scanRecord d limit start = .undivided := by
  rw [scanRecord]
  split <;> simp_all

/-- An empty delimiter divides nothing but an empty text. -/
theorem scanRecord_undivided (hd : d.delimiter = []) (hrest : start.rest ≠ []) :
    scanRecord d limit start = .undivided := by
  obtain ⟨c, t, hcons⟩ := List.exists_cons_of_ne_nil hrest
  have hscan : scanColumn d limit start = .undivided { start with rest := t } := by
    simp [scanColumn, hd, hcons]
  exact scanRecord_of_undivided hscan

/-- A record that ended has at least one field. -/
theorem fields_ne_nil_of_scanRecord {fields : Record} {left : List Line}
    (h : scanRecord d limit start = .record fields left) : fields ≠ [] := by
  rintro rfl
  cases hscan : scanColumn d limit start with
  | more value quoted earlier stop =>
      rw [scanRecord_more hscan] at h
      cases hrest : scanRecord d limit stop <;> simp [hrest, RecordScan.cons] at h
  | last => simp [scanRecord_last hscan] at h
  | unclosed => simp [scanRecord_unclosed hscan] at h
  | malformed => simp [scanRecord_malformed hscan] at h
  | undivided => simp [scanRecord_of_undivided hscan] at h

end Record

section Lines

variable {d : Dialect} {skipEmpty : Bool} {limit : Int} {line : Line} {pending rest : List Line}
  {fields : Record} {warning : Warning}

theorem split_nil : split d skipEmpty limit [] = some {} := by
  rw [split]

theorem split_blank (h : (skipEmpty && line.text.isEmpty) = true) :
    split d skipEmpty limit (line :: pending) = split d skipEmpty limit pending := by
  rw [split, if_pos h]

theorem split_record (h : (skipEmpty && line.text.isEmpty) = false)
    (hscan : scanRecord d limit ⟨line, line.text, pending⟩ = .record fields rest) :
    split d skipEmpty limit (line :: pending) =
      (split d skipEmpty limit rest).map fun s => { s with records := fields :: s.records } := by
  rw [split, if_neg (by simp [h])]
  split <;> simp_all

theorem split_unclosed (h : (skipEmpty && line.text.isEmpty) = false)
    (hscan : scanRecord d limit ⟨line, line.text, pending⟩ = .unclosed fields) :
    split d skipEmpty limit (line :: pending) = some { records := [fields], openEnd := true } := by
  rw [split, if_neg (by simp [h])]
  split <;> simp_all

theorem split_malformed (h : (skipEmpty && line.text.isEmpty) = false)
    (hscan : scanRecord d limit ⟨line, line.text, pending⟩ = .malformed warning rest) :
    split d skipEmpty limit (line :: pending) =
      (split d skipEmpty limit rest).map fun s => { s with warnings := warning :: s.warnings } := by
  rw [split, if_neg (by simp [h])]
  split <;> simp_all

theorem split_undivided (h : (skipEmpty && line.text.isEmpty) = false)
    (hscan : scanRecord d limit ⟨line, line.text, pending⟩ = .undivided) :
    split d skipEmpty limit (line :: pending) = none := by
  rw [split, if_neg (by simp [h])]
  split <;> simp_all

/-- Where empty lines are left out, an empty delimiter leaves no records. -/
theorem delimiter_ne_nil_of_records {lines : List Line} {s : Division}
    (h : split d true limit lines = some s) (hrecords : s.records ≠ []) : d.delimiter ≠ [] := by
  intro hd
  induction lines with
  | nil =>
      obtain rfl : {} = s := Option.some.inj (split_nil.symm.trans h)
      exact hrecords rfl
  | cons line pending ih =>
      cases hblank : (true && line.text.isEmpty) with
      | true =>
          rw [split_blank hblank] at h
          exact ih h
      | false =>
          have hscan : scanRecord d limit ⟨line, line.text, pending⟩ = .undivided :=
            scanRecord_undivided hd (by simpa using hblank)
          rw [split, if_neg (by simp [hblank])] at h
          split at h <;> simp_all

end Lines

end Delimited
