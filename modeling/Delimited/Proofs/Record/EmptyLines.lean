/- Empty lines, kept as records or left out. Without trimming nothing but an empty line is read as a
record of one empty bare field, also where it is read again after a malformed record; so the lines
left out are the records left out (`split_without_empty`). -/
import Delimited.Proofs.Record.Course

namespace Delimited

/-- The record of one empty bare field, which has no value where the null string is empty. -/
def Dialect.emptyRecord (d : Dialect) : Record :=
  [⟨if d.nullString = some [] then none else some [], false⟩]

section Record

variable {d : Dialect} {limit : Int} {start : Cursor}

theorem read_eq_emptyRecord_iff {value : Text} {quoted : Bool} :
    [Field.read d value quoted] = d.emptyRecord ↔ value = [] ∧ quoted = false := by
  constructor
  · intro h
    cases quoted with
    | true => simp [Field.read, Dialect.emptyRecord] at h
    | false =>
        rw [Field.read_bare, Dialect.emptyRecord] at h
        by_cases hnull : d.nullString = some [] <;> by_cases hvalue : d.nullString = some value <;>
          simp_all
  · rintro ⟨rfl, rfl⟩
    rw [Field.read_bare, Dialect.emptyRecord]

/-- An empty line is read as the empty record, whatever comes after it. -/
theorem scanRecord_emptyLine (hd : d.delimiter ≠ []) (line : Line) (pending : List Line) :
    scanRecord d limit ⟨line, [], pending⟩ = .record d.emptyRecord pending := by
  have hscan : scanColumn d limit ⟨line, [], pending⟩ = .last [] false [] ⟨line, [], pending⟩ := by
    rw [scanColumn_bare hd rfl]
    cases d.trim <;> rfl
  rw [scanRecord_last hscan, read_eq_emptyRecord_iff.mpr ⟨rfl, rfl⟩]

theorem eq_nil_of_cutBare {delimiter t : Text} (h : cutBare delimiter t = ([], none)) : t = [] := by
  cases t with
  | nil => rfl
  | cons c t =>
      rw [cutBare] at h
      cases hafter : Text.after? delimiter (c :: t) <;> simp [hafter] at h

/-- Without trimming, a bare value that is empty and ends its line has nothing before it. -/
theorem rest_of_scanColumn_last (hd : d.delimiter ≠ []) (htrim : d.trim = false) {stop : Cursor}
    {earlier : List Line} (h : scanColumn d limit start = .last [] false earlier stop) :
    start.rest = [] := by
  obtain ⟨line, rest, pending⟩ := start
  rcases opening_untrimmed d rest with hbare | ⟨quote, inside, rfl, -, hquoted⟩
  · rw [scanColumn_bare hd (htrim ▸ hbare), htrim] at h
    rcases hcut : cutBare d.delimiter rest with ⟨value, _ | rest'⟩
    · obtain ⟨rfl, -⟩ : value = [] ∧ _ := by simpa [hcut, Scan.ofRest] using h
      exact eq_nil_of_cutBare hcut
    · simp [hcut, Scan.ofRest] at h
  · rw [scanColumn_quoted hd (htrim ▸ hquoted)] at h
    cases quoted_of_scanQuoted (congrArg Scan.ended h)

/-- Without trimming only an empty line is read as the empty record. -/
theorem rest_of_emptyRecord (hd : d.delimiter ≠ []) (htrim : d.trim = false) {left : List Line}
    (h : scanRecord d limit start = .record d.emptyRecord left) : start.rest = [] := by
  cases hscan : scanColumn d limit start with
  | more value quoted earlier stop =>
      rw [scanRecord_more hscan] at h
      cases hrest : scanRecord d limit stop with
      | record fields left' =>
          -- A further column makes a second field.
          obtain ⟨hfields, -⟩ : Field.read d value quoted :: fields = d.emptyRecord ∧ left' = left := by
            simpa [hrest, RecordScan.cons] using h
          exact absurd (List.cons.inj hfields).2 (fields_ne_nil_of_scanRecord hrest)
      | unclosed | malformed | undivided => simp [hrest, RecordScan.cons] at h
  | last value quoted earlier stop =>
      rw [scanRecord_last hscan] at h
      obtain ⟨rfl, rfl⟩ := read_eq_emptyRecord_iff.mp (RecordScan.record.inj h).1
      exact rest_of_scanColumn_last hd htrim hscan
  | unclosed => simp [scanRecord_unclosed hscan] at h
  | malformed => simp [scanRecord_malformed hscan] at h
  | undivided => simp [scanRecord_of_undivided hscan] at h

end Record

section Divisions

variable {d : Dialect} (hd : d.delimiter ≠ []) (limit : Int) (lines : List Line)

include hd

/-- A line that is left out when it is empty stands for itself in the other division. -/
theorem division_keptEmpty {line : Line} (h : (true && line.text.isEmpty) = true)
    (pending : List Line) :
    division d false limit (line :: pending) =
      { division d false limit pending with
        records := d.emptyRecord :: (division d false limit pending).records } := by
  have htext : line.text = [] := by simpa using h
  refine division_record hd (Bool.false_and _) ?_
  rw [htext]
  exact scanRecord_emptyLine hd line pending

/-- Leaving out empty lines changes neither the warnings nor whether the lines run out inside
quotes. -/
theorem division_sameEnd :
    (division d true limit lines).warnings = (division d false limit lines).warnings ∧
      (division d true limit lines).openEnd = (division d false limit lines).openEnd := by
  induction course hd true limit lines with
  | done => simp
  | blank h _ ih => rwa [division_blank h, division_keptEmpty hd limit h]
  | record h hlater _ ih =>
      rwa [division_record hd h (hlater _), division_record hd (Bool.false_and _) (hlater _)]
  | unclosed h hscan =>
      rw [division_unclosed h hscan, division_unclosed (Bool.false_and _) hscan]
      exact ⟨rfl, rfl⟩
  | malformed h hscan _ _ ih =>
      rw [division_malformed hd h hscan, division_malformed hd (Bool.false_and _) hscan]
      exact ⟨congrArg (List.cons _) ih.1, ih.2⟩

variable {limit lines}

/-- Of the records with the empty lines, those without them are the ones that are not empty. -/
theorem records_withoutEmpty (htrim : d.trim = false)
    (hclosed : (division d false limit lines).openEnd = false) :
    (division d true limit lines).records =
      (division d false limit lines).records.filter (· ≠ d.emptyRecord) := by
  induction course hd true limit lines with
  | done => simp
  | blank h _ ih =>
      rw [division_keptEmpty hd limit h] at hclosed ⊢
      rw [division_blank h, ih hclosed]
      simp
  | @record line passed rest fields h hlater _ ih =>
      rw [division_record hd (Bool.false_and _) (hlater _)] at hclosed ⊢
      have hfields : fields ≠ d.emptyRecord := by
        rintro rfl
        have htext : line.text = [] := rest_of_emptyRecord hd htrim (hlater rest)
        simp [htext] at h
      rw [division_record hd h (hlater _), List.filter_cons, if_pos (by simpa using hfields),
        ih hclosed]
  | unclosed h hscan => simp [division_unclosed (Bool.false_and _) hscan] at hclosed
  | malformed h hscan _ _ ih =>
      rw [division_malformed hd (Bool.false_and _) hscan] at hclosed ⊢
      rw [division_malformed hd h hscan, ih hclosed]

end Divisions

/-- Divided with and without its empty lines a text gives the same warnings, and runs out inside
quotes both times or not at all. Where it does not, and bare fields are not trimmed, the records
without the empty lines are the others less those of one empty bare field. -/
theorem split_without_empty {d : Dialect} (hd : d.delimiter ≠ []) (htrim : d.trim = false)
    (limit : Int) (lines : List Line) :
    ∃ kept skipped, split d false limit lines = some kept ∧ split d true limit lines = some skipped ∧
      skipped.warnings = kept.warnings ∧ skipped.openEnd = kept.openEnd ∧
      (kept.openEnd = false → skipped.records = kept.records.filter (· ≠ d.emptyRecord)) := by
  obtain ⟨hwarnings, hopen⟩ := division_sameEnd hd limit lines
  refine ⟨_, _, split_eq_division hd false limit lines, split_eq_division hd true limit lines,
    hwarnings, hopen, ?_⟩
  intro hclosed
  exact records_withoutEmpty hd htrim hclosed

/-- The empty line that a malformed value passed over is read again, and left out or not; the one
inside quotes is part of a value both times. The null string is empty. -/
theorem split_without_empty_reread :
    (⟨[','], some ['"'], none, some [], false⟩ : Dialect).trim = false ∧
      ∃ kept skipped, split ⟨[','], some ['"'], none, some [], false⟩ false 8
          [⟨1, ['"', 'a']⟩, ⟨2, []⟩, ⟨3, ['b', '"', 'x']⟩, ⟨4, ['"', 'c']⟩, ⟨5, []⟩, ⟨6, ['"']⟩] =
            some kept ∧
        split ⟨[','], some ['"'], none, some [], false⟩ true 8
          [⟨1, ['"', 'a']⟩, ⟨2, []⟩, ⟨3, ['b', '"', 'x']⟩, ⟨4, ['"', 'c']⟩, ⟨5, []⟩, ⟨6, ['"']⟩] =
            some skipped ∧
        skipped.warnings = kept.warnings ∧
        kept.records = [[⟨none, false⟩], [⟨some ['b', '"', 'x'], false⟩],
          [⟨some ['c', '\n', '\n'], true⟩]] ∧
        skipped.records = kept.records.filter (· ≠ [⟨none, false⟩]) := by
  obtain ⟨kept, skipped, hkept, hskipped, hwarnings, -, hrecords⟩ :=
    @split_without_empty ⟨[','], some ['"'], none, some [], false⟩ (by decide) rfl 8
      [⟨1, ['"', 'a']⟩, ⟨2, []⟩, ⟨3, ['b', '"', 'x']⟩, ⟨4, ['"', 'c']⟩, ⟨5, []⟩, ⟨6, ['"']⟩]
  have hsplit : split ⟨[','], some ['"'], none, some [], false⟩ false 8
      [⟨1, ['"', 'a']⟩, ⟨2, []⟩, ⟨3, ['b', '"', 'x']⟩, ⟨4, ['"', 'c']⟩, ⟨5, []⟩, ⟨6, ['"']⟩] =
        some { records := [[⟨none, false⟩], [⟨some ['b', '"', 'x'], false⟩],
                 [⟨some ['c', '\n', '\n'], true⟩]]
               warnings := [⟨⟨1, ['"', 'a']⟩, .strayCharacter 'x' '"', 3⟩] } := by
    decide +kernel
  obtain rfl := Option.some.inj (hsplit.symm.trans hkept)
  exact ⟨rfl, _, skipped, hkept, hskipped, hwarnings, rfl, hrecords rfl⟩

end Delimited
