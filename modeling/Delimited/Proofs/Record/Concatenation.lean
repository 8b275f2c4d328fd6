/- Lines after lines. Where no column of the first ones runs out of lines inside quotes, they and the
others divide apart from each other (`split_append`). -/
import Delimited.Proofs.Record.Course

namespace Delimited

/-- A column is read from the second place when a record is read from the first. -/
inductive ReadsInRecord (d : Dialect) (limit : Int) : Cursor → Cursor → Prop
  | first (start : Cursor) : ReadsInRecord d limit start start
  | next {start stop at_ : Cursor} {value : Text} {quoted : Bool} {earlier : List Line} :
      scanColumn d limit start = .more value quoted earlier stop →
      ReadsInRecord d limit stop at_ → ReadsInRecord d limit start at_

/-- A column is read from this place when lines are divided, be it of a record or of one that is
given up. -/
inductive Reads (d : Dialect) (skipEmpty : Bool) (limit : Int) : List Line → Cursor → Prop
  | blank {line : Line} {pending : List Line} {at_ : Cursor} :
      (skipEmpty && line.text.isEmpty) = true →
      Reads d skipEmpty limit pending at_ → Reads d skipEmpty limit (line :: pending) at_
  | column {line : Line} {pending : List Line} {at_ : Cursor} :
      (skipEmpty && line.text.isEmpty) = false →
      ReadsInRecord d limit ⟨line, line.text, pending⟩ at_ →
      Reads d skipEmpty limit (line :: pending) at_
  | later {line : Line} {pending : List Line} {at_ : Cursor} :
      (skipEmpty && line.text.isEmpty) = false →
      Reads d skipEmpty limit (scanRecord d limit ⟨line, line.text, pending⟩).pending at_ →
      Reads d skipEmpty limit (line :: pending) at_

section Reads

variable {d : Dialect} {skipEmpty : Bool} {limit : Int} {line : Line} {pending : List Line}
  {start stop at_ : Cursor}

theorem readsInRecord_more_iff {value : Text} {quoted : Bool} {earlier : List Line}
    (h : scanColumn d limit start = .more value quoted earlier stop) :
    ReadsInRecord d limit start at_ ↔ at_ = start ∨ ReadsInRecord d limit stop at_ := by
  constructor
  · intro hreads
    cases hreads with
    | first => exact .inl rfl
    | next hscan hlater =>
        obtain ⟨-, -, -, rfl⟩ := Scan.more.inj (h.symm.trans hscan)
        exact .inr hlater
  · rintro (rfl | hlater)
    · exact .first _
    · exact .next h hlater

/-- A column after which there are no more is the only one. -/
theorem readsInRecord_iff_eq
    (h : ∀ value quoted earlier stop, scanColumn d limit start ≠ .more value quoted earlier stop) :
    ReadsInRecord d limit start at_ ↔ at_ = start := by
  constructor
  · intro hreads
    cases hreads with
    | first => rfl
    | next hscan _ => exact absurd hscan (h _ _ _ _)
  · rintro rfl
    exact .first _

theorem reads_blank_iff (h : (skipEmpty && line.text.isEmpty) = true) :
    Reads d skipEmpty limit (line :: pending) at_ ↔ Reads d skipEmpty limit pending at_ := by
  constructor
  · intro hreads
    cases hreads with
    | blank _ hlater => exact hlater
    | column hne _ | later hne _ => simp [h] at hne
  · exact .blank h

theorem reads_cons_iff (h : (skipEmpty && line.text.isEmpty) = false) :
    Reads d skipEmpty limit (line :: pending) at_ ↔
      ReadsInRecord d limit ⟨line, line.text, pending⟩ at_ ∨
        Reads d skipEmpty limit (scanRecord d limit ⟨line, line.text, pending⟩).pending at_ := by
  constructor
  · intro hreads
    cases hreads with
    | blank hblank _ => simp [h] at hblank
    | column _ hcolumn => exact .inl hcolumn
    | later _ hlater => exact .inr hlater
  · rintro (hcolumn | hlater)
    · exact .column h hcolumn
    · exact .later h hlater

/-- A record runs out of lines just when one of its columns does. -/
theorem isUnclosed_scanRecord_iff (d : Dialect) (limit : Int) (start : Cursor) :
    (scanRecord d limit start).isUnclosed = true ↔
      ∃ at_, ReadsInRecord d limit start at_ ∧ (scanColumn d limit at_).isUnclosed = true := by
  fun_induction scanRecord d limit start with
  | case1 start value quoted earlier stop hscan ih =>
      rw [RecordScan.isUnclosed_cons, ih]
      simp [readsInRecord_more_iff hscan, or_and_right, exists_or, hscan, Scan.isUnclosed]
  | case2 start value quoted earlier stop hscan =>
      simp [readsInRecord_iff_eq, hscan, Scan.isUnclosed, RecordScan.isUnclosed]
  | case3 start earlier number hscan =>
      simp [readsInRecord_iff_eq, hscan, Scan.isUnclosed, RecordScan.isUnclosed]
  | case4 start fault earlier stop hscan =>
      simp [readsInRecord_iff_eq, hscan, Scan.isUnclosed, RecordScan.isUnclosed]
  | case5 start stop hscan =>
      simp [readsInRecord_iff_eq, hscan, Scan.isUnclosed, RecordScan.isUnclosed]

/-- Reading lines runs out of them just when the first record does or what is read after it. -/
theorem exists_reads_cons_iff (h : (skipEmpty && line.text.isEmpty) = false) :
    (∃ at_, Reads d skipEmpty limit (line :: pending) at_ ∧
        (scanColumn d limit at_).isUnclosed = true) ↔
      (scanRecord d limit ⟨line, line.text, pending⟩).isUnclosed = true ∨
        ∃ at_, Reads d skipEmpty limit (scanRecord d limit ⟨line, line.text, pending⟩).pending at_ ∧
          (scanColumn d limit at_).isUnclosed = true := by
  simp only [isUnclosed_scanRecord_iff, reads_cons_iff h, or_and_right, exists_or]

theorem not_reads_nil : ¬ Reads d skipEmpty limit [] at_ := by
  rintro ⟨⟩

/-- A division ends inside quotes just when one of the columns it reads runs out of lines there. -/
theorem openEnd_division_iff (hd : d.delimiter ≠ []) (skipEmpty : Bool) (limit : Int)
    (lines : List Line) :
    (division d skipEmpty limit lines).openEnd = true ↔
      ∃ at_, Reads d skipEmpty limit lines at_ ∧ (scanColumn d limit at_).isUnclosed = true := by
  induction course hd skipEmpty limit lines with
  | done => simp [not_reads_nil]
  | blank h _ ih => simp only [division_blank h, reads_blank_iff h, ih]
  | record h hlater _ ih =>
      rw [exists_reads_cons_iff h, division_record hd h (hlater _), hlater, RecordScan.pending, ih]
      simp [RecordScan.isUnclosed]
  | unclosed h hscan =>
      rw [exists_reads_cons_iff h, division_unclosed h hscan, hscan]
      simp [RecordScan.isUnclosed]
  | malformed h hscan hlines _ ih =>
      rw [exists_reads_cons_iff h, division_malformed hd h hscan, hscan, RecordScan.pending, ih]
      simp [RecordScan.isUnclosed]

theorem isUnclosed_of_reads (hd : d.delimiter ≠ []) {lines : List Line}
    (hclosed : (division d skipEmpty limit lines).openEnd = false)
    (hreads : Reads d skipEmpty limit lines at_) : (scanColumn d limit at_).isUnclosed = false := by
  rw [← Bool.not_eq_true] at hclosed ⊢
  intro hunclosed
  exact hclosed ((openEnd_division_iff hd skipEmpty limit lines).mpr ⟨at_, hreads, hunclosed⟩)

end Reads

section Append

variable {d : Dialect} {skipEmpty : Bool} {limit : Int} {earlier : List Line}

/-- Lines that do not end inside quotes divide as they do before any others. -/
theorem division_append (hd : d.delimiter ≠ [])
    (hclosed : (division d skipEmpty limit earlier).openEnd = false) (later : List Line) :
    division d skipEmpty limit (earlier ++ later) =
      ⟨(division d skipEmpty limit earlier).records ++ (division d skipEmpty limit later).records,
        (division d skipEmpty limit earlier).warnings ++ (division d skipEmpty limit later).warnings,
        (division d skipEmpty limit later).openEnd⟩ := by
  induction course hd skipEmpty limit earlier with
  | done => simp
  | blank h _ ih =>
      rw [division_blank h] at hclosed ⊢
      rw [List.cons_append, division_blank h, ih hclosed]
  | @record line passed rest fields h hlater _ ih =>
      rw [division_record hd h (hlater _)] at hclosed ⊢
      rw [List.cons_append, List.append_assoc, division_record hd h (hlater _), ih hclosed]
      rfl
  | unclosed h hscan => simp [division_unclosed h hscan] at hclosed
  | @malformed line pending lost rest warning h hscan hlines _ ih =>
      have hscan' : scanRecord d limit ⟨line, line.text, pending ++ later⟩ =
          .malformed warning (rest ++ later) := by
        have happend := scanRecord_append (by rw [hscan]; rfl) later
        rwa [hscan] at happend
      rw [division_malformed hd h hscan] at hclosed ⊢
      rw [List.cons_append, division_malformed hd h hscan', ih hclosed]
      rfl

/-- Where no column that is read of the earlier lines runs out of lines inside quotes, the records
and the warnings of the later lines come after those of the earlier ones. -/
theorem split_append (hd : d.delimiter ≠ []) (skipEmpty : Bool) (limit : Int)
    (hclosed : ∀ at_, Reads d skipEmpty limit earlier at_ →
      (scanColumn d limit at_).isUnclosed = false) (later : List Line) :
    ∃ s t, split d skipEmpty limit earlier = some s ∧ split d skipEmpty limit later = some t ∧
      split d skipEmpty limit (earlier ++ later) =
        some ⟨s.records ++ t.records, s.warnings ++ t.warnings, t.openEnd⟩ := by
  refine ⟨_, _, split_eq_division hd skipEmpty limit _, split_eq_division hd skipEmpty limit _, ?_⟩
  have hopen : (division d skipEmpty limit earlier).openEnd = false := by
    rw [← Bool.not_eq_true, openEnd_division_iff hd]
    rintro ⟨at_, hreads, hunclosed⟩
    rw [hclosed at_ hreads] at hunclosed
    contradiction
  rw [split_eq_division hd, division_append hd hopen]

/-- A malformed record before others: its quoted value goes on into a line that is read again. -/
theorem split_append_reread :
    (∀ at_, Reads ⟨[','], some ['"'], none, none, false⟩ true 8
        [⟨1, ['"', 'a']⟩, ⟨2, ['b', '"', 'x']⟩] at_ →
      (scanColumn ⟨[','], some ['"'], none, none, false⟩ 8 at_).isUnclosed = false) ∧
      ∃ s t, split ⟨[','], some ['"'], none, none, false⟩ true 8
          [⟨1, ['"', 'a']⟩, ⟨2, ['b', '"', 'x']⟩] = some s ∧
        split ⟨[','], some ['"'], none, none, false⟩ true 8 [⟨3, ['"', 'c']⟩] = some t ∧
        split ⟨[','], some ['"'], none, none, false⟩ true 8
          ([⟨1, ['"', 'a']⟩, ⟨2, ['b', '"', 'x']⟩] ++ [⟨3, ['"', 'c']⟩]) =
            some ⟨s.records ++ t.records, s.warnings ++ t.warnings, t.openEnd⟩ := by
  have hd : (⟨[','], some ['"'], none, none, false⟩ : Dialect).delimiter ≠ [] := by decide
  have hclosed : ∀ at_, Reads ⟨[','], some ['"'], none, none, false⟩ true 8
      [⟨1, ['"', 'a']⟩, ⟨2, ['b', '"', 'x']⟩] at_ →
        (scanColumn ⟨[','], some ['"'], none, none, false⟩ 8 at_).isUnclosed = false := by
    intro at_ hreads
    exact isUnclosed_of_reads hd (by decide +kernel) hreads
  exact ⟨hclosed, split_append hd true 8 hclosed [⟨3, ['"', 'c']⟩]⟩

end Append

end Delimited
