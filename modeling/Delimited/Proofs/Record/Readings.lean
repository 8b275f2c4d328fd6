/- Records with the lines they were read from. A division without warnings is a division of these
lines alone, so leaving out lines leaves out the records read from them, as long as no record loses
only some of its lines (`readings_filter`). -/
import Delimited.Proofs.Record.Fates

namespace Delimited

/-- The records of a division, each with the lines it was read from. -/
def readings (d : Dialect) (skipEmpty : Bool) (limit : Int) : List Line → List (List Line × Record)
  | [] => []
  | line :: pending =>
    if skipEmpty && line.text.isEmpty then readings d skipEmpty limit pending
    else match _h : scanRecord d limit ⟨line, line.text, pending⟩ with
      | .record fields rest =>
        ((line :: pending).take (pending.length + 1 - rest.length), fields) ::
          readings d skipEmpty limit rest
      | .unclosed fields => [(line :: pending, fields)]
      | .malformed _ rest => readings d skipEmpty limit rest
      | .undivided => []
termination_by lines => lines.length
decreasing_by
  · simp
  all_goals
    have := (pending_scanRecord d limit ⟨line, line.text, pending⟩).length_le
    rw [_h] at this
    exact Nat.lt_succ_of_le this

section Equations

variable {d : Dialect} {skipEmpty : Bool} {limit : Int} {line : Line}
  {pending passed rest : List Line} {fields : Record} {warning : Warning}

@[simp] theorem readings_nil : readings d skipEmpty limit [] = [] := by
  rw [readings]

theorem readings_blank (h : (skipEmpty && line.text.isEmpty) = true) :
    readings d skipEmpty limit (line :: pending) = readings d skipEmpty limit pending := by
  rw [readings, if_pos h]

theorem readings_blank_append (h : ∀ line ∈ passed, (skipEmpty && line.text.isEmpty) = true) :
    readings d skipEmpty limit (passed ++ rest) = readings d skipEmpty limit rest := by
  induction passed with
  | nil => rw [List.nil_append]
  | cons line passed ih =>
      obtain ⟨hline, hpassed⟩ := List.forall_mem_cons.mp h
      rw [List.cons_append, readings_blank hline, ih hpassed]

theorem readings_record (h : (skipEmpty && line.text.isEmpty) = false)
    (hscan : scanRecord d limit ⟨line, line.text, passed ++ rest⟩ = .record fields rest) :
    readings d skipEmpty limit (line :: (passed ++ rest)) =
      (line :: passed, fields) :: readings d skipEmpty limit rest := by
  rw [readings, if_neg (by simp [h])]
  split
  · next fields' rest' hscan' =>
      obtain ⟨rfl, rfl⟩ : fields = fields' ∧ rest = rest' := by
        simpa using hscan.symm.trans hscan'
      rw [take_passed]
  all_goals simp_all

theorem readings_unclosed (h : (skipEmpty && line.text.isEmpty) = false)
    (hscan : scanRecord d limit ⟨line, line.text, pending⟩ = .unclosed fields) :
    readings d skipEmpty limit (line :: pending) = [(line :: pending, fields)] := by
  rw [readings, if_neg (by simp [h])]
  split <;> simp_all

theorem readings_malformed (h : (skipEmpty && line.text.isEmpty) = false)
    (hscan : scanRecord d limit ⟨line, line.text, pending⟩ = .malformed warning rest) :
    readings d skipEmpty limit (line :: pending) = readings d skipEmpty limit rest := by
  rw [readings, if_neg (by simp [h])]
  split <;> simp_all

end Equations

/-- A record starts with a line that is not left out as empty, so it is not kept as a whole where
only such lines are. -/
theorem not_all_keep_of_blank {skipEmpty : Bool} {line : Line} {passed : List Line} {keep : Line → Bool}
    (h : (skipEmpty && line.text.isEmpty) = false)
    (hblank : ∀ l ∈ line :: passed, keep l = true → (skipEmpty && l.text.isEmpty) = true) :
    ¬ (line :: passed).all keep = true := by
  intro hall
  rw [hblank line List.mem_cons_self (List.all_eq_true.mp hall line List.mem_cons_self)] at h
  exact Bool.noConfusion h

section Laws

variable {d : Dialect} (hd : d.delimiter ≠ []) (skipEmpty : Bool) (limit : Int) (lines : List Line)

include hd

/-- The readings are those of the records of the division. -/
theorem records_readings : (readings d skipEmpty limit lines).map Prod.snd =
    (division d skipEmpty limit lines).records := by
  induction course hd skipEmpty limit lines with
  | done => simp
  | blank h _ ih => rw [readings_blank h, division_blank h, ih]
  | record h hlater _ ih =>
      rw [readings_record h (hlater _), division_record hd h (hlater _), List.map_cons, ih]
  | unclosed h hscan =>
      rw [readings_unclosed h hscan, division_unclosed h hscan, List.map_singleton]
  | malformed h hscan _ _ ih =>
      rw [readings_malformed h hscan, division_malformed hd h hscan, ih]

/-- Each line that is read is of one record, and lines stay in order. -/
theorem lines_readings : (readings d skipEmpty limit lines).flatMap Prod.fst =
    linesOf (· == .read) (fates d skipEmpty limit lines) := by
  induction course hd skipEmpty limit lines with
  | done => simp
  | blank h _ ih => simp [readings_blank h, fates_blank h, ih]
  | record h hlater _ ih =>
      simp [readings_record h (hlater _), fates_record h (hlater _), ih, -List.map_cons]
  | unclosed h hscan => simp [readings_unclosed h hscan, fates_unclosed h hscan, -List.map_cons]
  | malformed h hscan hlines _ ih =>
      simp [readings_malformed h hscan, fates_malformed h hscan hlines, ih]

variable {skipEmpty limit lines}

theorem mem_of_mem_readings {reading : List Line × Record}
    (h : reading ∈ readings d skipEmpty limit lines) {line : Line} (hline : line ∈ reading.1) :
    line ∈ lines := by
  have hread : line ∈ linesOf (· == .read) (fates d skipEmpty limit lines) := by
    rw [← lines_readings hd]
    exact List.mem_flatMap.mpr ⟨reading, h, hline⟩
  have hmem := (linesOf_sublist _ _).mem hread
  rwa [lines_fates hd] at hmem

/-- A record is read from its first line alone where that line does not open a quote. -/
theorem eq_nil_of_mem_readings {first : Line} {others : List Line} {fields : Record}
    (h : (first :: others, fields) ∈ readings d skipEmpty limit lines)
    (hclosed : (scanRecord d limit ⟨first, first.text, []⟩).isUnclosed = false) : others = [] := by
  -- What does not run out of the first line is read in it, also before the others.
  have hread : ∀ pending, scanRecord d limit ⟨first, first.text, pending⟩ =
      (scanRecord d limit ⟨first, first.text, []⟩).followedBy pending :=
    fun pending => scanRecord_append hclosed pending
  induction course hd skipEmpty limit lines with
  | done => simp at h
  | blank hblank _ ih =>
      rw [readings_blank hblank] at h
      exact ih h
  | record hline hlater _ ih =>
      rw [readings_record hline (hlater _), List.mem_cons] at h
      cases h with
      | inl heq =>
          obtain ⟨⟨rfl, rfl⟩, rfl⟩ := by simpa using heq
          have hwhole := (hlater []).symm.trans (hread (others ++ []))
          cases hscan : scanRecord d limit ⟨first, first.text, []⟩ with
          | record fields left =>
              rw [hscan, RecordScan.followedBy, RecordScan.record.injEq] at hwhole
              simpa using (List.append_eq_nil_iff.mp hwhole.2.symm).2
          | unclosed | malformed | undivided => simp [hscan, RecordScan.followedBy] at hwhole
      | inr hmem => exact ih hmem
  | unclosed hline hscan =>
      rw [readings_unclosed hline hscan, List.mem_singleton] at h
      obtain ⟨⟨rfl, rfl⟩, rfl⟩ := by simpa using h
      have hwhole := congrArg RecordScan.isUnclosed (hscan.symm.trans (hread others))
      rw [RecordScan.isUnclosed_followedBy, hclosed] at hwhole
      contradiction
  | malformed hline hscan _ _ ih =>
      rw [readings_malformed hline hscan] at h
      exact ih h

/-- Where lines are left out by whole records, the records of the others are read as before. An
empty line may stay that would be left out anyway. -/
theorem readings_filter {keep : Line → Bool}
    (hwarnings : (division d skipEmpty limit lines).warnings = [])
    (hwhole : ∀ reading ∈ readings d skipEmpty limit lines,
      (∀ line ∈ reading.1, keep line = true) ∨
        ∀ line ∈ reading.1, keep line = true → (skipEmpty && line.text.isEmpty) = true) :
    readings d skipEmpty limit (lines.filter keep) =
      (readings d skipEmpty limit lines).filter fun reading => reading.1.all keep := by
  induction course hd skipEmpty limit lines with
  | done => simp
  | @blank line pending h _ ih =>
      rw [division_blank h] at hwarnings
      rw [readings_blank h] at hwhole ⊢
      cases hkeep : keep line with
      | true => rw [List.filter_cons_of_pos hkeep, readings_blank h, ih hwarnings hwhole]
      | false => rw [List.filter_cons_of_neg (by simp [hkeep]), ih hwarnings hwhole]
  | @record line passed rest fields h hlater _ ih =>
      rw [division_record hd h (hlater _)] at hwarnings
      rw [readings_record h (hlater _)] at hwhole ⊢
      obtain ⟨hfirst, hothers⟩ := List.forall_mem_cons.mp hwhole
      rw [← List.cons_append, List.filter_append]
      -- The record is read whatever comes after it, so also before the lines that are left.
      cases hfirst with
      | inl hall =>
          rw [List.filter_eq_self.mpr hall, List.cons_append, readings_record h (hlater _),
            ih hwarnings hothers, List.filter_cons, if_pos (List.all_eq_true.mpr hall)]
      | inr hblank =>
          rw [readings_blank_append (List.forall_mem_filter.mpr hblank), ih hwarnings hothers,
            List.filter_cons, if_neg (not_all_keep_of_blank h hblank)]
  | @unclosed line pending fields h hscan =>
      rw [readings_unclosed h hscan] at hwhole ⊢
      cases hwhole _ List.mem_cons_self with
      | inl hall =>
          rw [List.filter_eq_self.mpr hall, readings_unclosed h hscan, List.filter_cons,
            if_pos (List.all_eq_true.mpr hall), List.filter_nil]
      | inr hblank =>
          rw [← List.append_nil (List.filter keep _),
            readings_blank_append (List.forall_mem_filter.mpr hblank), readings_nil,
            List.filter_cons, if_neg (not_all_keep_of_blank h hblank), List.filter_nil]
  | malformed h hscan _ _ _ => simp [division_malformed hd h hscan] at hwarnings

/-- Lines are kept or left out by whole records: one that loses some of its lines loses all of
them that are not empty. -/
def WholeRecords (d : Dialect) (skipEmpty : Bool) (limit : Int) (lines kept : List Line) : Prop :=
  ∀ reading ∈ readings d skipEmpty limit lines,
    (∀ line ∈ reading.1, line ∈ kept) ∨
      ∀ line ∈ reading.1, line ∈ kept → (skipEmpty && line.text.isEmpty) = true

/-- Lines that are left out are records by themselves where no line is left out that is read inside
quotes, or that opens a quote. -/
theorem wholeRecords_filter {keep : Line → Bool}
    (hinside : ∀ reading ∈ readings d skipEmpty limit lines, ∀ line ∈ reading.1.tail,
      keep line = true)
    (hopens : ∀ line ∈ lines, keep line = false →
      (scanRecord d limit ⟨line, line.text, []⟩).isUnclosed = false) :
    WholeRecords d skipEmpty limit lines (lines.filter keep) := by
  rintro ⟨_ | ⟨first, others⟩, fields⟩ hreading
  · exact .inl (by simp)
  · have hothers := hinside _ hreading
    have hmem : ∀ line ∈ first :: others, line ∈ lines :=
      fun line hline => mem_of_mem_readings hd hreading hline
    cases hkeep : keep first with
    | true =>
        refine .inl fun line hline => List.mem_filter.mpr ⟨hmem line hline, ?_⟩
        cases hline with
        | head => exact hkeep
        | tail _ hline => exact hothers line hline
    | false =>
        have hclosed := hopens first (hmem first List.mem_cons_self) hkeep
        obtain rfl := eq_nil_of_mem_readings hd hreading hclosed
        refine .inr fun line hline hkept => ?_
        obtain rfl := List.mem_singleton.mp hline
        rw [List.mem_filter, hkeep] at hkept
        exact absurd hkept.2 Bool.false_ne_true

/-- The records of the lines that are left are some of the records, in order. -/
theorem records_filter_sublist {keep : Line → Bool}
    (hwarnings : (division d skipEmpty limit lines).warnings = [])
    (hwhole : WholeRecords d skipEmpty limit lines (lines.filter keep)) :
    (division d skipEmpty limit (lines.filter keep)).records.Sublist
      (division d skipEmpty limit lines).records := by
  have hkeep : ∀ reading ∈ readings d skipEmpty limit lines,
      (∀ line ∈ reading.1, keep line = true) ∨
        ∀ line ∈ reading.1, keep line = true → (skipEmpty && line.text.isEmpty) = true := by
    intro reading hreading
    apply (hwhole reading hreading).imp
    · intro hkept line hline
      exact (List.mem_filter.mp (hkept line hline)).2
    · intro hblank line hline hkept
      have hmem := mem_of_mem_readings hd hreading hline
      exact hblank line hline (List.mem_filter.mpr ⟨hmem, hkept⟩)
  rw [← records_readings hd, ← records_readings hd, readings_filter hd hwarnings hkeep]
  exact List.filter_sublist.map Prod.snd

end Laws

end Delimited
