/- Narrow records before a table. None of them starts the body, in whatever order they stand, since
the first record of the body comes within the horizon. But the last place that is looked at is one
short of the most lines that are skipped, so a prefix as long as that is not found
(`raggedPrefix_of_narrow`). -/
import Delimited.Layout.RaggedPrefix

namespace Delimited

theorem Stretch.mem_between_iff {α : Type} {low high : Nat} {xs : List α} {x : α} :
    x ∈ Stretch.between (low : Int) (high : Int) xs ↔
      ∃ j, low ≤ j ∧ j < high ∧ xs[j]? = some x := by
  rw [Stretch.between, Stretch.place_ofNat, Stretch.place_ofNat, List.mem_iff_getElem?]
  simp only [List.getElem?_drop, List.getElem?_take]
  constructor
  · rintro ⟨k, hk⟩
    split at hk
    · refine ⟨min low xs.length + k, ?_, ?_, hk⟩
      · omega
      · omega
    · contradiction
  · rintro ⟨j, hlow, hhigh, hj⟩
    obtain ⟨hlength, -⟩ := List.getElem?_eq_some_iff.mp hj
    refine ⟨j - low, ?_⟩
    rw [if_pos (by omega), Nat.min_eq_left (by omega), Nat.add_sub_cancel' hlow]
    exact hj

namespace Layout

variable {c : Tunables} {widths narrow body : List Nat} {b i : Nat}

theorem startsBody_iff (hhorizon : 0 ≤ c.noSkipDetectLines) :
    startsBody c widths i = true ↔
      ∃ width, widths[i]? = some width ∧
        ∀ j next, i < j → (j : Int) ≤ i + c.noSkipDetectLines → widths[j]? = some next →
          next ≤ width := by
  obtain ⟨horizon, hhorizon⟩ := Int.eq_ofNat_of_zero_le hhorizon
  unfold startsBody
  cases hwidth : widths[i]? with
  | none => simp
  | some width =>
      have hhigh : (i : Int) + 1 + c.noSkipDetectLines = (i + 1 + horizon : Nat) := by omega
      rw [hhigh, ← Int.natCast_add_one]
      simp only [List.all_eq_true, decide_eq_true_eq, Stretch.mem_between_iff, Option.some.injEq,
        exists_eq_left']
      constructor
      · intro h j next hij hj hnext
        exact h next ⟨j, hij, by omega, hnext⟩
      · rintro h next ⟨j, hij, hj, hnext⟩
        exact h j next hij (by omega) hnext

/-- The record after a prefix that is skipped starts the body, and it is not the last one. -/
theorem raggedPrefix_cases (c : Tunables) (widths : List Nat) :
    raggedPrefix c widths = 0 ∨
      startsBody c widths (raggedPrefix c widths) = true ∧
        (raggedPrefix c widths : Int) < c.maxSkipLines ∧
          raggedPrefix c widths + 1 < widths.length := by
  unfold raggedPrefix
  simp only
  cases hfound : (List.range (min c.maxSkipLines (widths.length - 1 : Int)).toNat).find?
      (startsBody c widths) with
  | none => exact .inl rfl
  | some i =>
      have hi := List.mem_range.mp (List.mem_of_find?_eq_some hfound)
      rw [Option.getD_some]
      refine .inr ⟨List.find?_some hfound, ?_, ?_⟩
      · omega
      · omega

theorem raggedPrefix_eq_of_startsBody (hstarts : startsBody c widths i = true)
    (hbefore : ∀ j < i, startsBody c widths j = false) (hmax : (i : Int) < c.maxSkipLines)
    (hmore : i + 1 < widths.length) : raggedPrefix c widths = i := by
  have hfound : (List.range (min c.maxSkipLines (widths.length - 1 : Int)).toNat).find?
      (startsBody c widths) = some i := by
    rw [List.find?_range_eq_some]
    refine ⟨hstarts, ?_, ?_⟩
    · rw [List.mem_range]
      omega
    · intro j hj
      rw [hbefore j hj]
      rfl
  unfold raggedPrefix
  simp only [hfound, Option.getD_some]

/-- A narrow record does not start the body: the body starts within its horizon. -/
theorem startsBody_narrow (hnarrow : ∀ w ∈ narrow, w < b)
    (hhorizon : (narrow.length : Int) ≤ c.noSkipDetectLines) (hi : i < narrow.length) :
    startsBody c (narrow ++ b :: body) i = false := by
  rw [Bool.eq_false_iff, Ne, startsBody_iff (by omega)]
  rintro ⟨width, hwidth, hnext⟩
  rw [List.getElem?_append_left hi] at hwidth
  have hle : b ≤ width := by
    refine hnext narrow.length b hi ?_ ?_
    · omega
    · simp
  exact absurd hle (Nat.not_le.mpr (hnarrow width (List.mem_of_getElem? hwidth)))

theorem startsBody_body (hhorizon : 0 ≤ c.noSkipDetectLines) (hbody : ∀ w ∈ body, w ≤ b) :
    startsBody c (narrow ++ b :: body) narrow.length = true := by
  rw [startsBody_iff hhorizon]
  refine ⟨b, by simp, ?_⟩
  intro j next hj _ hnext
  obtain ⟨k, rfl⟩ := Nat.exists_eq_add_of_lt hj
  rw [List.getElem?_append_right (by omega),
    show narrow.length + k + 1 - narrow.length = k + 1 by omega, List.getElem?_cons_succ] at hnext
  exact hbody next (List.mem_of_getElem? hnext)

/-- Before a body that is nowhere wider than at its start, all narrow records are skipped, or none
where there are as many as may be skipped. -/
theorem raggedPrefix_narrow_append (hnarrow : ∀ w ∈ narrow, w < b) (hbody : ∀ w ∈ body, w ≤ b)
    (hmore : body ≠ []) (hhorizon : (narrow.length : Int) ≤ c.noSkipDetectLines) :
    raggedPrefix c (narrow ++ b :: body) =
      if (narrow.length : Int) < c.maxSkipLines then narrow.length else 0 := by
  have hlength := List.length_pos_iff.mpr hmore
  have hbefore : ∀ j < narrow.length, startsBody c (narrow ++ b :: body) j = false := by
    intro j hj
    exact startsBody_narrow hnarrow hhorizon hj
  split
  · next hmax =>
    apply raggedPrefix_eq_of_startsBody
    · exact startsBody_body (by omega) hbody
    · exact hbefore
    · exact hmax
    · rw [List.length_append, List.length_cons]
      omega
  · next hmax =>
    -- Only narrow records are looked at, and none of them starts the body.
    rcases raggedPrefix_cases c (narrow ++ b :: body) with hzero | ⟨hstarts, hless, -⟩
    · exact hzero
    · rw [hbefore _ (by omega)] at hstarts
      contradiction

/-- Narrow records before a body of one width are all skipped if there are fewer than the most lines
that are skipped. Where there are just as many, none is. -/
theorem raggedPrefix_of_narrow {m : Nat} (hnarrow : ∀ w ∈ narrow, w < b) (hm : 2 ≤ m)
    (hmax : (narrow.length : Int) ≤ c.maxSkipLines)
    (hhorizon : (narrow.length : Int) ≤ c.noSkipDetectLines) :
    (raggedPrefix c (narrow ++ List.replicate m b) = narrow.length ↔
        narrow = [] ∨ (narrow.length : Int) < c.maxSkipLines) ∧
      ((narrow.length : Int) = c.maxSkipLines →
        raggedPrefix c (narrow ++ List.replicate m b) = 0) := by
  obtain ⟨m, rfl⟩ := Nat.exists_eq_add_of_le hm
  have hbody : List.replicate (2 + m) b = b :: List.replicate (1 + m) b := by
    rw [← List.replicate_succ]
    congr 1
    omega
  have huniform : ∀ w ∈ List.replicate (1 + m) b, w ≤ b :=
    fun w hw => Nat.le_of_eq (List.eq_of_mem_replicate hw)
  rw [hbody, raggedPrefix_narrow_append hnarrow huniform (by simp) hhorizon,
    ← List.length_eq_zero_iff]
  constructor
  · split <;> omega
  · intro hall
    rw [if_neg (by omega)]

theorem raggedPrefix_of_narrow_uneven :
    (∀ w ∈ [3, 1, 2], w < 5) ∧ 2 ≤ 2 ∧
      (([3, 1, 2] : List Nat).length : Int) ≤ ({} : Tunables).maxSkipLines ∧
      (([3, 1, 2] : List Nat).length : Int) ≤ ({} : Tunables).noSkipDetectLines ∧
      raggedPrefix {} ([3, 1, 2] ++ List.replicate 2 5) = 3 := by
  have hnarrow : ∀ w ∈ [3, 1, 2], w < 5 := by decide
  have hmax : (([3, 1, 2] : List Nat).length : Int) ≤ ({} : Tunables).maxSkipLines := by decide
  have hhorizon : (([3, 1, 2] : List Nat).length : Int) ≤ ({} : Tunables).noSkipDetectLines := by
    decide
  refine ⟨hnarrow, Nat.le_refl 2, hmax, hhorizon, ?_⟩
  exact (raggedPrefix_of_narrow hnarrow (Nat.le_refl 2) hmax hhorizon).1.mpr (.inr (by decide))

/-- One line may be skipped, and the one narrow record is not. -/
theorem raggedPrefix_at_maxSkipLines :
    ¬ ∀ (c : Tunables) (narrow : List Nat) (b m : Nat), (∀ w ∈ narrow, w < b) → 2 ≤ m →
      (narrow.length : Int) ≤ c.maxSkipLines → (narrow.length : Int) ≤ c.noSkipDetectLines →
        raggedPrefix c (narrow ++ List.replicate m b) = narrow.length := by
  intro h
  have hone := h { maxSkipLines := 1 } [1] 2 2 (by decide) (by decide) (by decide) (by decide)
  exact absurd hone (by decide)

end Layout

end Delimited
