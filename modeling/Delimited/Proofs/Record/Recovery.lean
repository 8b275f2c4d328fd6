/- Recovery from malformed records. A division without the lines that its warnings name is the same
division, if no line was lost on the way; a lost line comes back and makes itself felt
(`split_unwarned`). -/
import Delimited.Proofs.Record.Extent
import Mathlib.Data.List.Nodup

namespace Delimited

/-- The lines without those that a warning names by its number. -/
def Division.unwarned (s : Division) (lines : List Line) : List Line :=
  lines.filter fun line => line.number ∉ s.warnings.map fun w => w.dropped.number

section LinesOf

/-- Where lines are told apart by their numbers, the lines of some fates are taken out by number. -/
theorem filter_number_linesOf (p : Fate → Bool) {fs : List (Line × Fate)}
    (hnumbers : (fs.map fun x => x.1.number).Nodup) :
    ((fs.map Prod.fst).filter fun line => line.number ∉ (linesOf p fs).map Line.number) =
      linesOf (fun fate => !p fate) fs := by
  rw [linesOf.eq_def (fun fate => !p fate), List.filter_map]
  congr 1
  apply List.filter_congr
  intro x hx
  have hnumber : x.1.number ∈ (linesOf p fs).map Line.number ↔ p x.2 = true := by
    constructor
    · intro hmem
      obtain ⟨line, hline, hsame⟩ := List.mem_map.mp hmem
      obtain ⟨y, hy, rfl⟩ := List.mem_map.mp hline
      obtain ⟨hy, hfate⟩ := List.mem_filter.mp hy
      rwa [List.inj_on_of_nodup_map hnumbers hx hy hsame.symm]
    · intro hfate
      exact List.mem_map_of_mem (List.mem_map_of_mem (List.mem_filter.mpr ⟨hx, hfate⟩))
  simp only [Function.comp_apply, decide_not, hnumber, Bool.decide_eq_true]

theorem weight_linesOf (skipEmpty : Bool) (p : Fate → Bool) (fs : List (Line × Fate)) :
    weight skipEmpty (linesOf p fs) =
      fs.countP fun x => !(skipEmpty && x.1.text.isEmpty) && p x.2 := by
  rw [weight, linesOf, List.countP_map, List.countP_filter]
  rfl

theorem weight_linesOf_not_dropped (skipEmpty : Bool) (fs : List (Line × Fate)) :
    weight skipEmpty (linesOf (fun fate => !(fate == .dropped)) fs) =
      weight skipEmpty (linesOf Fate.isKept fs) + weight skipEmpty (linesOf (· == .lost) fs) := by
  simp only [weight_linesOf]
  induction fs with
  | nil => rfl
  | cons x fs ih =>
      obtain ⟨line, fate⟩ := x
      simp only [List.countP_cons, ih]
      cases fate <;> simp [Fate.isKept] <;> omega

theorem linesOf_not_dropped {fs : List (Line × Fate)} (hlost : linesOf (· == .lost) fs = []) :
    linesOf (fun fate => !(fate == .dropped)) fs = linesOf Fate.isKept fs := by
  rw [linesOf, List.map_eq_nil_iff, List.filter_eq_nil_iff] at hlost
  rw [linesOf, linesOf]
  congr 1
  apply List.filter_congr
  rintro ⟨line, fate⟩ hx
  have hfate := hlost _ hx
  cases fate <;> simp_all [Fate.isKept]

end LinesOf

variable {d : Dialect} {skipEmpty : Bool} {limit : Int} {lines : List Line}

/-- What is left when the lines that warnings name are taken out: the kept and the lost ones. -/
theorem unwarned_division (hd : d.delimiter ≠ []) (hnumbers : (lines.map Line.number).Nodup) :
    (division d skipEmpty limit lines).unwarned lines =
      linesOf (fun fate => !(fate == .dropped)) (fates d skipEmpty limit lines) := by
  have hfst := lines_fates hd skipEmpty limit lines
  have hfates : ((fates d skipEmpty limit lines).map fun x => x.1.number).Nodup := by
    have hnumbers' := hnumbers
    rw [← hfst, List.map_map] at hnumbers'
    exact hnumbers'
  have hfilter := filter_number_linesOf (· == .dropped) hfates
  rw [hfst, dropped_fates hd, List.map_map] at hfilter
  exact hfilter

/-- A line that comes back lies in some record, and so there are more lines than the kept ones. -/
theorem lostLines_eq_nil_of_same_records (hd : d.delimiter ≠ []) (hlines : NoLineFeed lines)
    (hnumbers : (lines.map Line.number).Nodup) {again : Division}
    (hagain : division d skipEmpty limit ((division d skipEmpty limit lines).unwarned lines) = again)
    (hopen : (division d skipEmpty limit lines).openEnd = false) (hopen' : again.openEnd = false)
    (hrecords : again.records = (division d skipEmpty limit lines).records)
    (hwarnings : again.warnings = []) : lostLines d skipEmpty limit lines = [] := by
  have hunwarned : NoLineFeed ((division d skipEmpty limit lines).unwarned lines) :=
    fun line hline => hlines line ((List.mem_filter.mp hline).1)
  subst hagain
  have hkept := weight_keptLines hd hlines hopen
  have hall := weight_keptLines hd hunwarned hopen'
  rw [keptLines_of_warnings_eq_nil hd hwarnings, hrecords, ← hkept, unwarned_division hd hnumbers,
    weight_linesOf_not_dropped] at hall
  by_contra hlost
  have hpos := weight_lostLines_pos hd hlost
  rw [lostLines] at hpos
  rw [keptLines] at hall
  omega

/-- Taking out the lines that the warnings name leaves the same records and no warning, provided
that no line was lost; the kept lines alone always do so. Among lines of a file, a lost line always
makes a difference, unless a division ends inside quotes. -/
theorem split_unwarned (hd : d.delimiter ≠ []) (skipEmpty : Bool) (limit : Int)
    (hnumbers : (lines.map Line.number).Nodup) :
    ∃ s again, split d skipEmpty limit lines = some s ∧
      split d skipEmpty limit (s.unwarned lines) = some again ∧
      split d skipEmpty limit (keptLines d skipEmpty limit lines) = some { s with warnings := [] } ∧
      (lostLines d skipEmpty limit lines = [] → again = { s with warnings := [] }) ∧
      (NoLineFeed lines → s.openEnd = false → again.openEnd = false →
        (again.records = s.records ∧ again.warnings = [] ↔
          lostLines d skipEmpty limit lines = [])) := by
  have hclean : lostLines d skipEmpty limit lines = [] →
      division d skipEmpty limit ((division d skipEmpty limit lines).unwarned lines) =
        { division d skipEmpty limit lines with warnings := [] } := by
    intro hlost
    rw [unwarned_division hd hnumbers, linesOf_not_dropped hlost]
    exact division_keptLines hd skipEmpty limit lines
  refine ⟨_, _, split_eq_division hd skipEmpty limit _, split_eq_division hd skipEmpty limit _,
    ?_, hclean, ?_⟩
  · rw [split_eq_division hd, division_keptLines hd]
  · intro hlines hopen hopen'
    constructor
    · rintro ⟨hrecords, hwarnings⟩
      exact lostLines_eq_nil_of_same_records hd hlines hnumbers rfl hopen hopen' hrecords hwarnings
    · intro hlost
      rw [hclean hlost]
      exact ⟨rfl, rfl⟩

theorem split_unwarned_two_lines :
    ((([⟨1, ['"', 'a', '"', 'x']⟩, ⟨2, ['b']⟩] : List Line).map Line.number).Nodup ∧
      lostLines ⟨[','], some ['"'], none, none, false⟩ true 8
        [⟨1, ['"', 'a', '"', 'x']⟩, ⟨2, ['b']⟩] = []) ∧
      ∃ s again, split ⟨[','], some ['"'], none, none, false⟩ true 8
          [⟨1, ['"', 'a', '"', 'x']⟩, ⟨2, ['b']⟩] = some s ∧
        split ⟨[','], some ['"'], none, none, false⟩ true 8
          (s.unwarned [⟨1, ['"', 'a', '"', 'x']⟩, ⟨2, ['b']⟩]) = some again ∧
        again = { s with warnings := [] } := by
  have hnumbers : (([⟨1, ['"', 'a', '"', 'x']⟩, ⟨2, ['b']⟩] : List Line).map Line.number).Nodup := by
    decide
  have hlost : lostLines ⟨[','], some ['"'], none, none, false⟩ true 8
      [⟨1, ['"', 'a', '"', 'x']⟩, ⟨2, ['b']⟩] = [] := by decide +kernel
  obtain ⟨s, again, hs, hagain, -, hclean, -⟩ :=
    split_unwarned (d := ⟨[','], some ['"'], none, none, false⟩) (by decide) true 8 hnumbers
  exact ⟨⟨hnumbers, hlost⟩, s, again, hs, hagain, hclean hlost⟩

/-- The first of three lines is lost: its quoted value ends well in the second line, and the next
value, which starts there, does not. -/
theorem split_unwarned_lost_line :
    ¬ ∃ s again, split ⟨[','], some ['"'], none, none, false⟩ true 8
        [⟨1, ['"', 'a']⟩, ⟨2, ['b', '"', ',', '"', 'c', '"', 'x']⟩, ⟨3, ['d']⟩] = some s ∧
      split ⟨[','], some ['"'], none, none, false⟩ true 8
        (s.unwarned [⟨1, ['"', 'a']⟩, ⟨2, ['b', '"', ',', '"', 'c', '"', 'x']⟩, ⟨3, ['d']⟩]) =
          some again ∧
      again.records = s.records ∧ again.warnings = [] := by
  rintro ⟨s, again, hs, hagain, hrecords, -⟩
  have hsplit : split ⟨[','], some ['"'], none, none, false⟩ true 8
      [⟨1, ['"', 'a']⟩, ⟨2, ['b', '"', ',', '"', 'c', '"', 'x']⟩, ⟨3, ['d']⟩] =
        some { records := [[⟨some ['d'], false⟩]]
               warnings := [⟨⟨2, ['b', '"', ',', '"', 'c', '"', 'x']⟩,
                 .strayCharacter 'x' '"', 2⟩] } := by decide +kernel
  obtain rfl := Option.some.inj (hsplit.symm.trans hs)
  have hwithout : split ⟨[','], some ['"'], none, none, false⟩ true 8
      [⟨1, ['"', 'a']⟩, ⟨3, ['d']⟩] = some { records := [[]], openEnd := true } := by
    decide +kernel
  obtain rfl := Option.some.inj (hwithout.symm.trans hagain)
  simp at hrecords

end Delimited
