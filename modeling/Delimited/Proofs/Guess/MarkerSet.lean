/- The marker of comments that a guess found, set in the settings. Lines that start as data are
exempted from a marker that is found, and dropped with one that is set; so the guess is made again
just when the marker starts none of them (`guess_with_marker_set`). -/
import Delimited.Proofs.Evidence.DataLines
import Delimited.Proofs.Guess.Stages
import Delimited.Proofs.Settings.Merging

namespace Delimited.Guess

open Evidence

variable {c : Tunables} {o : Overrides} {lines : List Line} {g : Guess} {d : Dialect}
  {plan : SkipPlan} {marker : Text} {entries : Table}

/-- Overrides with the marker of comments set, read from other entries. -/
def setMarker (o : Overrides) (marker : Text) (entries : Table) : Overrides :=
  { o with commentMarker := .given (some marker), base := entries }

/-- A marker that was found leaves the lines that it does not mark. -/
theorem lines_of_marker_found (ho : o.commentMarker = .unset)
    (hplan : planSkip c o d lines = .ok plan) (hmarker : plan.commentMarker = some marker) :
    plan.lines =
      unmarked d.delimiter d.quote d.nullString marker (lines.drop plan.skipped) := by
  obtain ⟨all, -, -, hchosen⟩ := planSkip_eq_ok_iff.mp hplan
  rw [hmarker, chooseMarker, ho] at hchosen
  obtain hnone | ⟨found, -, hfound⟩ := commentMarker_cases c d.delimiter d.quote d.nullString
    (lines.drop plan.skipped)
  · rw [hnone] at hchosen
    cases (Prod.mk.inj hchosen).1
  · rw [hfound] at hchosen
    obtain ⟨hsame, hlines⟩ := Prod.mk.inj hchosen
    rw [hlines, Option.some.inj hsame]

/-- With the marker set the same ragged lines are skipped, and only the lines that it starts are
dropped anew. -/
theorem planSkip_setMarker (hplan : planSkip c o d lines = .ok plan) (marker : Text)
    (entries : Table) :
    planSkip c (setMarker o marker entries) d lines =
      .ok ⟨plan.skipped, some marker, dropComments marker (lines.drop plan.skipped)⟩ := by
  obtain ⟨all, hall, hskipped, -⟩ := planSkip_eq_ok_iff.mp hplan
  exact planSkip_eq_ok_iff.mpr ⟨all, hall, hskipped, rfl⟩

/-- The plan of a guess stays as it is under its own marker just when this starts no line that starts
as data. -/
theorem planSkip_setMarker_same_iff (ho : o.commentMarker = .unset)
    (hplan : planSkip c o d lines = .ok plan) (hmarker : plan.commentMarker = some marker)
    (entries : Table) :
    planSkip c (setMarker o marker entries) d lines = .ok plan ↔
      MarksNoData marker d.delimiter d.quote d.nullString (lines.drop plan.skipped) := by
  rw [planSkip_setMarker hplan, ← dropComments_eq_unmarked_iff,
    ← lines_of_marker_found ho hplan hmarker, ← hmarker, Except.ok.injEq]
  cases plan
  simp

/-- The dialect is chosen before the comments are left out. -/
theorem Stages.make_setMarker (st : Stages c o lines g) {entries : Table}
    (hplan : planSkip c (setMarker o marker entries) st.dialect lines = .ok g.skipPlan) :
    make c (setMarker o marker entries) lines = .ok (some { g with base := entries }) :=
  make_of_stages (g := { g with base := entries })
    { st with
      chosen := st.chosen
      planned := hplan
      based := rfl }

/-- Where a guess finds a marker of comments, the guess with this marker set in the settings is the
same, but for the section that it extends, as long as no line after the ragged ones starts with the
marker and as data. Where there is such a line, the two have different plans. -/
theorem guess_with_marker_set {settings : Value} {sample : List SampleItem}
    (hsection : Overrides.parserSection settings = .ok entries)
    (hunset : Table.get? entries "comment_line_marker".toList = none)
    (h : ofSample c settings sample = .ok (some g))
    (hmarker : g.skipPlan.commentMarker = some marker) (hne : marker ≠ []) :
    (MarksNoData marker g.dialect.delimiter g.dialect.quote g.dialect.nullString
        ((SampleItem.lines sample).drop g.skipPlan.skipped) →
      ofSample c (Overrides.withEntry "comment_line_marker".toList (.text marker) settings) sample =
        .ok (some { g with
          base := Table.set "comment_line_marker".toList (.text marker) g.base })) ∧
    ∀ g', ofSample c (Overrides.withEntry "comment_line_marker".toList (.text marker) settings)
        sample = .ok (some g') → g'.skipPlan = g.skipPlan →
      MarksNoData marker g.dialect.delimiter g.dialect.quote g.dialect.nullString
        ((SampleItem.lines sample).drop g.skipPlan.skipped) := by
  obtain ⟨o, hread, hcsv, ⟨st⟩⟩ := ofSample_eq_ok_iff.mp h
  obtain ⟨hbase, ho⟩ := Overrides.read_eq_ok_iff.mp hread
  obtain rfl : o.base = entries := Except.ok.inj (hbase.symm.trans hsection)
  have hfound : o.commentMarker = .unset := by
    have hmarker := ho.commentMarker
    rw [Overrides.textOf, hunset] at hmarker
    exact (Except.ok.inj hmarker).symm
  have hreadSet := Overrides.read_withEntry_marker hread hne
  have hsame := planSkip_setMarker_same_iff hfound st.planned hmarker
    (Table.set "comment_line_marker".toList (.text marker) o.base)
  rw [st.read.1] at hsame
  constructor
  · intro hdata
    rw [ofSample_of_read hreadSet hcsv, st.based]
    have hplan := hsame.mpr hdata
    rw [← st.read.1] at hplan
    exact st.make_setMarker hplan
  · intro g' hg' hplan
    obtain ⟨o', hread', -, ⟨st'⟩⟩ := ofSample_eq_ok_iff.mp hg'
    obtain rfl := Except.ok.inj (hread'.symm.trans hreadSet)
    -- The marker is no part of the dialect, so the same one was chosen.
    have hdialect : st'.dialect = st.dialect :=
      congrArg Prod.fst (Except.ok.inj (st'.chosen.symm.trans st.chosen))
    apply hsame.mp
    rw [← st.read.1, ← hdialect, ← hplan]
    exact st'.planned

/-- The one line that the marker starts is a comment. -/
theorem guess_with_marker_set_comment :
    ∃ g, ofSample {} .null
        (plainSample [['#', 'x', ',', 'y'], ['a', ',', 'b'], ['1', ',', '2']]) = .ok (some g) ∧
      ofSample {} (Overrides.withEntry "comment_line_marker".toList (.text ['#']) .null)
          (plainSample [['#', 'x', ',', 'y'], ['a', ',', 'b'], ['1', ',', '2']]) =
        .ok (some { g with
          base := Table.set "comment_line_marker".toList (.text ['#']) g.base }) := by
  obtain ⟨g, hg, hfound⟩ : ∃ g, ofSample {} .null
        (plainSample [['#', 'x', ',', 'y'], ['a', ',', 'b'], ['1', ',', '2']]) = .ok (some g) ∧
      decide (g.skipPlan.commentMarker = some ['#'] ∧
        g.dialect.delimiter = [','] ∧ g.dialect.quote = some ['"'] ∧ g.dialect.nullString = none ∧
        g.skipPlan.skipped = 0) = true := exists_of_made _ (by decide +kernel)
  obtain ⟨hmarker, hdelimiter, hquote, hnull, hskipped⟩ := of_decide_eq_true hfound
  refine ⟨g, hg, (guess_with_marker_set (show Overrides.parserSection .null = .ok [] from rfl) rfl
    hg hmarker (by decide)).1 ?_⟩
  rw [hdelimiter, hquote, hnull, hskipped]
  simp only [MarksNoData, ← isData_iff, ← Text.startsWith_iff]
  decide +kernel

/-- A null string after the comment: with the marker set its line is dropped too, and the columns are
typed without it. -/
theorem guess_changed_with_marker_set :
    ∃ g g', ofSample {} .null
        (plainSample [['#', 'c', ',', 'd'], ['1', ',', '2'], "#N/A,x".toList]) = .ok (some g) ∧
      g.skipPlan.commentMarker = some ['#'] ∧
      ofSample {} (Overrides.withEntry "comment_line_marker".toList (.text ['#']) .null)
        (plainSample [['#', 'c', ',', 'd'], ['1', ',', '2'], "#N/A,x".toList]) = .ok (some g') ∧
      g'.skipPlan ≠ g.skipPlan ∧ g'.columns ≠ g.columns := by
  obtain ⟨g, hg, hfound⟩ : ∃ g, ofSample {} .null
        (plainSample [['#', 'c', ',', 'd'], ['1', ',', '2'], "#N/A,x".toList]) = .ok (some g) ∧
      decide (g.skipPlan.commentMarker = some ['#'] ∧
        g.skipPlan.lines = [⟨2, ['1', ',', '2']⟩, ⟨3, "#N/A,x".toList⟩] ∧
        g.columns.map Column.type = [.string, .string]) = true :=
    exists_of_made _ (by decide +kernel)
  obtain ⟨g', hg', hfound'⟩ : ∃ g',
      ofSample {} (Overrides.withEntry "comment_line_marker".toList (.text ['#']) .null)
        (plainSample [['#', 'c', ',', 'd'], ['1', ',', '2'], "#N/A,x".toList]) = .ok (some g') ∧
      decide (g'.skipPlan.lines = [⟨2, ['1', ',', '2']⟩] ∧
        g'.columns.map Column.type = [.long, .long]) = true := exists_of_made _ (by decide +kernel)
  obtain ⟨hmarker, hlines, hcolumns⟩ := of_decide_eq_true hfound
  obtain ⟨hlines', hcolumns'⟩ := of_decide_eq_true hfound'
  refine ⟨g, g', hg, hmarker, hg', ?_, ?_⟩
  · intro hsame
    rw [hsame, hlines] at hlines'
    exact absurd hlines' (by decide)
  · intro hsame
    rw [hsame, hcolumns] at hcolumns'
    exact absurd hcolumns' (by decide)

end Delimited.Guess
