/- Trimming settled by trying it. Whether it is turned on or not, the types are those of the trimmed
rows; so a guess that is made without trimming is still made when trimming is tried, just when the
trimmed rows have a value where the types are taken from (`guess_with_trimming_tried`). -/
import Delimited.Proofs.Guess.Stages
import Delimited.Proofs.Record.Course
import Delimited.Proofs.Schema.RowTypes
import Delimited.Proofs.Settings.Merging

namespace Delimited.Guess

/-- The first of the rows that types are taken from. A first row may be a header, one alone is none. -/
def bodyStart (rows : List (List (Option Text))) : Nat := if rows.length ≤ 1 then 0 else 1

/-- Overrides read from other entries, with trimming left to be tried. -/
def tryTrimming (o : Overrides) (entries : Table) : Overrides :=
  { o with trim := .unset, base := entries }

variable {c : Tunables} {o : Overrides} {lines : List Line} {g : Guess} {trimmed : Division}
  {entries : Table}

theorem chooseTrim_tried {plan : SkipPlan} {d : Dialect} (ho : o.trim = .unset)
    (htrimmed : split { d with trim := true } true c.maxQuotedSize plan.lines = some trimmed)
    (types : List ColumnType) (start : Nat) :
    chooseTrim c o plan d types start =
      .ok ({ d with trim := ColumnType.ofRows (trimmed.rows.drop start) != types },
        ColumnType.ofRows (trimmed.rows.drop start)) := by
  unfold chooseTrim
  rw [ho]
  exact tuneTrim_eq_ok htrimmed types start

theorem readTable_tried {plan : SkipPlan} {d : Dialect} (ho : o.trim = .unset)
    (htrimmed : split { d with trim := true } true c.maxQuotedSize plan.lines = some trimmed)
    (first : List (Option Text)) (body : List (List (Option Text))) :
    ∃ d' header, readTable c o plan d (first :: body) =
      .ok (d', header, ColumnType.ofRows (trimmed.rows.drop (bodyStart (first :: body)))) := by
  cases body with
  | nil =>
      have hchoose := chooseTrim_tried ho htrimmed (ColumnType.ofRows [first]) 0
      exact ⟨_, _, bind_eq_ok.mpr ⟨_, hchoose, rfl⟩⟩
  | cons second body =>
      have hchoose := chooseTrim_tried ho htrimmed (ColumnType.ofRows (second :: body)) 1
      exact ⟨_, _, bind_eq_ok.mpr ⟨_, hchoose, rfl⟩⟩

/-- Made again with trimming tried, a guess goes through the same stages up to its rows. Then there is
a guess unless no types are left. -/
theorem Stages.make_tried (st : Stages c o lines g) (ho : o.trim = .given false)
    (htrimmed : split { st.dialect with trim := true } true c.maxQuotedSize g.skipPlan.lines =
      some trimmed) (entries : Table) :
    ∃ found, make c (tryTrimming o entries) lines = .ok found ∧
      (found.isSome = true ↔
        ColumnType.ofRows (trimmed.rows.drop (bodyStart st.division.rows)) ≠ []) := by
  have hchosen : chooseDialect c (tryTrimming o entries) (lines.map Line.text) =
      .ok (st.dialect, g.escapeResolved) := by
    obtain ⟨hdelimiter, hquote, hescape, hnull, htrim⟩ := chooseDialect_eq_ok_iff.mp st.chosen
    rw [ho] at htrim
    exact chooseDialect_eq_ok_iff.mpr ⟨hdelimiter, hquote, hescape, hnull, htrim⟩
  obtain ⟨d', header, hread⟩ :=
    readTable_tried (o := tryTrimming o entries) rfl htrimmed st.first st.body
  have hmake := make_eq hchosen st.planned st.divided st.rows hread
  refine ⟨_, hmake, ?_⟩
  rw [st.rows]
  cases ColumnType.ofRows (trimmed.rows.drop (bodyStart (st.first :: st.body))) <;> simp

/-- Where a guess is made with trimming set to be off, it is made with trimming left to be tried just
when the trimmed lines have a row with a value where the types are taken from: after the first row,
or among all if there is one row as the lines stand. Otherwise there is no guess. -/
theorem guess_with_trimming_tried {settings : Value} {sample : List SampleItem}
    (hsection : Overrides.parserSection settings = .ok entries)
    (hunset : Table.get? entries "trim_if_not_quoted".toList = none)
    (h : ofSample c (Overrides.withEntry "trim_if_not_quoted".toList (.boolean false) settings)
      sample = .ok (some g)) :
    ∃ raw trimmed found, split g.dialect true c.maxQuotedSize g.skipPlan.lines = some raw ∧
      split { g.dialect with trim := true } true c.maxQuotedSize g.skipPlan.lines = some trimmed ∧
      ofSample c settings sample = .ok found ∧
      (found.isSome = true ↔ ∃ row ∈ trimmed.rows.drop (bodyStart raw.rows), row ≠ []) := by
  obtain ⟨o, hread, hcsv, ⟨st⟩⟩ := ofSample_eq_ok_iff.mp h
  obtain ⟨htrim, hread⟩ := Overrides.read_withEntry_trim hsection hunset hread
  have hsame : g.dialect = st.dialect := st.dialect_settled (.inl (by rw [htrim]; nofun))
  have htrimmed := split_eq_division (d := { g.dialect with trim := true }) st.delimiter_ne_nil true
    c.maxQuotedSize g.skipPlan.lines
  obtain ⟨found, hfound, hsome⟩ := st.make_tried htrim (hsame ▸ htrimmed) entries
  refine ⟨st.division, _, found, hsame ▸ st.divided, htrimmed, ?_, ?_⟩
  · rw [ofSample_of_read hread hcsv]
    exact hfound
  · rw [hsome, ColumnType.ofRows_ne_nil_iff, hsame]

/-- A number after a space, for which trimming is turned on. -/
theorem guess_with_trimming_tried_number :
    ∃ g, ofSample {} (Overrides.withEntry "trim_if_not_quoted".toList (.boolean false) .null)
        (plainSample [['a', ',', ' ', '1'], ['b', ',', ' ', '2']]) = .ok (some g) ∧
      ∃ found, ofSample {} .null (plainSample [['a', ',', ' ', '1'], ['b', ',', ' ', '2']]) =
        .ok found ∧ found.isSome = true := by
  obtain ⟨g, hg, hfound⟩ : ∃ g,
      ofSample {} (Overrides.withEntry "trim_if_not_quoted".toList (.boolean false) .null)
        (plainSample [['a', ',', ' ', '1'], ['b', ',', ' ', '2']]) = .ok (some g) ∧
      decide ((split g.dialect true 131072 g.skipPlan.lines).map (fun raw => raw.rows.length) =
          some 2 ∧
        (split { g.dialect with trim := true } true 131072 g.skipPlan.lines).map Division.rows =
          some [[some ['a'], some ['1']], [some ['b'], some ['2']]]) = true :=
    exists_of_made _ (by decide +kernel)
  obtain ⟨hraw, htrimmed⟩ := of_decide_eq_true hfound
  obtain ⟨raw, trimmed, found, hraw', htrimmed', hmade, hsome⟩ :=
    guess_with_trimming_tried (show Overrides.parserSection .null = .ok [] from rfl) rfl hg
  rw [hraw', Option.map_some, Option.some.injEq] at hraw
  rw [htrimmed', Option.map_some, Option.some.injEq] at htrimmed
  refine ⟨g, hg, found, hmade, hsome.mpr ?_⟩
  rw [htrimmed, bodyStart, hraw]
  exact ⟨[some ['b'], some ['2']], by simp, by simp⟩

/-- Two lines that are a row each as they stand. Trimmed, the quote after a space goes on into the
second line, and the one row that they make is taken for a header over nothing. -/
theorem guess_lost_by_trimming :
    (∃ g, ofSample {} (Overrides.withEntry "trim_if_not_quoted".toList (.boolean false) .null)
        (plainSample [['"', 'a', '"', ',', ' ', '"', 'b'], ['c', '"', ',', '"', 'd', '"']]) =
          .ok (some g)) ∧
      ¬ ∃ g, ofSample {} .null
        (plainSample [['"', 'a', '"', ',', ' ', '"', 'b'], ['c', '"', ',', '"', 'd', '"']]) =
          .ok (some g) := by
  constructor
  · obtain ⟨g, hg, -⟩ : ∃ g,
        ofSample {} (Overrides.withEntry "trim_if_not_quoted".toList (.boolean false) .null)
          (plainSample [['"', 'a', '"', ',', ' ', '"', 'b'], ['c', '"', ',', '"', 'd', '"']]) =
            .ok (some g) ∧ (!g.dialect.trim) = true := exists_of_made _ (by decide +kernel)
    exact ⟨g, hg⟩
  · rintro ⟨g, hg⟩
    have hnone : (ofSample {} .null (plainSample [['"', 'a', '"', ',', ' ', '"', 'b'],
        ['c', '"', ',', '"', 'd', '"']])).toOption.join.isSome = false := by decide +kernel
    rw [hg] at hnone
    exact Bool.false_ne_true hnone.symm

end Delimited.Guess
