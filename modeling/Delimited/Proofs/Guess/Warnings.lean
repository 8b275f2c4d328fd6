/- The warnings of a guess. They are those of the lines read before trimming was settled, and so those of
its own dialect just when the two readings have the same; trimming that was set, or was left off, or
that meets no quote after a space, leaves them as they are (`warnings_of_own_dialect`). -/
import Delimited.Proofs.Guess.Stages
import Delimited.Proofs.Record.Trimmed

namespace Delimited.Guess

variable {c : Tunables} {o : Overrides} {lines : List Line} {g : Guess} {own : Division}

/-- Trimming that was turned on was left to be tried, and the lines were read without it before. -/
theorem Stages.dialect_tried (st : Stages c o lines g) (ho : o.trim = .unset)
    (htrim : g.dialect.trim = true) :
    st.dialect.trim = false ∧ g.dialect = { st.dialect with trim := true } := by
  have hdialect := st.read.1
  rw [ho, Override.getD] at hdialect
  rw [hdialect]
  refine ⟨rfl, ?_⟩
  rw [← htrim]

/-- Trimming that was settled beforehand, or left off, or that meets no quote right after a space,
changes no warning. -/
theorem Stages.warnings_own (st : Stages c o lines g)
    (hown : split g.dialect true c.maxQuotedSize g.skipPlan.lines = some own)
    (h : o.trim ≠ .unset ∨ g.dialect.trim = false ∨
      ∀ line ∈ g.skipPlan.lines, g.dialect.QuoteApart line.text) :
    g.warnings = own.warnings := by
  rw [st.warned]
  by_cases hsettled : o.trim ≠ .unset ∨ g.dialect.trim = false
  · rw [st.dialect_settled hsettled, st.divided] at hown
    rw [Option.some.inj hown]
  · have hapart := (or_assoc.mpr h).resolve_left hsettled
    obtain ⟨ho, htrim⟩ : o.trim = .unset ∧ g.dialect.trim = true := by
      simpa using hsettled
    obtain ⟨hoff, hdialect⟩ := st.dialect_tried ho htrim
    rw [hdialect] at hapart hown
    have hplain : ∀ line ∈ g.skipPlan.lines, st.dialect.QuoteApart line.text :=
      fun line hline => ⟨(hapart line hline).solid, (hapart line hline).apart⟩
    rw [split_trimmed hoff true hplain, st.divided, Option.map_some, Option.some.injEq] at hown
    rw [← hown]

/-- A guess has the warnings of its own dialect just when the lines read as the settings trim them
(not at all where they do not say) have the same warnings. That is so where trimming was set, where it
was left off, and where no quote stands right after a space. -/
theorem warnings_of_own_dialect {settings : Value} {sample : List SampleItem}
    (h : ofSample c settings sample = .ok (some g)) :
    ∃ o own raw, Overrides.read settings = .ok o ∧
      split g.dialect true c.maxQuotedSize g.skipPlan.lines = some own ∧
      split { g.dialect with trim := o.trim.getD false } true c.maxQuotedSize g.skipPlan.lines =
        some raw ∧
      (g.warnings = own.warnings ↔ raw.warnings = own.warnings) ∧
      (o.trim ≠ .unset ∨ g.dialect.trim = false ∨
          (∀ line ∈ g.skipPlan.lines, g.dialect.QuoteApart line.text) →
        g.warnings = own.warnings) := by
  obtain ⟨o, hread, ⟨st⟩⟩ := stages_of_ofSample h
  obtain ⟨hdialect, -, own, hown, -⟩ := st.read
  refine ⟨o, own, st.division, hread, hown, ?_, ?_, st.warnings_own hown⟩
  · rw [← hdialect]
    exact st.divided
  · rw [st.warned]

/-- A number after a space turns trimming on; what stands after the quotes of the second line is
reported all the same. -/
theorem warnings_of_own_dialect_apart :
    ∃ g own, ofSample {} .null (plainSample [[' ', '1', ',', '"', 'a', '"'],
        [' ', '2', ',', '"', 'b', '"', 'x'], [' ', '3', ',', '"', 'c', '"']]) = .ok (some g) ∧
      g.dialect.trim = true ∧
      split g.dialect true 131072 g.skipPlan.lines = some own ∧
      g.warnings = own.warnings ∧ g.warnings.map (fun w => w.dropped.number) = [2] := by
  obtain ⟨g, hg, hfound⟩ : ∃ g, ofSample {} .null (plainSample [[' ', '1', ',', '"', 'a', '"'],
        [' ', '2', ',', '"', 'b', '"', 'x'], [' ', '3', ',', '"', 'c', '"']]) = .ok (some g) ∧
      decide (g.dialect = ⟨[','], some ['"'], some ['"'], none, true⟩ ∧
        g.warnings.map (fun w => w.dropped.number) = [2] ∧
        g.skipPlan.lines = [⟨1, [' ', '1', ',', '"', 'a', '"']⟩,
          ⟨2, [' ', '2', ',', '"', 'b', '"', 'x']⟩, ⟨3, [' ', '3', ',', '"', 'c', '"']⟩]) = true :=
    exists_of_made _ (by decide +kernel)
  obtain ⟨hdialect, hnumbers, hlines⟩ := of_decide_eq_true hfound
  have hapart : ∀ line ∈ g.skipPlan.lines, g.dialect.QuoteApart line.text := by
    rw [hdialect, hlines]
    simp [Dialect.quoteApart_iff, Dialect.quoteMark, Dialect.mark, Text.isSpace,
      List.infix_cons_iff]
  obtain ⟨o, own, raw, -, hown, -, -, hsame⟩ := warnings_of_own_dialect hg
  exact ⟨g, own, hg, by rw [hdialect], hown, hsame (.inr (.inr hapart)), hnumbers⟩

/-- Read with the trimming that was turned on, the third line is quoted and then goes on, so it is
dropped; as it stands it is bare, and nothing is reported. -/
theorem warnings_not_of_own_dialect :
    ∃ g own, ofSample {} .null (plainSample [[' ', '1', ',', '"', 'a', '"'],
        [' ', '2', ',', '"', 'b', '"'], [' ', '3', ',', ' ', '"', 'c', '"', 'x']]) =
          .ok (some g) ∧
      split g.dialect true 131072 g.skipPlan.lines = some own ∧ g.warnings = [] ∧
      own.warnings = [⟨⟨3, [' ', '3', ',', ' ', '"', 'c', '"', 'x']⟩, .strayCharacter 'x' '"', 3⟩] := by
  obtain ⟨g, hg, hfound⟩ : ∃ g, ofSample {} .null (plainSample [[' ', '1', ',', '"', 'a', '"'],
        [' ', '2', ',', '"', 'b', '"'], [' ', '3', ',', ' ', '"', 'c', '"', 'x']]) =
          .ok (some g) ∧
      decide (g.warnings = [] ∧
        (split g.dialect true 131072 g.skipPlan.lines).map Division.warnings =
          some [⟨⟨3, [' ', '3', ',', ' ', '"', 'c', '"', 'x']⟩, .strayCharacter 'x' '"', 3⟩]) =
        true := exists_of_made _ (by decide +kernel)
  obtain ⟨hnone, hown⟩ := of_decide_eq_true hfound
  obtain ⟨own, hown, hwarnings⟩ := Option.map_eq_some_iff.mp hown
  exact ⟨g, own, hg, hown, hnone, hwarnings⟩

end Delimited.Guess
