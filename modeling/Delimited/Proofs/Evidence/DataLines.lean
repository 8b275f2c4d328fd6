/- Lines that start as data. A marker that was found does not mark them, a marker that is set marks
them like any other line; so the two leave the same lines just when the marker starts none of them
(`dropComments_eq_unmarked_iff`). -/
import Delimited.Proofs.Text.Pattern
import Delimited.Evidence.Comment

namespace Delimited.Evidence

variable {delimiter marker : Text} {quote nullString : Option Text} {lines : List Line}

/-- The line starts with the quote, or its first field is the null string. -/
def StartsAsData (delimiter : Text) (quote nullString : Option Text) (line : Text) : Prop :=
  (∃ q ∈ quote, q ≠ [] ∧ q <+: line) ∨
    ∃ n ∈ nullString, n ++ delimiter <+: line ∨ line = n ∨ line = n ++ ['\n']

/-- No line that starts with the marker starts as data. -/
def MarksNoData (marker delimiter : Text) (quote nullString : Option Text) (lines : List Line) :
    Prop :=
  ∀ line ∈ lines, marker <+: line.text → ¬ StartsAsData delimiter quote nullString line.text

theorem isData_iff {line : Text} :
    isData delimiter quote nullString line = true ↔
      StartsAsData delimiter quote nullString line := by
  unfold isData StartsAsData
  rw [Bool.or_eq_true]
  apply or_congr
  · rcases quote with - | - | ⟨c, q⟩
    · simp
    · simp
    · simp [Pattern.occurs_literal_iff]
  · cases nullString with
    | none => simp
    | some n => simp [Pattern.occurs_field_iff]

theorem dropComments_eq_filter_unmarked :
    dropComments marker lines = (unmarked delimiter quote nullString marker lines).filter
      fun line => !Text.startsWith marker line.text := by
  rw [dropComments, unmarked, List.filter_filter]
  apply List.filter_congr
  intro line _
  cases Text.startsWith marker line.text <;> simp

/-- A marker leaves the same lines when it is set as when it was found, just when it starts no line
that starts as data. -/
theorem dropComments_eq_unmarked_iff :
    dropComments marker lines = unmarked delimiter quote nullString marker lines ↔
      MarksNoData marker delimiter quote nullString lines := by
  rw [dropComments_eq_filter_unmarked, List.filter_eq_self]
  apply forall_congr'
  intro line
  rw [unmarked, List.mem_filter, ← isData_iff, ← Text.startsWith_iff]
  cases Text.startsWith marker line.text <;> simp

end Delimited.Evidence
