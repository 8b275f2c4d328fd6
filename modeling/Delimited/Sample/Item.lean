/- The elements of a sample as a caller gives them. -/
import Delimited.Sample.Line
import Delimited.Settings.Value

namespace Delimited

/-- A numbered line, or a plain value that takes its number from its position. -/
inductive SampleItem
  | line (line : Line)
  | value (value : Value)

namespace SampleItem

def text : SampleItem → Text
  | .line l => l.text
  | .value v => v.plain

/-- The element as a line, at this position counted from zero. -/
def toLine (position : Nat) : SampleItem → Line
  | .line l => l
  | .value v => ⟨(position : Int) + 1, v.plain⟩

def lines (sample : List SampleItem) : List Line := sample.mapIdx toLine

theorem text_toLine (position : Nat) (item : SampleItem) :
    (item.toLine position).text = item.text := by cases item <;> rfl

/-- Numbering does not change a text. -/
theorem map_text_lines (sample : List SampleItem) :
    (lines sample).map Line.text = sample.map text := by
  apply List.ext_getElem
  · simp [lines]
  · intro i h₁ h₂
    simp [lines, text_toLine]

end SampleItem

end Delimited
