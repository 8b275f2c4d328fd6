/- What can be wrong where a column is read. -/
import Delimited.Number.Decimal
import Delimited.Report
import Delimited.Text.Quoted

namespace Delimited

inductive Fault
  | recordEnded
  | openQuote
  /-- Something stands between a closing quote and the next delimiter. -/
  | strayCharacter (found quote : Char)
  | oversized (limit : Int)
  deriving DecidableEq

namespace Fault

def family : Fault → Family
  | .recordEnded | .openQuote => .recordEnd
  | .strayCharacter _ _ => .malformed
  | .oversized _ => .oversized

def message : Fault → Text
  | .recordEnded => "Too few columns".toList
  | .openQuote => "Unexpected end of input inside a quoted value".toList
  | .strayCharacter found quote =>
    "Unexpected extra character ".toList ++ Text.quoted [found] ++
      " after a value quoted by ".toList ++ Text.quoted [quote]
  | .oversized limit =>
    "The size of the quoted value exceeds the limit size (".toList ++ Decimal.ofInt limit ++ [')']

def report (f : Fault) (number : Int) : Report := ⟨f.family, f.message, .line number⟩

end Fault

end Delimited
