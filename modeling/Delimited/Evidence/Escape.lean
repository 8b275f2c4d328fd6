/- The escape: it stands right before a delimiter or a quote. -/
import Delimited.Evidence.Strongest
import Delimited.Text.Pattern
import Delimited.Tunables

namespace Delimited.Evidence

open Pattern

/-- How often a candidate stands before a delimiter or a quote. -/
def escapeCount (lines : List Text) (delimiter quote candidate : Text) : Nat :=
  countAll (both (literal candidate) (either (literal delimiter) (literal quote))) lines

/-- The candidate found most often. Without any, a double quote escapes itself, and no other quote
is escaped. -/
def escape (c : Tunables) (lines : List Text) (delimiter quote : Text) : Option Text :=
  match strongest (escapeCount lines delimiter quote) 0 (c.escapesFor quote) with
  | some (candidate, _) => some candidate
  | none => if quote = ['"'] then some ['"'] else none

end Delimited.Evidence
