/- The comment marker: whole lines start with it, and none of them is data. -/
import Delimited.Evidence.Strongest
import Delimited.Sample.Line
import Delimited.Text.Pattern
import Delimited.Tunables

namespace Delimited.Evidence

open Pattern

/-- A line that starts with the quote, or with the null string as its first field, is data. -/
def isData (delimiter : Text) (quote nullString : Option Text) (line : Text) : Bool :=
  let quoted := match quote with
    | none | some [] => false
    | some q => (both start (literal q)).occurs line
  let null := match nullString with
    | none => false
    | some n => (both start (both (literal n) (either (literal delimiter) finish))).occurs line
  quoted || null

/-- The lines that a marker does not mark, data among them. -/
def unmarked (delimiter : Text) (quote nullString : Option Text) (marker : Text)
    (lines : List Line) : List Line :=
  lines.filter fun line =>
    !(Text.startsWith marker line.text && !isData delimiter quote nullString line.text)

/-- The marker of most lines, and the lines it does not mark; no marker if none marks a line. -/
def commentMarker (c : Tunables) (delimiter : Text) (quote nullString : Option Text)
    (lines : List Line) : Option Text × List Line :=
  let kept := fun marker => unmarked delimiter quote nullString marker lines
  match strongest (fun marker => lines.length - (kept marker).length) 0 c.commentMarkers with
  | some (marker, _) => (some marker, kept marker)
  | none => (none, lines)

def dropComments (marker : Text) (lines : List Line) : List Line :=
  lines.filter fun line => !Text.startsWith marker line.text

end Delimited.Evidence
