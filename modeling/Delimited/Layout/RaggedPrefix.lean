/- The ragged lines before a table: records with fewer columns than its body. -/
import Delimited.Sample.Stretch
import Delimited.Tunables

namespace Delimited.Layout

/-- The record at `i` is not narrower than any of those that follow it within the horizon. -/
def startsBody (c : Tunables) (widths : List Nat) (i : Nat) : Bool :=
  match widths[i]? with
  | none => false
  | some width =>
    (Stretch.between (i + 1) (i + 1 + c.noSkipDetectLines) widths).all (· ≤ width)

/-- How many leading records are skipped: those before the first that can start the body, if it is
found soon enough, and none otherwise. -/
def raggedPrefix (c : Tunables) (widths : List Nat) : Nat :=
  let places := min c.maxSkipLines (widths.length - 1)
  ((List.range places.toNat).find? (startsBody c widths)).getD 0

end Delimited.Layout
