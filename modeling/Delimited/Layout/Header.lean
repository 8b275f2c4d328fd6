/- The header: a first row that names the columns. -/
import Delimited.Schema.ColumnType
import Delimited.Tunables

namespace Delimited.Layout

def valueLengths (rows : List (List (Option Text))) (i : Nat) : List Nat :=
  rows.filterMap fun row => (row[i]?.join).map List.length

/-- The first of these lengths stands out against very uniform others. -/
def standsOut (c : Tunables) : (lengths : List Nat) → Bool
  | [] | [_] => false
  | first :: body =>
    let body := body.map Int.ofNat
    if c.headerLengthVarianceMax < c.statistics.variance body then false
    else
      let mean := c.statistics.mean body
      if mean == 0.0 then 1 < first
      else c.headerLengthDeviationMin < (mean - first.toFloat).abs / mean

/-- In some column of the first row, the length of the first value stands out. -/
def headerByLength (c : Tunables) : (rows : List (List (Option Text))) → Bool
  | [] => false
  | first :: rows =>
    (List.range first.length).any fun i => standsOut c (valueLengths (first :: rows) i)

/-- The first row has types of its own, and textual ones only; or its values stand out by length. -/
def isHeader (c : Tunables) (rows : List (List (Option Text)))
    (firstTypes bodyTypes : List ColumnType) : Bool :=
  (firstTypes != bodyTypes && firstTypes.all ColumnType.isTextual) || headerByLength c rows

end Delimited.Layout
