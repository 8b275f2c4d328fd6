/- The delimiter: it stands on every line, and about equally often on each. -/
import Delimited.Evidence.Strongest
import Delimited.Tunables

namespace Delimited.Evidence

inductive DelimiterFault
  | noCandidate
  /-- The deviation of a candidate's counts is zero and no floor replaces it. -/
  | noDeviation
  deriving DecidableEq

/-- All occurrences of a candidate, divided by the deviation of their number per line; zero for
one that never occurs. -/
def delimiterWeight (c : Tunables) (lines : List Text) (candidate : Text) :
    Except DelimiterFault Float :=
  let counts := lines.map (Text.occurrences candidate)
  let total := counts.foldl (· + ·) 0
  if total = 0 then .ok 0.0
  else
    let d := c.statistics.deviation c.deviationFloor c.deviationEpsilon (counts.map Int.ofNat)
    if d == 0.0 then .error .noDeviation else .ok (total.toFloat / d)

/-- The candidate of greatest weight, if that exceeds the threshold; else the first one, as of a
file of one column. -/
def delimiter (c : Tunables) (lines : List Text) : Except DelimiterFault Text := do
  let weighed ← c.delimiters.mapM fun candidate =>
    return (candidate, ← delimiterWeight c lines candidate)
  match strongest Prod.snd 0.0 weighed, c.delimiters with
  | some ((candidate, weight), _), first :: _ =>
    return if c.delimiterMinWeight < weight then candidate else first
  | none, first :: _ => return first
  | _, [] => .error .noCandidate

end Delimited.Evidence
