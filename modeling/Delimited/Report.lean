/- Reports: what went wrong, in which family of troubles, and where. -/
import Delimited.Number.Decimal
import Delimited.Text.Basic

namespace Delimited

inductive Family
  | guess | settings | sample | record | recordEnd | malformed | oversized
  deriving DecidableEq

/-- Every family a trouble belongs to, from the narrowest to the widest. -/
def Family.lineage : Family → List Family
  | .guess => [.guess]
  | .settings => [.settings, .guess]
  | .sample => [.sample, .guess]
  | .record => [.record, .guess]
  | .recordEnd => [.recordEnd, .record, .guess]
  | .malformed => [.malformed, .record, .guess]
  | .oversized => [.oversized, .malformed, .record, .guess]

inductive Place
  | unknown
  | key (name : Text)
  | source (path : Text)
  | line (number : Int)
  deriving DecidableEq

/-- The end of a report that names its place. An empty key or path names none. -/
def Place.suffix : Place → Text
  | .unknown | .key [] | .source [] => []
  | .key name => " | key=".toList ++ name
  | .source path => " | source=".toList ++ path
  | .line number => " | line=".toList ++ Decimal.ofInt number

structure Report where
  family : Family
  message : Text
  place : Place := .unknown
  deriving DecidableEq

def Report.text (r : Report) : Text := r.message ++ r.place.suffix

end Delimited
