/- The null string: it is a whole field. -/
import Delimited.Evidence.Quote

namespace Delimited.Evidence

open Pattern

/-- How often a candidate fills a field. The delimiter between two fields can bound only one of
two such fields. -/
def nullStringCount (lines : List Text) (delimiter candidate : Text) : Nat :=
  countAll (both (fieldStart delimiter) (both (literal candidate) (fieldEnd delimiter))) lines

def nullString (c : Tunables) (lines : List Text) (delimiter : Text) : Option Text :=
  (strongest (nullStringCount lines delimiter) 0 c.nullStrings).map Prod.fst

end Delimited.Evidence
