/- The lines of a sample. -/
import Delimited.Text.Basic

namespace Delimited

/-- One line of a sample, without its terminator. The number only names the line in reports; it
need not be its position. -/
structure Line where
  number : Int
  text : Text
  deriving DecidableEq

end Delimited
