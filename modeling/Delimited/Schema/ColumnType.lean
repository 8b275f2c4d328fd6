/- The types of columns: the least type that takes in the type of every value. -/
import Delimited.Schema.Timestamp

namespace Delimited

inductive ColumnType
  | string | boolean | long | double
  /-- Points in time, all in the format of this text. -/
  | timestamp (format : Text)
  deriving DecidableEq

namespace ColumnType

def name : ColumnType → String
  | .string => "string"
  | .boolean => "boolean"
  | .long => "long"
  | .double => "double"
  | .timestamp _ => "timestamp"

def format? : ColumnType → Option Text
  | .timestamp format => some format
  | _ => none

/-- The types that a row of column names has. -/
def isTextual : ColumnType → Bool
  | .string | .boolean => true
  | _ => false

/-- The words for truth and falsehood, in lower case, capitalised, and in upper case. -/
def booleanWords : List Text :=
  ["true", "True", "TRUE", "yes", "Yes", "YES", "on", "On", "ON",
    "false", "False", "FALSE", "no", "No", "NO", "off", "Off", "OFF"].map String.toList

def afterSign : Text → Text
  | '+' :: t => t
  | '-' :: t => t
  | t => t

def isDigits (t : Text) : Bool := !t.isEmpty && t.all Text.isDigit

def isLong (t : Text) : Bool := isDigits (afterSign t)

def isExponent : Text → Bool
  | [] => true
  | c :: t => (c == 'e' || c == 'E') && isDigits (afterSign t)

/-- A number with an optional sign, an optional point and an optional exponent. -/
def isDouble (t : Text) : Bool :=
  let t := afterSign t
  let whole := t.takeWhile Text.isDigit
  match t.dropWhile Text.isDigit with
  | '.' :: rest =>
    !(whole.isEmpty && (rest.takeWhile Text.isDigit).isEmpty) &&
      isExponent (rest.dropWhile Text.isDigit)
  | rest => !whole.isEmpty && isExponent rest

/-- What the text itself tells of its type, by one test each, in order of preference. -/
def tests : List (Text → Option ColumnType) :=
  [ fun t => if t ∈ booleanWords then some .boolean else none,
    fun t => if isLong t then some .long else none,
    fun t => if isDouble t then some .double else none,
    fun t => (Timestamp.format? t).map fun format => .timestamp format.text ]

/-- The type of a text that is not empty: that of the first test it passes, or else `string`. -/
def ofText (t : Text) : ColumnType := (tests.findSome? fun test => test t).getD .string

/-- The type of a value; an absent or empty one has none. -/
def ofValue? : Option Text → Option ColumnType
  | none | some [] => none
  | some t => some (ofText t)

/-- The least type that takes in both. -/
def merge (a b : ColumnType) : ColumnType :=
  if a = b then a
  else match a, b with
    | .long, .double | .double, .long => .double
    | _, _ => .string

/-- The type of a column from its values; `string` when none of them has a type. -/
def ofValues (values : List (Option Text)) : ColumnType :=
  match values.filterMap ofValue? with
  | [] => .string
  | t :: ts => ts.foldl merge t

def width (rows : List (List (Option Text))) : Nat := rows.foldl (fun n row => max n row.length) 0

/-- The types of the columns that rows of any lengths fill. -/
def ofRows (rows : List (List (Option Text))) : List ColumnType :=
  (List.range (width rows)).map fun i => ofValues (rows.filterMap (·[i]?))

end ColumnType

end Delimited
