/- Points in time: the formats in which they are written, and the values that each format admits. -/
import Delimited.Text.Digit

namespace Delimited

namespace Timestamp

inductive Part
  | year | month | day | hour | minute | second
  /-- The English name of a month, in three letters. -/
  | monthName
  /-- A point before one to six digits. -/
  | fraction
  /-- The offset from universal time: `Z`, or hours and minutes, with a colon or without. -/
  | zone
  /-- The offset from universal time in four digits. -/
  | plainZone
  | literal (c : Char)
  deriving DecidableEq

def Part.directive : Part → Text
  | .year => "%Y".toList
  | .month => "%m".toList
  | .day => "%d".toList
  | .hour => "%H".toList
  | .minute => "%M".toList
  | .second => "%S".toList
  | .monthName => "%b".toList
  | .fraction => ".%f".toList
  | .zone | .plainZone => "%z".toList
  | .literal c => [c]

abbrev Format := List Part

def Format.text (f : Format) : Text := f.flatMap Part.directive

def isUpper (c : Char) : Bool := 'A' ≤ c && c ≤ 'Z'

def isLower (c : Char) : Bool := 'a' ≤ c && c ≤ 'z'

def isPlusMinus (c : Char) : Bool := c == '+' || c == '-'

def afterDigits : (n : Nat) → Text → Option Text
  | 0, t => some t
  | _ + 1, [] => none
  | n + 1, c :: t => if Text.isDigit c then afterDigits n t else none

/-- What follows a part, by its shape alone. -/
def Part.after? : Part → Text → Option Text
  | .year, t => afterDigits 4 t
  | .month, t | .day, t | .hour, t | .minute, t | .second, t => afterDigits 2 t
  | .monthName, a :: b :: c :: t => if isUpper a && isLower b && isLower c then some t else none
  | .monthName, _ => none
  | .fraction, '.' :: t =>
    let n := (t.takeWhile Text.isDigit).length
    if 1 ≤ n ∧ n ≤ 6 then some (t.drop n) else none
  | .fraction, _ => none
  | .zone, 'Z' :: t => some t
  | .zone, c :: t =>
    if isPlusMinus c then
      match afterDigits 2 t with
      | some (':' :: t) => afterDigits 2 t
      | some t => afterDigits 2 t
      | none => none
    else none
  | .zone, [] => none
  | .plainZone, c :: t => if isPlusMinus c then afterDigits 4 t else none
  | .plainZone, [] => none
  | .literal c, c' :: t => if c = c' then some t else none
  | .literal _, [] => none

def Format.fits : Format → Text → Bool
  | [], t => t.isEmpty
  | part :: f, t => match part.after? t with
    | some t => Format.fits f t
    | none => false

/-- What a text says of a date; a format gives each of the three. -/
structure Date where
  year : Nat := 0
  month : Nat := 0
  day : Nat := 0
  deriving DecidableEq

/-- Every fourth year is a leap year, but of the centuries only every fourth. -/
def isLeapYear (year : Nat) : Bool :=
  year % 4 == 0 && (year % 100 != 0 || year % 400 == 0)

def daysInMonth (year month : Nat) : Nat :=
  match month with
  | 2 => if isLeapYear year then 29 else 28
  | 4 | 6 | 9 | 11 => 30
  | _ => 31

/-- A day of the calendar, of the years 1 to 9999. -/
def Date.isValid (d : Date) : Bool :=
  1 ≤ d.year && d.year ≤ 9999 && 1 ≤ d.month && d.month ≤ 12 &&
    1 ≤ d.day && d.day ≤ daysInMonth d.year d.month

/-- A digit that must be written in the plain form. -/
def plainDigit? (c : Char) : Option Nat :=
  if Text.isPlainDigit c then Text.digit? c else none

/-- A number of two digits whose first digit is plain. Its second digit may be of any script, but
after the first digits in `strict` it must be plain too. -/
def twoDigits? (strict : List Nat) : Text → Option (Nat × Text)
  | a :: b :: t => do
    let tens ← plainDigit? a
    let ones ← if tens ∈ strict then plainDigit? b else Text.digit? b
    return (10 * tens + ones, t)
  | _ => none

/-- A number of `n` digits of any script. -/
def number? : (n : Nat) → Text → Option (Nat × Text)
  | 0, t => some (0, t)
  | _ + 1, [] => none
  | n + 1, c :: t => do
    let d ← Text.digit? c
    let (rest, t) ← number? n t
    return (d * 10 ^ n + rest, t)

def monthNames : List String :=
  ["Jan", "Feb", "Mar", "Apr", "May", "Jun", "Jul", "Aug", "Sep", "Oct", "Nov", "Dec"]

/-- An offset of less than a day. -/
def offset? (t : Text) : Option Text := do
  let (hours, t) ← number? 2 t
  let t := match t with
    | ':' :: t => t
    | t => t
  let (minutes, t) ← twoDigits? [] t
  if hours ≤ 23 ∧ minutes ≤ 59 then some t else none

/-- Reads one part, within its range, into a date. -/
def Part.read? (part : Part) (d : Date) (t : Text) : Option (Date × Text) :=
  match part, t with
  | .year, t => (number? 4 t).map fun (n, t) => ({ d with year := n }, t)
  | .month, t => do
    let (n, t) ← twoDigits? [0, 1] t
    if 1 ≤ n ∧ n ≤ 12 then some ({ d with month := n }, t) else none
  | .day, t => do
    let (n, t) ← twoDigits? [0, 3] t
    if 1 ≤ n ∧ n ≤ 31 then some ({ d with day := n }, t) else none
  | .hour, t => do
    let (n, t) ← twoDigits? [2] t
    if n ≤ 23 then some (d, t) else none
  | .minute, t | .second, t => do
    let (n, t) ← twoDigits? [] t
    if n ≤ 59 then some (d, t) else none
  | .monthName, a :: b :: c :: t =>
    (monthNames.findIdx? (·.toList == [a, b, c])).map fun i => ({ d with month := i + 1 }, t)
  | .monthName, _ => none
  | .fraction, '.' :: t =>
    let n := (t.takeWhile Text.isPlainDigit).length
    if 1 ≤ n ∧ n ≤ 6 then some (d, t.drop n) else none
  | .fraction, _ => none
  | .zone, 'Z' :: t => some (d, t)
  | .zone, _ :: t | .plainZone, _ :: t => (offset? t).map (d, ·)
  | .zone, [] | .plainZone, [] => none
  | .literal _, _ :: t => some (d, t)
  | .literal _, [] => none

def Format.read? : Format → Date → Text → Option Date
  | [], d, t => if t.isEmpty then some d else none
  | part :: f, d, t => do
    let (d, t) ← part.read? d t
    Format.read? f d t

/-- The text names a point in time by this format. -/
def Format.accepts (f : Format) (t : Text) : Bool := (f.read? {} t).any Date.isValid

def clock : Format := [.hour, .literal ':', .minute, .literal ':', .second]

def dashedDate : Format := [.year, .literal '-', .month, .literal '-', .day]

def slashedDate : Format := [.year, .literal '/', .month, .literal '/', .day]

def formats : List Format :=
  [ dashedDate ++ .literal 'T' :: clock ++ [.fraction, .zone],
    dashedDate ++ .literal 'T' :: clock ++ [.zone],
    dashedDate ++ .literal 'T' :: clock ++ [.fraction],
    dashedDate ++ .literal 'T' :: clock,
    dashedDate ++ .literal ' ' :: clock ++ [.fraction, .literal ' ', .zone],
    dashedDate ++ .literal ' ' :: clock ++ [.literal ' ', .zone],
    dashedDate ++ .literal ' ' :: clock ++ [.fraction],
    dashedDate ++ .literal ' ' :: clock,
    dashedDate,
    slashedDate ++ .literal ' ' :: clock,
    slashedDate,
    [.day, .literal '/', .monthName, .literal '/', .year, .literal ':'] ++ clock ++
      [.literal ' ', .plainZone] ]

/-- The first of some formats whose shape a text has and that accepts it. -/
def formatAmong? (accepts : Format → Text → Bool) (formats : List Format) (t : Text) :
    Option Format :=
  formats.find? fun f => f.fits t && accepts f t

def format? : Text → Option Format := formatAmong? Format.accepts formats

end Timestamp

end Delimited
