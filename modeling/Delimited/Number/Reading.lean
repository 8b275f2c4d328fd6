/- Numbers read from text: digits of any script, single underscores between digits, white space
around the number. -/
import Delimited.Text.Blank
import Delimited.Text.Digit

namespace Delimited.Numeral

/-- White space around a number; the information separators are none here. -/
def isMargin (c : Char) : Bool := Text.isBlank c && !(0x1C ≤ c.toNat && c.toNat ≤ 0x1F)

/-- The values of the digits at the start of a text, single underscores between them, and what
follows. -/
def digits : Text → List Nat × Text
  | [] => ([], [])
  | [c] => match Text.digit? c with
    | some v => ([v], [])
    | none => ([], [c])
  | c :: c' :: t => match Text.digit? c with
    | none => ([], c :: c' :: t)
    | some v =>
      if c' = '_' then
        match t with
        | [] => ([v], [c'])
        | c'' :: t' =>
          if Text.isDigit c'' then (v :: (digits (c'' :: t')).1, (digits (c'' :: t')).2)
          else ([v], c' :: c'' :: t')
      else (v :: (digits (c' :: t)).1, (digits (c' :: t)).2)

def value (ds : List Nat) : Nat := ds.foldl (fun n d => 10 * n + d) 0

def sign : Text → Bool × Text
  | '-' :: t => (true, t)
  | '+' :: t => (false, t)
  | t => (false, t)

/-- Why a text is not read as an integer. -/
inductive Misreading
  | invalid
  /-- There are this many digits, more than are read. -/
  | tooLong (count : Nat)
  deriving DecidableEq

/-- The most digits that an integer is read from. -/
def maxDigits : Nat := 4300

/-- An integer with its sign. The digits are counted before what follows them is looked at, but for
an underscore. -/
def integer (t : Text) : Except Misreading Int :=
  let (negative, t) := sign (Text.stripBy isMargin t)
  match digits t with
  | ([], _) | (_, '_' :: _) => .error .invalid
  | (ds, rest) =>
    if maxDigits < ds.length then .error (.tooLong ds.length)
    else if rest.isEmpty then .ok (if negative then -(value ds : Int) else value ds)
    else .error .invalid

/-- The number `n * 10 ^ power`, rounded once. Powers beyond every finite number are cut short. -/
def scale (n : Nat) (power : Int) : Float :=
  let size : Int := (Nat.toDigits 10 n).length
  if n = 0 then 0.0
  else if power + size < -400 then 0.0
  else if 400 < power + size then 1.0 / 0.0
  else Float.ofScientific n (power < 0) power.natAbs

/-- An exponent mark with its digits at the end of a text, or nothing at all. -/
def exponent? : Text → Option Int
  | [] => some 0
  | c :: t =>
    if c = 'e' ∨ c = 'E' then
      let (negative, t) := sign t
      match digits t with
      | ([], _) | (_, _ :: _) => none
      | (ds, []) => some (if negative then -(value ds : Int) else value ds)
    else none

/-- Decimal digits with an optional point among them, then an optional exponent. -/
def decimal? (t : Text) : Option Float :=
  let (whole, rest) := digits t
  let (places, rest) := match rest with
    | '.' :: rest => digits rest
    | rest => ([], rest)
  if whole.isEmpty && places.isEmpty then none
  else (exponent? rest).map fun power => scale (value (whole ++ places)) (power - places.length)

/-- A word in any mixture of the plain upper and lower case. -/
def isWord (word : String) (t : Text) : Bool := t.map Char.toLower == word.toList

/-- A floating-point number; the words for infinity and for what is no number count too. -/
def real? (t : Text) : Option Float :=
  let (negative, t) := sign (Text.stripBy isMargin t)
  let found :=
    if isWord "inf" t || isWord "infinity" t then some (1.0 / 0.0)
    else if isWord "nan" t then some (0.0 / 0.0)
    else decimal? t
  found.map fun x => if negative then -x else x

end Delimited.Numeral
