/- Settings documents: values written with braces, brackets, and texts in double quotes. -/
import Delimited.Number.Reading
import Delimited.Settings.Value
import Delimited.Tunables

namespace Delimited

/-- Why a text gives no settings. -/
inductive DocumentFault
  | malformed
  /-- Something in a well-formed document stands for no value. -/
  | meaningless (why : Text)
  deriving DecidableEq

namespace Document

/-- The space between the parts of a document. -/
def isGap (c : Char) : Bool := c == ' ' || c == '\t' || c == '\n' || c == '\r'

def skipGap (t : Text) : Text := t.dropWhile isGap

def hexDigit? (c : Char) : Option Nat :=
  if '0' ≤ c ∧ c ≤ '9' then some (c.toNat - 0x30)
  else if 'a' ≤ c ∧ c ≤ 'f' then some (c.toNat - 0x61 + 10)
  else if 'A' ≤ c ∧ c ≤ 'F' then some (c.toNat - 0x41 + 10)
  else none

def unit? : Text → Option (Nat × Text)
  | a :: b :: c :: d :: rest => do
    let a ← hexDigit? a
    let b ← hexDigit? b
    let c ← hexDigit? c
    let d ← hexDigit? d
    return (((a * 16 + b) * 16 + c) * 16 + d, rest)
  | _ => none

/-- The code point of an escape that gives it in one unit or in a pair of them. -/
def numbered? (t : Text) : Option (Char × Text) := do
  let (high, rest) ← unit? t
  if 0xD800 ≤ high ∧ high < 0xDC00 then
    match rest with
    | '\\' :: 'u' :: rest =>
      let (low, rest) ← unit? rest
      if 0xDC00 ≤ low ∧ low < 0xE000 then
        return (Char.ofNat (0x10000 + (high - 0xD800) * 0x400 + (low - 0xDC00)), rest)
      else none
    | _ => none
  else if 0xDC00 ≤ high ∧ high < 0xE000 then none
  else return (Char.ofNat high, rest)

/-- The code point that a letter stands for after a backslash. -/
def lettered? (c : Char) : Option Char :=
  match c with
  | '"' | '\\' | '/' => some c
  | 'b' => some '\x08'
  | 'f' => some '\x0C'
  | 'n' => some '\n'
  | 'r' => some '\r'
  | 't' => some '\t'
  | _ => none

def quotedText? : (fuel : Nat) → Text → Option (Text × Text)
  | 0, _ | _, [] => none
  | fuel + 1, c :: rest =>
    if c = '"' then some ([], rest)
    else if c = '\\' then do
      let (c, rest) ← match rest with
        | [] => none
        | 'u' :: rest => numbered? rest
        | c :: rest => (lettered? c).map (·, rest)
      let (t, rest) ← quotedText? fuel rest
      return (c :: t, rest)
    else if c.toNat < 0x20 then none
    else do
      let (t, rest) ← quotedText? fuel rest
      return (c :: t, rest)

structure Numeral where
  negative : Bool
  whole : Text
  places : Option Text
  /-- The exponent's sign, if it is written, and its digits. -/
  exponent : Option (Option Char × Text)

/-- The whole part has no leading zero, and digits stand on both sides of a point. -/
def numeral? (t : Text) : Option (Numeral × Text) := do
  let (negative, t) := match t with
    | '-' :: t => (true, t)
    | t => (false, t)
  let whole := t.takeWhile Text.isPlainDigit
  let t := t.dropWhile Text.isPlainDigit
  if whole.isEmpty || (whole.length > 1 && whole.head? == some '0') then none
  let (places, t) ← match t with
    | '.' :: t =>
      let places := t.takeWhile Text.isPlainDigit
      if places.isEmpty then none else some (some places, t.dropWhile Text.isPlainDigit)
    | t => some (none, t)
  let (exponent, t) ← match t with
    | 'e' :: t | 'E' :: t =>
      let (sign, t) := match t with
        | '+' :: t => (some '+', t)
        | '-' :: t => (some '-', t)
        | t => (none, t)
      let digits := t.takeWhile Text.isPlainDigit
      if digits.isEmpty then none else some (some (sign, digits), t.dropWhile Text.isPlainDigit)
    | t => some (none, t)
  return (⟨negative, whole, places, exponent⟩, t)

namespace Numeral

def digitValue (t : Text) : Nat := Delimited.Numeral.value (t.filterMap Text.digit?)

def toWhole (n : Numeral) : Int := if n.negative then -(digitValue n.whole : Int) else digitValue n.whole

def toReal (n : Numeral) : Binary64 :=
  let places := n.places.getD []
  let power : Int := match n.exponent with
    | some (some '-', digits) => -(digitValue digits : Int)
    | some (_, digits) => digitValue digits
    | none => 0
  let x := Delimited.Numeral.scale (digitValue (n.whole ++ places)) (power - places.length)
  .ofFloat (if n.negative then -x else x)

/-- Every number with a point or an exponent is a floating-point number. -/
def toValue (n : Numeral) : Value :=
  if n.places.isNone && n.exponent.isNone then .whole n.toWhole else .real n.toReal

end Numeral

section Values

-- How a number is taken; its own text is given too.
variable (number : Numeral → Text → Value)

mutual

def value? : (fuel : Nat) → Text → Option (Value × Text)
  | 0, _ => none
  | fuel + 1, t => match skipGap t with
    | '"' :: rest => (quotedText? (rest.length + 1) rest).map fun (t, rest) => (.text t, rest)
    | '[' :: rest => match skipGap rest with
      | ']' :: rest => some (.list [], rest)
      | rest => (items? fuel rest).map fun (items, rest) => (.list items, rest)
    | '\x7b' :: rest => match skipGap rest with
      | '\x7d' :: rest => some (.table [], rest)
      | rest => (entries? fuel [] rest).map fun (entries, rest) => (.table entries, rest)
    | rest => match Text.after? "true".toList rest, Text.after? "false".toList rest,
        Text.after? "null".toList rest with
      | some rest, _, _ => some (.boolean true, rest)
      | _, some rest, _ => some (.boolean false, rest)
      | _, _, some rest => some (.null, rest)
      | none, none, none => (numeral? rest).map fun (n, after) =>
        (number n (rest.take (rest.length - after.length)), after)

def items? : (fuel : Nat) → Text → Option (List Value × Text)
  | 0, _ => none
  | fuel + 1, t => do
    let (v, rest) ← value? fuel t
    match skipGap rest with
    | ']' :: rest => return ([v], rest)
    | ',' :: rest =>
      let (items, rest) ← items? fuel rest
      return (v :: items, rest)
    | _ => none

/-- The entries of a table. Where a key comes again, its last value counts. -/
def entries? : (fuel : Nat) → Table → Text → Option (Table × Text)
  | 0, _, _ => none
  | fuel + 1, found, t => match skipGap t with
    | '"' :: rest => do
      let (key, rest) ← quotedText? (rest.length + 1) rest
      match skipGap rest with
      | ':' :: rest =>
        let (v, rest) ← value? fuel rest
        let found := Table.set key v found
        match skipGap rest with
        | '\x7d' :: rest => return (found, rest)
        | ',' :: rest => entries? fuel found rest
        | _ => none
      | _ => none
    | _ => none

end

def readWith (t : Text) : Option Value :=
  match value? number (2 * t.length + 2) t with
  | some (v, rest) => if (skipGap rest).isEmpty then some v else none
  | none => none

end Values

/-- A settings document writes a floating-point number with a point, and its exponent with a sign;
any other number with an exponent is a text. -/
def settingsNumber (n : Numeral) (written : Text) : Value :=
  match n.places, n.exponent with
  | none, none => .whole n.toWhole
  | some _, none | some _, some (some _, _) => .real n.toReal
  | _, _ => .text written

mutual

/-- The number of digits of the first whole number that has more than are read. -/
def overlong? : Value → Option Nat
  | .whole n =>
    let count := (Nat.toDigits 10 n.natAbs).length
    if Delimited.Numeral.maxDigits < count then some count else none
  | .list items => overlongIn? items
  | .table entries => overlongAmong? entries
  | _ => none

def overlongIn? : List Value → Option Nat
  | [] => none
  | v :: rest => (overlong? v).or (overlongIn? rest)

def overlongAmong? : List (Text × Value) → Option Nat
  | [] => none
  | (_, v) :: rest => (overlong? v).or (overlongAmong? rest)

end

/-- Reads a settings document. An empty one holds no value. -/
def read (t : Text) : Except DocumentFault Value :=
  let t := Text.withoutMark t
  if (skipGap t).isEmpty then .ok .null
  else match readWith settingsNumber t with
    | none => .error .malformed
    | some v => match overlong? v with
      | some count => .error (.meaningless (NumberFault.tooLong count).message)
      | none => .ok v

end Document

end Delimited
