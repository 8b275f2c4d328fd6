/- Binary floating-point numbers of 64 bits: their exact value, their shortest decimal text, and
their text with a fixed number of places. -/
import Delimited.Number.Decimal

namespace Delimited

structure Binary64 where
  bits : UInt64
  deriving DecidableEq

namespace Binary64

def ofFloat (x : Float) : Binary64 := ⟨x.toBits⟩

def toFloat (x : Binary64) : Float := Float.ofBits x.bits

/-- What a floating-point number stands for. -/
inductive Reading
  | notANumber
  | infinite (negative : Bool)
  /-- The number `mantissa * 2 ^ exponent`, or its opposite. -/
  | finite (negative : Bool) (mantissa : Nat) (exponent : Int)

/-- The least mantissa of a number that has all its digits. -/
def unit : Nat := 0x10000000000000

def read (x : Binary64) : Reading :=
  let n := x.bits.toNat
  let negative := n ≥ 0x8000000000000000
  let scale : Nat := n / unit % 0x800
  let fraction := n % unit
  if scale = 2047 then
    if fraction = 0 then .infinite negative else .notANumber
  else if scale = 0 then .finite negative fraction (-1074)
  else .finite negative (unit + fraction) (scale - 1075)

/-- A quotient rounded to the nearest whole number, a half to the even one. -/
def roundDiv (a b : Nat) : Nat :=
  let q := a / b
  let r := a % b
  if 2 * r < b then q else if b < 2 * r then q + 1 else q + q % 2

/-- A value times a power of two, as a quotient of whole numbers. -/
def scaled (n : Nat) (exponent : Int) : Nat × Nat :=
  if 0 ≤ exponent then (n <<< exponent.toNat, 1) else (n, 1 <<< (-exponent).toNat)

/-- The number nearest to `a / b`, of two as near the even one; infinite beyond all others. The
quotient is zero, or not so small that digits are lost. -/
def ofQuotient (a : Int) (b : Nat) : Binary64 :=
  let sign := if a < 0 then 0x8000000000000000 else 0
  let n := a.natAbs
  if n = 0 then ⟨0⟩
  else
    -- `2 ^ power ≤ n / b < 2 ^ (power + 1)`
    let power : Int :=
      let power : Int := n.log2 - b.log2
      let (up, down) := scaled 1 power
      if n * down < b * up then power - 1 else power
    let (up, down) := scaled 1 (52 - power)
    let bits := (power + 1022).toNat * unit + roundDiv (n * up) (b * down)
    ⟨(min bits 0x7FF0000000000000 + sign).toUInt64⟩

def signed (negative : Bool) (digits : Text) : Text := if negative then '-' :: digits else digits

def fixed (places : Nat) (x : Binary64) : Text :=
  match x.read with
  | .notANumber => "nan".toList
  | .infinite negative => signed negative "inf".toList
  | .finite negative mantissa exponent =>
    let (a, b) := scaled (mantissa * Nat.pow 10 places) exponent
    let digits := Decimal.ofNat (roundDiv a b)
    let digits := List.replicate (places + 1 - digits.length) '0' ++ digits
    let whole := digits.length - places
    signed negative (digits.take whole ++ '.' :: digits.drop whole)

/-- The multiple of a power of ten that lies in the interval of numbers rounded to
`mantissa * 2 ^ exponent`, if there is one; the nearer of two, and of two as near the even one. -/
def gridPoint? (mantissa : Nat) (exponent power : Int) : Option Nat :=
  let low := if mantissa = unit ∧ -1074 < exponent then 4 * mantissa - 1 else 4 * mantissa - 2
  let high := 4 * mantissa + 2
  -- a grid step is `a / b` quarters of a unit in the last place
  let (a, b) :=
    let (up, down) := scaled 1 (power - exponent + 2)
    if 0 ≤ power then (up * Nat.pow 5 power.toNat, down) else (up, down * Nat.pow 5 (-power).toNat)
  let inside (n : Nat) : Bool :=
    if mantissa % 2 = 0 then low * b ≤ n * a && n * a ≤ high * b
    else low * b < n * a && n * a < high * b
  let below := 4 * mantissa * b / a
  let above := below + 1
  match inside below, inside above with
  | true, true =>
    let short := 4 * mantissa * b - below * a
    let excess := above * a - 4 * mantissa * b
    some (if short < excess then below else if excess < short then above else below + below % 2)
  | true, false => some below
  | false, true => some above
  | false, false => none

/-- The coarsest grid with a point in the interval, tried from `10 ^ power` downwards. -/
def coarsest (mantissa : Nat) (exponent : Int) : (fuel : Nat) → (power : Int) → Nat × Int
  | 0, power => (0, power)
  | fuel + 1, power => match gridPoint? mantissa exponent power with
    | some n => (n, power)
    | none => coarsest mantissa exponent fuel (power - 1)

/-- The fewest decimal digits that read back as the number: positional from `10 ^ -4` to below
`10 ^ 16`, and with an exponent of at least two digits elsewhere. -/
def shortest (x : Binary64) : Text :=
  match x.read with
  | .notANumber => "nan".toList
  | .infinite negative => signed negative "inf".toList
  | .finite negative 0 _ => signed negative "0.0".toList
  | .finite negative mantissa exponent =>
    let (n, power) := coarsest mantissa exponent 640 309
    let digits := Decimal.ofNat n
    let point : Int := digits.length + power
    signed negative <|
      if -4 < point ∧ point ≤ 16 then
        if 0 ≤ power then digits ++ List.replicate power.toNat '0' ++ ['.', '0']
        else if 0 < point then digits.take point.toNat ++ '.' :: digits.drop point.toNat
        else '0' :: '.' :: List.replicate (-point).toNat '0' ++ digits
      else
        let shown := Decimal.ofNat (point - 1).natAbs
        digits.take 1 ++ (if digits.length = 1 then [] else '.' :: digits.drop 1) ++
          'e' :: (if point ≤ 0 then '-' else '+') ::
          (if shown.length = 1 then '0' :: shown else shown)

end Binary64

end Delimited
