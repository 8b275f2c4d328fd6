/- Text from bytes and back. A code point is spelt by one byte, or by more after a first one that
tells how many. Bytes that end within a code point are no fault as long as others can complete it,
and wait for them. -/
import Delimited.Text.Basic

namespace Delimited

abbrev Bytes := List UInt8

namespace Utf8

def encode (t : Text) : Bytes := t.flatMap String.utf8EncodeChar

/-- A byte that stands after the first one of a code point. -/
def isTail (b : UInt8) : Bool := 0x80 ≤ b.toNat && b.toNat ≤ 0xBF

/-- After some first bytes the second one is bounded further, so that no code point has two
spellings and none is a surrogate or too large. -/
def isSecond (a b : UInt8) : Bool :=
  isTail b && decide ((a.toNat = 0xE0 → 0xA0 ≤ b.toNat) ∧ (a.toNat = 0xF0 → 0x90 ≤ b.toNat) ∧
    (a.toNat = 0xED → b.toNat ≤ 0x9F) ∧ (a.toNat = 0xF4 → b.toNat ≤ 0x8F))

/-- The code point of the digits to the base 64 that its bytes give. -/
def point (first : Nat) (tails : Bytes) : Char :=
  Char.ofNat (tails.foldl (fun n b => 64 * n + b.toNat % 64) first)

def push (c : Char) : Option (Text × Bytes) → Option (Text × Bytes) :=
  Option.map fun (t, pending) => (c :: t, pending)

/-- The text that bytes hold, and what is there of a further code point; nothing if no text starts
with these bytes. -/
def decode : Bytes → Option (Text × Bytes)
  | [] => some ([], [])
  | a :: t =>
    if a.toNat ≤ 0x7F then push (point a.toNat []) (decode t)
    else if 0xC2 ≤ a.toNat ∧ a.toNat ≤ 0xDF then
      match t with
      | [] => some ([], [a])
      | b :: t => if isSecond a b then push (point (a.toNat % 32) [b]) (decode t) else none
    else if 0xE0 ≤ a.toNat ∧ a.toNat ≤ 0xEF then
      match t with
      | [] => some ([], [a])
      | [b] => if isSecond a b then some ([], [a, b]) else none
      | b :: c :: t =>
        if isSecond a b ∧ isTail c then push (point (a.toNat % 16) [b, c]) (decode t) else none
    else if 0xF0 ≤ a.toNat ∧ a.toNat ≤ 0xF4 then
      match t with
      | [] => some ([], [a])
      | [b] => if isSecond a b then some ([], [a, b]) else none
      | [b, c] => if isSecond a b ∧ isTail c then some ([], [a, b, c]) else none
      | b :: c :: d :: t =>
        if isSecond a b ∧ isTail c ∧ isTail d then
          push (point (a.toNat % 8) [b, c, d]) (decode t)
        else none
    else none

/-- The bytes of the byte order mark. -/
def mark : Bytes := encode ['\ufeff']

end Utf8

end Delimited
