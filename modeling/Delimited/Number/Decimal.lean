/- Whole numbers in decimal digits. -/
import Delimited.Text.Basic

namespace Delimited.Decimal

def ofNat (n : Nat) : Text := Nat.toDigits 10 n

def ofInt : Int → Text
  | .ofNat n => ofNat n
  | .negSucc n => '-' :: ofNat (n + 1)

end Delimited.Decimal
