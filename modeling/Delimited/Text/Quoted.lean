/- The form in which messages quote a text. -/
import Delimited.Text.Basic
import Delimited.Text.Printable

namespace Delimited.Text

/-- The lower-case digits of `n` in base sixteen, filled with zeros to `width` digits. -/
def hexadecimal (width n : Nat) : Text :=
  let digits := Nat.toDigits 16 n
  List.replicate (width - digits.length) '0' ++ digits

/-- Single quotes enclose a quoted text, unless it holds some of them and no double quote. -/
def enclosing (t : Text) : Char :=
  if t.contains '\'' && !t.contains '"' then '"' else '\''

/-- One code point between enclosing quotes `q`: what has no visible form is written by number,
in two, four or eight digits. -/
def escaped (q c : Char) : Text :=
  if c == q || c == '\\' then ['\\', c]
  else if c == '\t' then ['\\', 't']
  else if c == '\n' then ['\\', 'n']
  else if c == '\r' then ['\\', 'r']
  else if isPrintable c then [c]
  else if c.toNat < 0x100 then '\\' :: 'x' :: hexadecimal 2 c.toNat
  else if c.toNat < 0x10000 then '\\' :: 'u' :: hexadecimal 4 c.toNat
  else '\\' :: 'U' :: hexadecimal 8 c.toNat

def quoted (t : Text) : Text :=
  let q := enclosing t
  q :: t.flatMap (escaped q) ++ [q]

end Delimited.Text
