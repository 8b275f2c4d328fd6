/- Settings documents written out, in the form in which they are read. -/
import Delimited.Settings.Document

namespace Delimited.Document

def writtenChar (c : Char) : Text :=
  if c = '"' ∨ c = '\\' then ['\\', c]
  else if c = '\n' then ['\\', 'n']
  else if Text.isPrintable c ∧ c.toNat < 0x10000 then [c]
  else if c.toNat < 0x10000 then '\\' :: 'u' :: Text.hexadecimal 4 c.toNat
  else [c]

def writtenText (t : Text) : Text := '"' :: t.flatMap writtenChar ++ ['"']

/-- A floating-point number always has a point. -/
def writtenReal (x : Binary64) : Text :=
  let t := x.shortest
  if t.contains '.' then t
  else t.takeWhile (· != 'e') ++ '.' :: '0' :: t.dropWhile (· != 'e')

mutual

def written : Value → Text
  | .null => "null".toList
  | .boolean true => "true".toList
  | .boolean false => "false".toList
  | .whole n => Decimal.ofInt n
  | .real x => writtenReal x
  | .text t => writtenText t
  | .list items => '[' :: writtenItems items ++ [']']
  | .table entries => '\x7b' :: writtenEntries entries ++ ['\x7d']

def writtenItems : List Value → Text
  | [] => []
  | [v] => written v
  | v :: rest => written v ++ ',' :: ' ' :: writtenItems rest

def writtenEntries : List (Text × Value) → Text
  | [] => []
  | [(k, v)] => writtenText k ++ ':' :: ' ' :: written v
  | (k, v) :: rest => writtenText k ++ ':' :: ' ' :: written v ++ ',' :: ' ' :: writtenEntries rest

end

end Delimited.Document
