/- The dialect of a delimited file: the marks that divide it into records and fields. -/
import Delimited.Text.Basic

namespace Delimited

/-- What a reader needs to know to divide lines into fields. -/
structure Dialect where
  delimiter : Text
  /-- Encloses a field; no field is enclosed without it. -/
  quote : Option Text := some ['"']
  /-- Makes the quote or itself literal inside an enclosed field. -/
  escape : Option Text := none
  /-- A bare field of this text has no value. -/
  nullString : Option Text := none
  /-- Spaces and tabs around a bare field are not part of it. -/
  trim : Bool := false
  deriving DecidableEq

namespace Dialect

/-- A mark stands for one code point of a line; a longer or empty mark is never met. -/
def mark : Option Text → Option Char
  | some [c] => some c
  | _ => none

def quoteMark (d : Dialect) : Option Char := mark d.quote

def escapeMark (d : Dialect) : Option Char := mark d.escape

theorem mark_eq_some_iff {t : Option Text} {c : Char} : mark t = some c ↔ t = some [c] := by
  constructor
  · intro h
    match t with
    | none | some [] | some (_ :: _ :: _) => simp [mark] at h
    | some [a] => exact congrArg (fun a => some [a]) (Option.some.inj h)
  · rintro rfl
    rfl

end Dialect

end Delimited
