/- A bounded sample of a text: its first lines within a number of code points. -/
import Delimited.Sample.Line
import Delimited.Sample.Stretch

namespace Delimited.Sample

/-- The pieces between line breaks. A carriage return, a line feed, and the two together each break
a line. -/
def pieces : Text → List Text
  | [] => [[]]
  | '\r' :: '\n' :: t => [] :: pieces t
  | '\r' :: t => [] :: pieces t
  | '\n' :: t => [] :: pieces t
  | c :: t => match pieces t with
    | [] => [[c]]
    | piece :: others => (c :: piece) :: others

/-- The lines of a text; a break at its end starts no further line. -/
def allLines (t : Text) : List Text :=
  if (pieces t).getLast? = some [] then (pieces t).dropLast else pieces t

/-- The lines of the first `maxChars` code points, at most `maxLines`. Where the text goes on after
them, the last line may be cut and is left out, unless it is the only one. -/
def bound (maxChars maxLines : Int) (t : Text) : List Text :=
  let head := Stretch.upTo maxChars t
  let lines :=
    if maxChars < t.length then
      if 1 < (pieces head).length then (pieces head).dropLast else pieces head
    else allLines head
  Stretch.upTo maxLines lines

def numbered (texts : List Text) : List Line :=
  texts.mapIdx fun i t => ⟨(i : Int) + 1, t⟩

/-- A read can be asked for this number of code points. -/
def Askable (n : Int) : Prop := Int64.minValue.toInt ≤ n ∧ n ≤ Int64.maxValue.toInt

instance (n : Int) : Decidable (Askable n) := inferInstanceAs (Decidable (_ ∧ _))

/-- The code points that are read of a text to bound it at `maxChars`: one more, which tells
whether the text goes on. A negative number of them is no bound. -/
def readAhead (maxChars : Int) (t : Text) : Text :=
  if maxChars + 1 < 0 then t else t.take (maxChars + 1).toNat

def ofText (maxChars maxLines : Int) (t : Text) : List Line :=
  numbered (bound maxChars maxLines (readAhead maxChars t))

end Delimited.Sample
