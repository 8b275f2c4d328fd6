/- Settings as they are read: scalars, lists, and tables that keep the order of their keys. -/
import Delimited.Number.Binary64
import Delimited.Text.Quoted

namespace Delimited

inductive Value
  | null
  | boolean (b : Bool)
  | whole (n : Int)
  | real (x : Binary64)
  | text (t : Text)
  | list (items : List Value)
  | table (entries : List (Text × Value))

/-- A table's keys, each with its value, in order. -/
abbrev Table := List (Text × Value)

namespace Table

def get? : (table : Table) → (key : Text) → Option Value
  | [], _ => none
  | (k, v) :: rest, key => if k = key then some v else get? rest key

/-- Sets the value of a key. A key that is there keeps its place; a new one comes last. -/
def set (key : Text) (value : Value) : Table → Table
  | [] => [(key, value)]
  | (k, v) :: rest => if k = key then (k, value) :: rest else (k, v) :: set key value rest

theorem get?_set (table : Table) (key other : Text) (value : Value) :
    get? (set key value table) other = if other = key then some value else get? table other := by
  fun_induction set key value table <;> grind [get?]

def keys (table : Table) : List Text := table.map Prod.fst

end Table

namespace Value

def kindName : Value → String
  | .null => "NoneType"
  | .boolean _ => "bool"
  | .whole _ => "int"
  | .real _ => "float"
  | .text _ => "str"
  | .list _ => "list"
  | .table _ => "dict"

mutual

/-- The form in which messages show a value, on one line. -/
def shown : Value → Text
  | .null => "None".toList
  | .boolean true => "True".toList
  | .boolean false => "False".toList
  | .whole n => Decimal.ofInt n
  | .real x => x.shortest
  | .text t => Text.quoted t
  | .list items => '[' :: shownItems items ++ [']']
  | .table entries => '\x7b' :: shownEntries entries ++ ['\x7d']

def shownItems : List Value → Text
  | [] => []
  | [v] => v.shown
  | v :: rest => v.shown ++ ',' :: ' ' :: shownItems rest

def shownEntries : List (Text × Value) → Text
  | [] => []
  | [(k, v)] => Text.quoted k ++ ':' :: ' ' :: v.shown
  | (k, v) :: rest => Text.quoted k ++ ':' :: ' ' :: v.shown ++ ',' :: ' ' :: shownEntries rest

end

/-- A plain text for a sample: a text as it is, any other value as messages show it. -/
def plain : Value → Text
  | .text t => t
  | v => v.shown

def isEmpty : Value → Bool
  | .null | .boolean false | .text [] | .list [] | .table [] => true
  | .whole n => n == 0
  | .real x => x.toFloat == 0.0
  | _ => false

end Value

end Delimited
