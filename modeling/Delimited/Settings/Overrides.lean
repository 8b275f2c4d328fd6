/- Overrides: the settings that take the place of guesses. A setting that is present, even with no
value, is used as it is; for an absent one the guess is made. -/
import Delimited.Report
import Delimited.Settings.Value

namespace Delimited

inductive Override (α : Type)
  | unset
  | given (value : α)
  deriving DecidableEq

namespace Override

variable {α β : Type}

def getD (default : α) : Override α → α
  | unset => default
  | given value => value

def isGiven : Override α → Bool
  | unset => false
  | given _ => true

def map (f : α → β) : Override α → Override β
  | unset => unset
  | given value => given (f value)

end Override

inductive SettingsFault
  | noSections (found : Value)
  | sectionNotTable (found : Value)
  | typeNotText (found : Value)
  | notDelimiter (found : Value)
  | notMark (key : String) (found : Value)
  | notText (key : String) (emptyAllowed : Bool) (found : Value)
  | notFlag (key : String) (found : Value)

namespace SettingsFault

def entry (key : String) : Place := .key ("parser.".toList ++ key.toList)

def report : SettingsFault → Report
  | .noSections v =>
    ⟨.guess, '\'' :: v.kindName.toList ++ "' object has no attribute 'get'".toList, .unknown⟩
  | .sectionNotTable v =>
    ⟨.settings, "'parser' must be a mapping, got ".toList ++ v.kindName.toList ++ ['.'],
      .key "parser".toList⟩
  | .typeNotText v => ⟨.settings, "type must be a string, got ".toList ++ v.shown ++ ['.'],
      entry "type"⟩
  | .notDelimiter v =>
    ⟨.settings, "delimiter must be a non-empty string, got ".toList ++ v.shown ++ ['.'],
      entry "delimiter"⟩
  | .notMark key v =>
    ⟨.settings,
      key.toList ++ " must be a single character or null, got ".toList ++ v.shown ++ ['.'],
      entry key⟩
  | .notText key emptyAllowed v =>
    ⟨.settings,
      key.toList ++ (if emptyAllowed then " must be a string" else " must be a non-empty string").toList
        ++ " or null, got ".toList ++ v.shown ++ ['.'],
      entry key⟩
  | .notFlag key v =>
    ⟨.settings, key.toList ++ " must be true or false, got ".toList ++ v.shown ++ ['.'], entry key⟩

end SettingsFault

/-- The overrides that settings hold, and the section they come from. -/
structure Overrides where
  /-- The kind of reader that the section is meant for. -/
  type : Text := "csv".toList
  delimiter : Override Text := .unset
  quote : Override (Option Text) := .unset
  escape : Override (Option Text) := .unset
  nullString : Override (Option Text) := .unset
  commentMarker : Override (Option Text) := .unset
  trim : Override Bool := .unset
  allowExtraColumns : Override Bool := .unset
  allowOptionalColumns : Override Bool := .unset
  base : Table := []

namespace Overrides

/-- The section of the settings that overrides stand in. Settings that hold nothing, and a section
without a value, have no entries. -/
def parserSection (settings : Value) : Except SettingsFault Table :=
  if settings.isEmpty then .ok []
  else match settings with
    | .table sections => match Table.get? sections "parser".toList with
      | none | some .null => .ok []
      | some (.table entries) => .ok entries
      | some v => .error (.sectionNotTable v)
    | v => .error (.noSections v)

def typeOf (entries : Table) : Except SettingsFault Text :=
  match Table.get? entries "type".toList with
  | none => .ok "csv".toList
  | some (.text t) => .ok t
  | some v => .error (.typeNotText v)

def readerType (settings : Value) : Except SettingsFault Text := do
  typeOf (← parserSection settings)

def delimiterOf (entries : Table) : Except SettingsFault (Override Text) :=
  match Table.get? entries "delimiter".toList with
  | none => .ok .unset
  | some (.text (c :: t)) => .ok (.given (c :: t))
  | some v => .error (.notDelimiter v)

/-- A mark has at most one code point; an empty one is left to its user. -/
def markOf (entries : Table) (key : String) : Except SettingsFault (Override (Option Text)) :=
  match Table.get? entries key.toList with
  | none => .ok .unset
  | some .null => .ok (.given none)
  | some (.text []) => .ok (.given (some []))
  | some (.text [c]) => .ok (.given (some [c]))
  | some v => .error (.notMark key v)

def textOf (entries : Table) (key : String) (emptyAllowed : Bool) :
    Except SettingsFault (Override (Option Text)) :=
  match Table.get? entries key.toList with
  | none => .ok .unset
  | some .null => .ok (.given none)
  | some (.text t) =>
    if t.isEmpty && !emptyAllowed then .error (.notText key emptyAllowed (.text t))
    else .ok (.given (some t))
  | some v => .error (.notText key emptyAllowed v)

def flagOf (entries : Table) (key : String) : Except SettingsFault (Override Bool) :=
  match Table.get? entries key.toList with
  | none => .ok .unset
  | some (.boolean b) => .ok (.given b)
  | some v => .error (.notFlag key v)

def escapeOf (entries : Table) : Except SettingsFault (Override (Option Text)) :=
  return (← markOf entries "escape").map fun mark => if mark = some [] then none else mark

/-- Reads the overrides of settings. The first fault counts, in the order of these lines. -/
def read (settings : Value) : Except SettingsFault Overrides := do
  let base ← parserSection settings
  let type ← typeOf base
  let escape ← escapeOf base
  let delimiter ← delimiterOf base
  let quote ← markOf base "quote"
  let nullString ← textOf base "null_string" true
  let commentMarker ← textOf base "comment_line_marker" false
  let trim ← flagOf base "trim_if_not_quoted"
  let allowExtraColumns ← flagOf base "allow_extra_columns"
  let allowOptionalColumns ← flagOf base "allow_optional_columns"
  return { type, delimiter, quote, escape, nullString, commentMarker, trim, allowExtraColumns,
           allowOptionalColumns, base }

end Overrides

end Delimited
