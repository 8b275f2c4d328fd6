/- The guess: from a sample and its settings to a dialect, the lines that hold the table, and the
names and types of its columns. -/
import Delimited.Evidence.Comment
import Delimited.Evidence.Delimiter
import Delimited.Evidence.Escape
import Delimited.Evidence.NullString
import Delimited.Evidence.Quote
import Delimited.Layout.Header
import Delimited.Layout.RaggedPrefix
import Delimited.Record.Split
import Delimited.Sample.Item
import Delimited.Settings.Overrides

namespace Delimited

inductive GuessFault
  | settings (fault : SettingsFault)
  | delimiter (fault : Evidence.DelimiterFault)
  | quote (fault : Evidence.QuoteFault)
  /-- An empty delimiter was chosen, and meets a text. -/
  | emptyDelimiter

structure Column where
  name : Text
  type : ColumnType
  deriving DecidableEq

/-- What is left out of a sample before its table is read. -/
structure SkipPlan where
  /-- The ragged lines at the start. -/
  skipped : Nat
  commentMarker : Option Text
  lines : List Line
  deriving DecidableEq

structure Guess where
  dialect : Dialect
  /-- Without quotes and without an override, nothing is said about the escape. -/
  escapeResolved : Bool
  skipPlan : SkipPlan
  /-- The first record names the columns. -/
  header : Bool
  columns : List Column
  allowExtraColumns : Bool
  allowOptionalColumns : Bool
  warnings : List Warning
  /-- The section of the settings that the guess extends. -/
  base : Table

namespace Guess

/-- The lines that a reader must skip: the ragged ones and the header. -/
def skipHeaderLines (g : Guess) : Nat := g.skipPlan.skipped + if g.header then 1 else 0

def divide (c : Tunables) (d : Dialect) (skipEmpty : Bool) (lines : List Line) :
    Except GuessFault Division :=
  match split d skipEmpty c.maxQuotedSize lines with
  | some s => .ok s
  | none => .error .emptyDelimiter

def choose {α : Type} (o : Override α) (guess : Except GuessFault α) : Except GuessFault α :=
  match o with
  | .given value => .ok value
  | .unset => guess

def chooseDelimiter (c : Tunables) (o : Overrides) (texts : List Text) : Except GuessFault Text :=
  choose o.delimiter ((Evidence.delimiter c texts).mapError .delimiter)

/-- Chooses the quote; an empty one stands for the double quote. -/
def chooseQuote (c : Tunables) (o : Overrides) (texts : List Text) (delimiter : Text) :
    Except GuessFault (Option Text) := do
  match ← choose o.quote ((Evidence.quote c texts delimiter).mapError .quote) with
  | some [] => return some ['"']
  | quote => return quote

/-- Chooses the escape, and tells whether anything is known about it. -/
def chooseEscape (c : Tunables) (o : Overrides) (texts : List Text) (delimiter : Text)
    (quote : Option Text) : Option Text × Bool :=
  match o.escape, quote with
  | .given escape, _ => (escape, true)
  | .unset, some quote => (Evidence.escape c texts delimiter quote, true)
  | .unset, none => (none, false)

/-- Chooses the dialect from the texts of all lines, and tells whether the escape is known. -/
def chooseDialect (c : Tunables) (o : Overrides) (texts : List Text) :
    Except GuessFault (Dialect × Bool) := do
  let delimiter ← chooseDelimiter c o texts
  let quote ← chooseQuote c o texts delimiter
  let (escape, escapeResolved) := chooseEscape c o texts delimiter quote
  let nullString := o.nullString.getD (Evidence.nullString c texts delimiter)
  return ({ delimiter, quote, escape, nullString, trim := o.trim.getD false }, escapeResolved)

/-- Leaves out the ragged lines, whose number is found with empty lines kept, and then the
comments among the lines after them. -/
def planSkip (c : Tunables) (o : Overrides) (d : Dialect) (lines : List Line) :
    Except GuessFault SkipPlan := do
  let all ← divide c d false lines
  let skipped := Layout.raggedPrefix c (all.records.map List.length)
  let lines := lines.drop skipped
  match o.commentMarker with
  | .given none => return ⟨skipped, none, lines⟩
  | .given (some marker) => return ⟨skipped, some marker, Evidence.dropComments marker lines⟩
  | .unset =>
    let (marker, lines) := Evidence.commentMarker c d.delimiter d.quote d.nullString lines
    return ⟨skipped, marker, lines⟩

/-- Trims where that changes the types of the rows from `bodyStart` on. -/
def tuneTrim (c : Tunables) (plan : SkipPlan) (d : Dialect) (types : List ColumnType)
    (bodyStart : Nat) : Except GuessFault (Dialect × List ColumnType) := do
  let trimmed ← divide c { d with trim := true } true plan.lines
  let trimmedTypes := ColumnType.ofRows (trimmed.rows.drop bodyStart)
  if trimmedTypes != types then return ({ d with trim := true }, trimmedTypes)
  else return ({ d with trim := false }, types)

def chooseTrim (c : Tunables) (o : Overrides) (plan : SkipPlan) (d : Dialect)
    (types : List ColumnType) (bodyStart : Nat) : Except GuessFault (Dialect × List ColumnType) :=
  match o.trim with
  | .given _ => return (d, types)
  | .unset => tuneTrim c plan d types bodyStart

/-- What the rows of the table say: the settled dialect, whether there is a header, and the types
of the columns. -/
def readTable (c : Tunables) (o : Overrides) (plan : SkipPlan) (d : Dialect)
    (rows : List (List (Option Text))) : Except GuessFault (Dialect × Bool × List ColumnType) :=
  match rows with
  | [] => return (d, false, [])
  | [row] => do
    let (d, types) ← chooseTrim c o plan d (ColumnType.ofRows [row]) 0
    return (d, false, types)
  | first :: body => do
    let (d, types) ← chooseTrim c o plan d (ColumnType.ofRows body) 1
    return (d, Layout.isHeader c (first :: body) (ColumnType.ofRows [first]) types, types)

/-- The names of the columns: the values of the header without white space around them, or else
numbered names. -/
def columnNames (header : Bool) (firstRow : List (Option Text)) (count : Nat) :
    List (Option Text) :=
  if header then firstRow.map (Option.map Text.strip)
  else (List.range count).map fun i => some ('c' :: Decimal.ofNat i)

/-- Pairs names with types; a column without a name is left out. -/
def namedColumns (names : List (Option Text)) (types : List ColumnType) : List Column :=
  (names.zip types).filterMap fun (name, type) => name.map (⟨·, type⟩)

/-- Makes the guess with overrides that were read. There is none without records or columns. -/
def make (c : Tunables) (o : Overrides) (lines : List Line) :
    Except GuessFault (Option Guess) := do
  let (d, escapeResolved) ← chooseDialect c o (lines.map Line.text)
  let plan ← planSkip c o d lines
  let final ← divide c d true plan.lines
  match final.rows with
  | [] => return none
  | first :: body =>
    let (d, header, types) ← readTable c o plan d (first :: body)
    if types.isEmpty then return none
    else return some {
      dialect := d
      escapeResolved
      skipPlan := plan
      header
      columns := namedColumns (columnNames header first types.length) types
      allowExtraColumns := o.allowExtraColumns.getD false
      allowOptionalColumns := o.allowOptionalColumns.getD false
      warnings := final.warnings
      base := o.base }

/-- Guesses from settings and lines. Settings for another kind of reader are not looked into. -/
def ofLines (c : Tunables) (settings : Value) (lines : List Line) :
    Except GuessFault (Option Guess) := do
  let type ← (Overrides.readerType settings).mapError .settings
  if type != "csv".toList then return none
  else make c (← (Overrides.read settings).mapError .settings) lines

def ofSample (c : Tunables) (settings : Value) (sample : List SampleItem) :
    Except GuessFault (Option Guess) :=
  ofLines c settings (SampleItem.lines sample)

end Guess

end Delimited
