/- The arguments of the command: an action, the source it works on, and options. -/
import Delimited.Number.Reading

namespace Delimited.Command

inductive Action
  | guess (out : Option Text)
  | preview (rows : Int)
  deriving DecidableEq

structure Arguments where
  action : Action
  source : Text
  config : Option Text := none
  maxLines : Option Int := none
  maxChars : Option Int := none
  verbose : Bool := false
  deriving DecidableEq

/-- Why there is nothing to be done. -/
inductive Refused
  | misused
  | help
  deriving DecidableEq

/-- The options; each takes a value, but for the first two. -/
inductive Flag
  | help | verbose | source | config | maxLines | maxChars | out | rows
  deriving DecidableEq

def Flag.name : Flag → Text
  | .help => "--help".toList
  | .verbose => "--verbose".toList
  | .source => "--source".toList
  | .config => "--config".toList
  | .maxLines => "--max-lines".toList
  | .maxChars => "--max-chars".toList
  | .out => "--out".toList
  | .rows => "--rows".toList

def Flag.letter? : Flag → Option Char
  | .help => some 'h'
  | .verbose => some 'v'
  | _ => none

/-- What an argument is taken for. -/
inductive Kind
  /-- No option: an action or a value. -/
  | plain
  /-- An option, with the value or the letters that are joined to it. -/
  | flag (flag : Flag) (long : Bool) (joined : Option Text)
  | unknown
  | ambiguous
  /-- The mark after which no options come. -/
  | separator
  deriving DecidableEq

/-- A negative number, which is no option. -/
def isNegativeNumber : Text → Bool
  | '-' :: t =>
    let t := if t.getLast? = some '\n' then t.dropLast else t
    let digits := fun (t : Text) => !t.isEmpty && t.all Text.isDigit
    digits t || (match t.dropWhile Text.isDigit with
      | '.' :: t => digits t
      | _ => false)
  | _ => false

def splitEquals : Text → Option (Text × Text)
  | [] => none
  | c :: t =>
    if c = '=' then some ([], t) else (splitEquals t).map fun (name, value) => (c :: name, value)

/-- What an argument is taken for among these options. -/
def kindOf (flags : List Flag) (argument : Text) : Kind :=
  match argument with
  | '-' :: c :: t =>
    if argument = ['-', '-'] then .separator
    else
      let (name, value) := match splitEquals argument with
        | some (name, value) => (name, some value)
        | none => (argument, none)
      let begun : List Kind :=
        if c = '-' then
          match flags.find? (·.name == name) with
          | some f => [.flag f true value]
          | none =>
            (flags.filter fun f => Text.startsWith name f.name).map (.flag · true value)
        else (flags.filter fun f => f.letter? = some c).map
          (.flag · false (if t.isEmpty then none else some t))
      match begun with
      | [kind] => kind
      | _ :: _ :: _ => .ambiguous
      | [] =>
        if isNegativeNumber argument || argument.contains ' ' then .plain else .unknown
  | _ => .plain

/-- The arguments with their kinds. After the separator all are plain. -/
def kindsOf (flags : List Flag) : List Text → List (Kind × Text)
  | [] => []
  | a :: rest => match kindOf flags a with
    | .separator => (.separator, a) :: rest.map (.plain, ·)
    | kind => (kind, a) :: kindsOf flags rest

/-- Options without values that are joined in one argument, by their letters. A letter of no option
ends them, and makes the rest a stray argument. -/
def letters (flags : List Flag) (flag : Flag) : Text → Except Refused (List Flag × Bool)
  | [] => .ok ([flag], false)
  | c :: t =>
    if c = '-' ∨ c = '=' then .error .misused
    else match flags.find? fun g => g.letter? = some c with
      | some g => (letters flags g t).map fun (asked, stray) => (flag :: asked, stray)
      | none => .ok ([flag], true)

/-- The options without values that an argument gives, and whether a stray argument is left. -/
def switches (flags : List Flag) (flag : Flag) (long : Bool) :
    (joined : Option Text) → Except Refused (List Flag × Bool)
  | none => .ok ([flag], false)
  | some t => if long then .error .misused else letters flags flag t

structure Given where
  source : Option Text := none
  config : Option Text := none
  maxLines : Option Int := none
  maxChars : Option Int := none
  out : Option Text := none
  rows : Int := 10

def number (value : Text) : Except Refused Int :=
  match Numeral.integer value with
  | .ok n => .ok n
  | .error _ => .error .misused

/-- Sets an option; a later value takes the place of an earlier one. -/
def Given.set (g : Given) (value : Text) : Flag → Except Refused Given
  | .source => return { g with source := some value }
  | .config => return { g with config := some value }
  | .maxLines => return { g with maxLines := some (← number value) }
  | .maxChars => return { g with maxChars := some (← number value) }
  | .out => return { g with out := some value }
  | .rows => return { g with rows := ← number value }
  | .help | .verbose => .error .misused

/-- Reads the options after the action. Any other argument is refused at the end, so that a call
for help is heard first. -/
def readOptions (flags : List Flag) : (stray : Bool) → Given → List (Kind × Text) →
    Except Refused Given
  | stray, g, [] => if stray then .error .misused else .ok g
  | stray, g, (.flag .help long joined, _) :: rest => do
    let (asked, left) ← switches flags .help long joined
    if .help ∈ asked then .error .help else readOptions flags (stray || left) g rest
  | stray, g, (.flag f _ (some value), _) :: rest => do
    readOptions flags stray (← g.set value f) rest
  | stray, g, (.flag f _ none, _) :: (.plain, value) :: rest => do
    readOptions flags stray (← g.set value f) rest
  | _, _, (.flag _ _ none, _) :: _ => .error .misused
  | _, g, (.plain, _) :: rest | _, g, (.unknown, _) :: rest | _, g, (.separator, _) :: rest
  | _, g, (.ambiguous, _) :: rest => readOptions flags true g rest

def optionsOf (preview : Bool) : List Flag :=
  [.help, .source, .config, .maxLines, .maxChars, if preview then .rows else .out]

def readAction (stray verbose : Bool) (action : Text) (rest : List Text) :
    Except Refused Arguments := do
  if action ≠ "guess".toList ∧ action ≠ "preview".toList then .error .misused
  let preview := action == "preview".toList
  let flags := optionsOf preview
  let kinds := kindsOf flags rest
  if kinds.any (·.1 == .ambiguous) then .error .misused
  let g ← readOptions flags stray {} kinds
  match g.source with
  | none => .error .misused
  | some source => return {
      action := if preview then .preview g.rows else .guess g.out
      source
      config := g.config
      maxLines := g.maxLines
      maxChars := g.maxChars
      verbose }

def mainFlags : List Flag := [.help, .verbose]

def readMain : (stray verbose : Bool) → List Text → Except Refused Arguments
  | _, _, [] => .error .misused
  | stray, verbose, a :: rest => match kindOf mainFlags a with
    | .plain => readAction stray verbose a rest
    | .flag f long joined => do
      let (asked, left) ← switches mainFlags f long joined
      if .help ∈ asked then .error .help else readMain (stray || left) true rest
    | .unknown => readMain true verbose rest
    | .ambiguous | .separator => .error .misused

def Arguments.read (arguments : List Text) : Except Refused Arguments :=
  if (kindsOf mainFlags arguments).any (·.1 == .ambiguous) then .error .misused
  else readMain false false arguments

end Delimited.Command
