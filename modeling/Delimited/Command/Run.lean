/- The command: it takes a sample, makes the guess, and says what comes of it. -/
import Delimited.Command.Arguments
import Delimited.Fragment
import Delimited.Sample.Source
import Delimited.Settings.Document

namespace Delimited.Command

structure Surroundings where
  environment : Text → Option Text
  files : Files
  /-- The trouble with writing to a path. -/
  obstacle : (path : Text) → Option SystemFault
  input : Stream
  /-- What a text stands for as a settings document. -/
  document : (text : Text) → Except DocumentFault Value := Document.read
  /-- What is wrong with any document that starts with the text, which is found out before more of
  it is read. -/
  hopeless : (head : Text) → Option DocumentFault := fun _ => none
  statistics : Statistics Int := .ofWhole .pairwise

/-- Why the command stops without a result. -/
inductive Trouble
  | guess (fault : GuessFault)
  | sample (fault : SampleFault)
  | input (fault : ReadFault)
  | seedClosed (path : Text) (fault : OpenFault)
  | seedUnread (path : Text) (fault : ReadFault)
  | seedBroken (path : Text) (fault : DocumentFault)
  | seedNotTable (path : Text)
  | environment (fault : NumberFault)
  | output (path : Text) (fault : OpenFault)

inductive Outcome
  | refused (why : Refused)
  | stopped (trouble : Trouble)
  | nothing (source : Text)
  | printed (fragment : Value)
  | written (path : Text) (fragment : Value) (source : Text)
  | previewed (text : Text)

def cannotLoad (path message : Text) : Report :=
  ⟨.settings, "Cannot load seed config ".toList ++ path ++ ": ".toList ++ message,
    .key "config".toList⟩

/-- Troubles with the settings or the sample are reported in one line; others end the command where
they arise. -/
def Trouble.report? : Trouble → Option Report
  | .guess (.settings (.noSections _)) => none
  | .guess (.settings fault) => some fault.report
  | .sample fault => fault.report?
  | .seedClosed path (.system fault) =>
    some (cannotLoad path (OpenFault.message path (.system fault)))
  | .seedUnread path (.stopped (.system fault)) => some (cannotLoad path fault.message)
  | .seedBroken path .malformed => some (cannotLoad path "no document".toList)
  | .seedNotTable path =>
    some ⟨.settings, "Seed config ".toList ++ path ++ " must be a mapping.".toList,
      .key "config".toList⟩
  | _ => none

namespace Outcome

/-- The exit code, unless the command ends where a trouble arises. -/
def exitCode? : Outcome → Option Nat
  | .refused .help => some 0
  | .refused .misused => some 2
  | .stopped trouble => trouble.report?.map fun _ => 2
  | .nothing _ => some 1
  | .printed _ | .written _ _ _ | .previewed _ => some 0

def errorText : Outcome → Text
  | .stopped trouble => match trouble.report? with
    | some report => "ERROR: ".toList ++ report.text ++ ['\n']
    | none => []
  | .nothing source => "✗ ".toList ++ source ++ " — nothing could be guessed\n".toList
  | _ => []

/-- The text on standard output, but for a printed fragment. -/
def outputText : Outcome → Text
  | .written path _ source => "✓ ".toList ++ source ++ " — written to ".toList ++ path ++ ['\n']
  | .previewed text => text
  | _ => []

end Outcome

/-- The limits given as options stand before those of the environment; zero gives none. -/
def tunables (s : Surroundings) (a : Arguments) : Except Trouble Tunables := do
  let c ← (Tunables.ofEnvironment s.environment).mapError .environment
  let limit := fun (given : Option Int) (default : Int) =>
    if given.getD 0 = 0 then default else given.getD 0
  return { c with
    maxSampleLines := limit a.maxLines c.maxSampleLines
    maxSampleChars := limit a.maxChars c.maxSampleChars
    statistics := s.statistics }

/-- A document is read in pieces, until none can start as the text does. -/
def seedManner (s : Surroundings) : Manner := ⟨false, fun head => if (s.hopeless head).isSome then 0 else 4096⟩

def seed (s : Surroundings) (a : Arguments) : Except Trouble Value :=
  match a.config with
  | none | some [] => .ok (.table [])
  | some path =>
    match s.files.opened path with
    | .error fault => .error (.seedClosed path fault)
    | .ok file => match file.read (seedManner s) with
      | .error fault => .error (.seedUnread path fault)
      | .ok text => match s.hopeless text with
        | some fault => .error (.seedBroken path fault)
        | none => match s.document text with
          | .error fault => .error (.seedBroken path fault)
          | .ok .null => .ok (.table [])
          | .ok (.table entries) => .ok (.table entries)
          | .ok _ => .error (.seedNotTable path)

/-- The sample that the source names: a file, or standard input for a dash. -/
def sample (s : Surroundings) (a : Arguments) (c : Tunables) : Except Trouble (List Line) :=
  if a.source = ['-'] then (Sample.ofStream c (Sample.inputManner c) s.input).mapError .input
  else (Sample.ofFile c s.files a.source).mapError .sample

def joined (parts : List Text) : Text := " | ".toList.intercalate parts ++ ['\n']

/-- The columns, and the first records below the header. -/
def preview (c : Tunables) (g : Guess) (rows : Int) : Except GuessFault Text := do
  let table ← Guess.divide c g.dialect true g.skipPlan.lines
  let records := if g.header then table.records.drop 1 else table.records
  let columns := g.columns.map fun column => column.name ++ ':' :: column.type.name.toList
  let shown := (Stretch.upTo rows records).map fun record =>
    joined (record.values.map fun value => value.getD "<null>".toList)
  return joined columns ++ shown.flatten

def Surroundings.obstacleAt (s : Surroundings) (path : Text) : Option OpenFault :=
  if '\x00' ∈ path then some .nul else (s.obstacle path).map .system

/-- What is made of a guess: it is printed, written to a path or previewed. -/
def present (s : Surroundings) (a : Arguments) (c : Tunables) (g : Guess) : Except Trouble Outcome :=
  match a.action with
  | .preview rows => return .previewed (← (preview c g rows).mapError .guess)
  | .guess none | .guess (some []) => return .printed g.fragment
  | .guess (some path) =>
    match s.obstacleAt (Path.normal path) with
    | some fault => .error (.output (Path.normal path) fault)
    | none => return .written (Path.normal path) g.fragment a.source

def carryOut (s : Surroundings) (a : Arguments) : Except Trouble Outcome := do
  let c ← tunables s a
  let settings ← seed s a
  let lines ← sample s a c
  match ← (Guess.ofLines c settings lines).mapError .guess with
  | none => return .nothing a.source
  | some g => present s a c g

def run (s : Surroundings) (arguments : List Text) : Outcome :=
  match Arguments.read arguments with
  | .error why => .refused why
  | .ok a => match carryOut s a with
    | .ok outcome => outcome
    | .error trouble => .stopped trouble

end Delimited.Command
