/- Sources of samples: a file, or lines that are at hand. A source is opened before its lines are
taken. -/
import Delimited.Report
import Delimited.Sample.Bound
import Delimited.Sample.Item
import Delimited.Sample.Stream
import Delimited.Tunables

namespace Delimited

/-- Why a path cannot be opened. -/
inductive OpenFault
  | system (fault : SystemFault)
  /-- There is a NUL in the path. The system is not even asked. -/
  | nul
  deriving DecidableEq

def OpenFault.message (path : Text) : OpenFault → Text
  | .system fault => fault.message ++ ": ".toList ++ Text.quoted path
  | .nul => "embedded null byte".toList

/-- What can be known of files: what is read from a path. -/
abbrev Files := (path : Text) → Except SystemFault Stream

def Files.opened (files : Files) (path : Text) : Except OpenFault Stream :=
  if '\x00' ∈ path then .error .nul else (files path).mapError .system

namespace Path

def parts : Text → List Text
  | [] => [[]]
  | c :: t =>
    if c = '/' then [] :: parts t
    else match parts t with
      | [] => [[c]]
      | part :: others => (c :: part) :: others

/-- The path without empty parts and parts that stay in place; a dot if nothing else is left. -/
def normal (path : Text) : Text :=
  let kept := (parts path).filter fun part => part ≠ [] ∧ part ≠ ['.']
  let root : Text :=
    if Text.startsWith "///".toList path then ['/']
    else if Text.startsWith "//".toList path then ['/', '/']
    else if Text.startsWith "/".toList path then ['/'] else []
  match root ++ ['/'].intercalate kept with
  | [] => ['.']
  | path => path

end Path

inductive SampleFault
  | cannotOpen (path : Text) (fault : OpenFault)
  | unread (path : Text) (fault : ReadFault)
  deriving DecidableEq

/-- Troubles of the system and bytes that are no text are reported; others end in their own
errors. -/
def SampleFault.report? : SampleFault → Option Report
  | .cannotOpen path (.system fault) =>
    some ⟨.sample, "Cannot open ".toList ++ path ++ ": ".toList ++
      OpenFault.message path (.system fault), .source path⟩
  | .unread path .undecodable =>
    some ⟨.sample, "Sample of ".toList ++ path ++ " is not valid UTF-8: ".toList ++
      ReadFault.undecodable.message, .source path⟩
  | .unread path (.stopped (.system fault)) =>
    some ⟨.sample, "Cannot open ".toList ++ path ++ ": ".toList ++ fault.message, .source path⟩
  | .cannotOpen _ .nul | .unread _ .unaskable | .unread _ (.stopped .memory) => none

namespace Sample

/-- How many code points a sample still wants when it has so many: one more than its bound. A
negative number of them in all is no bound. -/
def lacking (c : Tunables) (found : Nat) : Nat :=
  if c.maxSampleChars + 1 < 0 then 1 else (c.maxSampleChars + 1).toNat - found

/-- How much of the text of a file is at hand: a carriage return at its end is held back until it is
known what follows. -/
def atHand (t : Text) : Nat := if t.getLast? = some '\r' then t.length - 1 else t.length

def fileManner (c : Tunables) : Manner := ⟨true, fun t => lacking c (atHand t)⟩

def inputManner (c : Tunables) : Manner := ⟨false, fun t => lacking c t.length⟩

/-- The sample of what can be read. -/
def ofStream (c : Tunables) (m : Manner) (s : Stream) : Except ReadFault (List Line) :=
  if Askable (c.maxSampleChars + 1) then
    (s.read m).map (ofText c.maxSampleChars c.maxSampleLines)
  else .error .unaskable

def ofFile (c : Tunables) (files : Files) (path : Text) : Except SampleFault (List Line) :=
  let path := Path.normal path
  match files.opened path with
  | .error fault => .error (.cannotOpen path fault)
  | .ok file => (ofStream c (fileManner c) file).mapError (.unread path)

end Sample

inductive Origin
  | file (path : Text)
  | items (items : List SampleItem)

/-- A source, and its sample while it is open. -/
structure Source where
  origin : Origin
  sample : Option (List Line) := none

/-- The lines of a source were asked for before it was opened. -/
structure NotOpen where
  origin : Origin

def NotOpen.message (fault : NotOpen) : Text :=
  (match fault.origin with
    | .file _ => "TextSampleSource.open() must be called before lines()."
    | .items _ => "StaticSampleSource.open() must be called before lines().").toList

namespace Source

/-- Takes the sample. A source that cannot be opened stays as it was. -/
def opened (c : Tunables) (files : Files) (s : Source) : Except SampleFault Source :=
  match s.origin with
  | .file path => return { s with sample := some (← Sample.ofFile c files path) }
  | .items items => return { s with sample := some (SampleItem.lines items) }

def lines (s : Source) : Except NotOpen (List Line) :=
  match s.sample with
  | some sample => .ok sample
  | none => .error ⟨s.origin⟩

def closed (s : Source) : Source := { s with sample := none }

end Source

end Delimited
