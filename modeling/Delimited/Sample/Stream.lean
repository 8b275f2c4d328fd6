/- Bytes that are read in portions, and the text that is made of them. They are read only as far as
text is wanted: what stands after the last portion is never looked at. -/
import Delimited.Number.Decimal
import Delimited.Text.Utf8

namespace Delimited

/-- An error of the operating system, by its number and its words. -/
structure SystemFault where
  number : Nat
  words : Text
  deriving DecidableEq

namespace SystemFault

def missing : SystemFault := ⟨2, "No such file or directory".toList⟩

def notDirectory : SystemFault := ⟨20, "Not a directory".toList⟩

def isDirectory : SystemFault := ⟨21, "Is a directory".toList⟩

def message (fault : SystemFault) : Text :=
  "[Errno ".toList ++ Decimal.ofNat fault.number ++ "] ".toList ++ fault.words

end SystemFault

/-- Why no portion is handed over. -/
inductive Stoppage
  | system (fault : SystemFault)
  /-- There is no memory for a portion so large. -/
  | memory
  deriving DecidableEq

/-- Why bytes are not read as text. -/
inductive ReadFault
  /-- The bytes are no text. -/
  | undecodable
  /-- No read can be asked for so many code points. -/
  | unaskable
  | stopped (why : Stoppage)
  deriving DecidableEq

def ReadFault.message : ReadFault → Text
  | .undecodable => "undecodable bytes".toList
  | .unaskable => "cannot fit 'int' into an index-sized integer".toList
  | .stopped (.system fault) => fault.message
  | .stopped .memory => []

/-- Bytes that can be read, and how far one read gets. -/
structure Stream where
  bytes : Bytes
  /-- The size of the portion that is read at an offset while this many code points are wanted; at
  least one byte is read. Files hand over all that is asked for, while others hand over what they
  have. Nothing is assumed of it. -/
  portion : (offset wanted : Nat) → Except Stoppage Nat := fun _ wanted => .ok (max 8192 wanted)

/-- How text is taken from bytes. -/
structure Manner where
  /-- A byte order mark at the start is no part of the text. -/
  dropsMark : Bool
  /-- How many code points are wanted after these. -/
  wanted : Text → Nat

namespace Manner

def text (m : Manner) (t : Text) : Text := if m.dropsMark then Text.withoutMark t else t

/-- No bytes follow, and those that are left over of a code point are passed over: they are all
there is, and are left over of a byte order mark. -/
def PassesOver (m : Manner) (t : Text) (pending : Bytes) : Prop :=
  m.dropsMark = true ∧ t = [] ∧ pending <+: Utf8.mark

instance (m : Manner) (t : Text) (pending : Bytes) : Decidable (m.PassesOver t pending) :=
  inferInstanceAs (Decidable (_ ∧ _ ∧ _))

end Manner

namespace Stream

/-- Goes on reading at an offset until no more text is wanted or no bytes are left. -/
def readFrom (m : Manner) (s : Stream) (offset : Nat) : Except ReadFault Text :=
  match Utf8.decode (s.bytes.take offset) with
  | none => .error .undecodable
  | some (t, pending) =>
    if m.wanted (m.text t) = 0 then .ok (m.text t)
    else if offset < s.bytes.length then
      match s.portion offset (m.wanted (m.text t)) with
      | .error why => .error (.stopped why)
      | .ok size => readFrom m s (offset + max 1 size)
    else if pending = [] ∨ m.PassesOver t pending then .ok (m.text t)
    else .error .undecodable
termination_by s.bytes.length - offset

def read (m : Manner) (s : Stream) : Except ReadFault Text := readFrom m s 0

end Stream

end Delimited
