/- Patterns that are searched for in a line, and the number of their matches.
A pattern lists every rest of the text that a match can leave, the preferred one first. -/
import Delimited.Text.Basic

namespace Delimited

/-- The rests that the matches at one place leave, in order of preference. `atStart` tells whether
the place is the start of the text. -/
abbrev Pattern := (atStart : Bool) → Text → List Text

namespace Pattern

def start : Pattern := fun atStart t => if atStart then [t] else []

/-- The end of the text, or the place before a line feed that ends it. -/
def finish : Pattern := fun _ t => if t = [] ∨ t = ['\n'] then [t] else []

def literal (p : Text) : Pattern := fun _ t => (Text.after? p t).toList

def either (p q : Pattern) : Pattern := fun atStart t => p atStart t ++ q atStart t

/-- One pattern after the other. Only the first of them can ask for the start. -/
def both (p q : Pattern) : Pattern := fun atStart t => (p atStart t).flatMap (q false)

/-- One code point, if the text from there on is accepted. -/
def one (accept : Text → Bool) : Pattern
  | _, [] => []
  | _, c :: t => if accept (c :: t) then [t] else []

/-- The rests along a run of accepted places, the farthest first, before the ones given. -/
def restsAlong (accept : Text → Bool) : Text → List Text → List Text
  | [], nearer => [] :: nearer
  | c :: t, nearer =>
    if accept (c :: t) then restsAlong accept t ((c :: t) :: nearer) else (c :: t) :: nearer

/-- Any number of code points at accepted places; the longest run is preferred. -/
def run (accept : Text → Bool) : Pattern := fun _ t => restsAlong accept t []

/-- Accepts a place before a code point of this kind. -/
def before (kind : Char → Bool) (t : Text) : Bool := t.head?.any kind

/-- The matches counted at one place, and how many code points they take up. After an empty match
a match that is not empty may still follow at the same place. -/
def matchesAt (p : Pattern) (atStart : Bool) (t : Text) : Nat × Nat :=
  match p atStart t with
  | [] => (0, 0)
  | rest :: others =>
    if rest.length < t.length then (1, t.length - rest.length)
    else match others.find? (fun rest => rest.length < t.length) with
      | some rest => (2, t.length - rest.length)
      | none => (1, 0)

/-- The matches from one place on, after `skip` code points that a match has taken up. -/
def countFrom (p : Pattern) (atStart : Bool) : (skip : Nat) → Text → Nat
  | 0, [] => (matchesAt p atStart []).1
  | _ + 1, [] => 0
  | 0, c :: t =>
    let (found, taken) := matchesAt p atStart (c :: t)
    found + countFrom p false (taken - 1) t
  | skip + 1, _ :: t => countFrom p false skip t

def count (p : Pattern) (t : Text) : Nat := countFrom p true 0 t

def countAll (p : Pattern) : (lines : List Text) → Nat
  | [] => 0
  | t :: lines => count p t + countAll p lines

def occursFrom (p : Pattern) (atStart : Bool) : Text → Bool
  | [] => !(p atStart []).isEmpty
  | c :: t => !(p atStart (c :: t)).isEmpty || occursFrom p false t

def occurs (p : Pattern) (t : Text) : Bool := occursFrom p true t

end Pattern

end Delimited
