/- Text as a list of code points, and the searches for one text inside another. -/
namespace Delimited

/-- Text is a list of code points; every length and position counts code points. -/
abbrev Text := List Char

namespace Text

/-- What follows `p`, when the text starts with it. -/
def after? : (p t : Text) → Option Text
  | [], t => some t
  | _ :: _, [] => none
  | a :: p, b :: t => if a = b then after? p t else none

theorem after?_eq_some_iff {p t r : Text} : after? p t = some r ↔ t = p ++ r := by
  fun_induction after? p t with
  | case1 t => simp [eq_comm]
  | case2 => simp
  | case3 p b t ih => simp [ih]
  | case4 a p b t h => simp [Ne.symm h]

theorem after?_append (p r : Text) : after? p (p ++ r) = some r := after?_eq_some_iff.2 rfl

theorem length_of_after? {p t r : Text} (h : after? p t = some r) :
    t.length = p.length + r.length := by
  rw [after?_eq_some_iff.1 h, List.length_append]

def startsWith (p t : Text) : Bool := (after? p t).isSome

theorem startsWith_iff {p t : Text} : startsWith p t = true ↔ p <+: t := by
  simp only [startsWith, Option.isSome_iff_exists, after?_eq_some_iff]
  exact ⟨fun ⟨r, h⟩ => ⟨r, h.symm⟩, fun ⟨r, h⟩ => ⟨r, h.symm⟩⟩

/-- Occurrences of a non-empty `p` that do not overlap, from left to right, in the text less its
first `skip` code points. -/
def occurrencesFrom (p : Text) : (skip : Nat) → Text → Nat
  | _, [] => 0
  | k + 1, _ :: t => occurrencesFrom p k t
  | 0, c :: t =>
    if startsWith p (c :: t) then occurrencesFrom p (p.length - 1) t + 1 else occurrencesFrom p 0 t

/-- How often `p` occurs, counted from left to right without overlaps. The empty text occurs
before every code point and at the end. -/
def occurrences (p t : Text) : Nat :=
  if p.isEmpty then t.length + 1 else occurrencesFrom p 0 t

/-- A space or a tab, the only code points that trimming removes. -/
def isSpace (c : Char) : Bool := c == ' ' || c == '\t'

def trimRight : Text → Text
  | [] => []
  | c :: t => match trimRight t with
    | [] => if isSpace c then [] else [c]
    | t' => c :: t'

/-- A byte order mark at the start of a file is no part of its text. -/
def withoutMark : Text → Text
  | '\ufeff' :: t => t
  | t => t

end Text

end Delimited
