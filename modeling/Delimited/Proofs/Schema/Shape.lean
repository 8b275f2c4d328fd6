/- The shapes of values. In the shape of a text each run of digits is one `0`, and each letter of
the plain alphabet is `A` or `a`. A text that fits a format of time stamps (`shape_mem_of_fits`),
and a number (`shape_of_isDouble`), has one of finitely many shapes, so that no text can be both is
seen from finite lists. -/
import Delimited.Schema.ColumnType

namespace Delimited

namespace Text

/-- A run of digits before a shape; digits go on in a run that is there already. -/
def shapeOfDigits (rest : Text) : Text := if rest.head? = some '0' then rest else '0' :: rest

/-- One code point before a shape. -/
def shapeOfChar (c : Char) (rest : Text) : Text :=
  if isDigit c then shapeOfDigits rest
  else if Timestamp.isUpper c then 'A' :: rest
  else if Timestamp.isLower c then 'a' :: rest
  else c :: rest

def shape (t : Text) : Text := t.foldr shapeOfChar []

@[simp] theorem shape_nil : shape [] = [] := rfl

@[simp] theorem shape_cons (c : Char) (t : Text) : shape (c :: t) = shapeOfChar c (shape t) := rfl

theorem shapeOfDigits_idem (s : Text) : shapeOfDigits (shapeOfDigits s) = shapeOfDigits s := by
  refine if_pos ?_
  unfold shapeOfDigits
  split
  · assumption
  · rfl

theorem shapeOfChar_digit {c : Char} (hc : isDigit c = true) (s : Text) :
    shapeOfChar c s = shapeOfDigits s := if_pos hc

/-- The runs of digits do not meet the letters of the plain alphabet. -/
theorem isDigit_eq_false {c : Char} (hlow : 65 ≤ c.toNat) (hhigh : c.toNat ≤ 122) :
    isDigit c = false := by
  have hzeros : ∀ start ∈ digitZeros, start + 10 ≤ 65 ∨ 122 < start := by decide
  have hnone : digit? c = none := by
    rw [digit?, Option.map_eq_none_iff, List.find?_eq_none]
    intro start hstart
    have := hzeros start hstart
    simp only [Bool.and_eq_true, decide_eq_true_eq]
    omega
  rw [isDigit, hnone, Option.isSome_none]

theorem isUpper_iff {c : Char} :
    Timestamp.isUpper c = true ↔ 65 ≤ c.toNat ∧ c.toNat ≤ 90 := by
  rw [Timestamp.isUpper, Bool.and_eq_true, decide_eq_true_eq, decide_eq_true_eq]
  rfl

theorem isLower_iff {c : Char} :
    Timestamp.isLower c = true ↔ 97 ≤ c.toNat ∧ c.toNat ≤ 122 := by
  rw [Timestamp.isLower, Bool.and_eq_true, decide_eq_true_eq, decide_eq_true_eq]
  rfl

theorem shapeOfChar_upper {c : Char} (hc : Timestamp.isUpper c = true) (s : Text) :
    shapeOfChar c s = 'A' :: s := by
  obtain ⟨hlow, hhigh⟩ := isUpper_iff.mp hc
  have hdigit : isDigit c = false := isDigit_eq_false hlow (by omega)
  simp [shapeOfChar, hdigit, hc]

theorem shapeOfChar_lower {c : Char} (hc : Timestamp.isLower c = true) (s : Text) :
    shapeOfChar c s = 'a' :: s := by
  obtain ⟨hlow, hhigh⟩ := isLower_iff.mp hc
  have hdigit : isDigit c = false := isDigit_eq_false (by omega) hhigh
  have hupper : ¬ Timestamp.isUpper c = true := by
    rw [isUpper_iff]
    omega
  simp [shapeOfChar, hdigit, hupper, hc]

theorem shape_digits_append {ds : Text} (hne : ds ≠ []) (hds : ∀ c ∈ ds, isDigit c = true)
    (rest : Text) : shape (ds ++ rest) = shapeOfDigits (shape rest) := by
  induction ds with
  | nil => contradiction
  | cons c ds ih =>
      obtain ⟨hc, hds⟩ := List.forall_mem_cons.mp hds
      rw [List.cons_append, shape_cons, shapeOfChar_digit hc]
      cases ds with
      | nil => rfl
      | cons c' ds => rw [ih (List.cons_ne_nil c' ds) hds, shapeOfDigits_idem]

theorem head?_shape_dropWhile (t : Text) : (shape (t.dropWhile isDigit)).head? ≠ some '0' := by
  induction t with
  | nil => exact nofun
  | cons c t ih =>
      cases hc : isDigit c with
      | true => rwa [List.dropWhile_cons_of_pos hc]
      | false =>
          have hzero : c ≠ '0' := by
            rintro rfl
            exact absurd hc (by decide)
          rw [List.dropWhile_cons_of_neg (by simpa using hc), shape_cons, shapeOfChar]
          simp only [hc, Bool.false_eq_true, if_false]
          split
          · exact nofun
          · split
            · exact nofun
            · exact fun h => hzero (Option.some.inj h)

/-- The shape of the digits at the start of a text. -/
def shapeOfRun (t : Text) : Text := if t.takeWhile isDigit = [] then [] else ['0']

theorem shapeOfRun_append_dropWhile (t : Text) :
    shapeOfRun t ++ shape (t.dropWhile isDigit) = shape t := by
  unfold shapeOfRun
  have hsplit : t.takeWhile isDigit ++ t.dropWhile isDigit = t := List.takeWhile_append_dropWhile
  have hfurther : shapeOfDigits (shape (t.dropWhile isDigit)) =
      '0' :: shape (t.dropWhile isDigit) := if_neg (head?_shape_dropWhile t)
  split
  · next hnone =>
    rw [hnone, List.nil_append] at hsplit
    rw [hsplit, List.nil_append]
  · next hsome =>
    have hshape := shape_digits_append hsome (List.all_eq_true.mp List.all_takeWhile)
      (t.dropWhile isDigit)
    rwa [hsplit, hfurther, eq_comm] at hshape

end Text

namespace Timestamp

open Text

def signs : List Char := ['+', '-']

/-- The shapes that a part may give a text, before what follows it. -/
def Part.shapes : Part → (rest : Text) → List Text
  | .year, s | .month, s | .day, s | .hour, s | .minute, s | .second, s => [shapeOfDigits s]
  | .monthName, s => ['A' :: 'a' :: 'a' :: s]
  | .fraction, s => ['.' :: shapeOfDigits s]
  | .zone, s =>
    ('A' :: s) :: signs.flatMap fun sign =>
      [sign :: shapeOfDigits s, sign :: shapeOfDigits (':' :: shapeOfDigits s)]
  | .plainZone, s => signs.map fun sign => sign :: shapeOfDigits s
  | .literal c, s => [shapeOfChar c s]

def Format.shapes : Format → List Text
  | [] => [[]]
  | part :: f => (Format.shapes f).flatMap part.shapes

theorem exists_digits_of_afterDigits {n : Nat} {t rest : Text} (h : afterDigits n t = some rest) :
    ∃ ds, ds.length = n ∧ (∀ c ∈ ds, isDigit c = true) ∧ t = ds ++ rest := by
  induction n generalizing t with
  | zero => exact ⟨[], rfl, nofun, Option.some.inj h⟩
  | succ n ih =>
      cases t with
      | nil => contradiction
      | cons c t =>
          rw [afterDigits] at h
          split at h
          · next hc =>
            obtain ⟨ds, hlength, hds, rfl⟩ := ih h
            exact ⟨c :: ds, by rw [List.length_cons, hlength],
              List.forall_mem_cons.mpr ⟨hc, hds⟩, rfl⟩
          · contradiction

theorem shape_of_afterDigits {n : Nat} {t rest : Text} (h : afterDigits (n + 1) t = some rest) :
    shape t = shapeOfDigits (shape rest) := by
  obtain ⟨ds, hlength, hds, rfl⟩ := exists_digits_of_afterDigits h
  exact shape_digits_append (List.ne_nil_of_length_eq_add_one hlength) hds rest

theorem shape_of_sign {c : Char} (h : isPlusMinus c = true) (t : Text) :
    c ∈ signs ∧ shape (c :: t) = c :: shape t := by
  rw [isPlusMinus, Bool.or_eq_true, beq_iff_eq, beq_iff_eq] at h
  obtain rfl | rfl := h
  · exact ⟨by decide, rfl⟩
  · exact ⟨by decide, rfl⟩

/-- What a part takes up gives the text one of the shapes of the part. -/
theorem shape_mem_of_after {part : Part} {t rest : Text} (h : part.after? t = some rest) :
    shape t ∈ part.shapes (shape rest) := by
  fun_cases Part.after? part t with
  | case1 | case2 | case3 | case4 | case5 | case6 =>
      exact List.mem_singleton.mpr (shape_of_afterDigits h)
  | case7 a b c t hletters =>
      obtain rfl : t = rest := by simpa [Part.after?, hletters] using h
      simp only [Bool.and_eq_true] at hletters
      obtain ⟨⟨ha, hb⟩, hc⟩ := hletters
      simp [Part.shapes, shapeOfChar_upper ha, shapeOfChar_lower hb, shapeOfChar_lower hc]
  | case10 t n hn =>
      obtain rfl : t.drop n = rest := (by simpa [Part.after?] using h : _ ∧ _).2
      have htake : t.takeWhile isDigit = t.take n :=
        List.prefix_iff_eq_take.mp (List.takeWhile_prefix isDigit)
      have hdigits := shape_digits_append (List.ne_nil_of_length_pos hn.1)
        (List.all_eq_true.mp List.all_takeWhile) (t.drop n)
      rw [htake, List.take_append_drop] at hdigits
      exact List.mem_singleton.mpr (congrArg (shapeOfChar '.') hdigits)
  | case11 t n hn => exact absurd (by simpa [Part.after?] using h : _ ∧ _).1 hn
  | case13 t =>
      obtain rfl : t = rest := Option.some.inj h
      exact .head _
  | case14 c t _ hsign minutes hhours =>
      simp only [Part.after?, hsign, hhours, if_true] at h
      obtain ⟨hmem, hshape⟩ := shape_of_sign hsign t
      have hdigits : shape t = shapeOfDigits (':' :: shapeOfDigits (shape rest)) := by
        rw [shape_of_afterDigits hhours, ← shape_of_afterDigits h]
        rfl
      rw [hshape, hdigits]
      exact .tail _ (List.mem_flatMap.mpr ⟨c, hmem, .tail _ (.head _)⟩)
  | case15 c t hzulu hsign minutes hcolon hhours =>
      have hminutes : afterDigits 2 minutes = some rest := by
        simpa [Part.after?, hzulu, hsign, hhours, hcolon] using h
      obtain ⟨hmem, hshape⟩ := shape_of_sign hsign t
      have hdigits : shape t = shapeOfDigits (shape rest) := by
        rw [shape_of_afterDigits hhours, shape_of_afterDigits hminutes, shapeOfDigits_idem]
      rw [hshape, hdigits]
      exact .tail _ (List.mem_flatMap.mpr ⟨c, hmem, .head _⟩)
  | case19 c t hsign =>
      rw [Part.after?, if_pos hsign] at h
      obtain ⟨hmem, hshape⟩ := shape_of_sign hsign t
      rw [hshape, shape_of_afterDigits h]
      exact List.mem_map.mpr ⟨c, hmem, rfl⟩
  | case22 c t =>
      obtain rfl : t = rest := by simpa [Part.after?] using h
      exact List.mem_singleton_self _
  | _ => simp_all [Part.after?]

/-- A text that fits a format has one of its shapes. -/
theorem shape_mem_of_fits {f : Format} {t : Text} (h : f.fits t = true) : shape t ∈ f.shapes := by
  induction f generalizing t with
  | nil =>
      obtain rfl := List.isEmpty_iff.mp h
      exact .head _
  | cons part f ih =>
      rw [Format.fits] at h
      split at h
      · next rest hafter => exact List.mem_flatMap.mpr ⟨shape rest, ih h, shape_mem_of_after hafter⟩
      · contradiction

end Timestamp

namespace ColumnType

open Text Timestamp

/-- Shapes with a sign before them or without. -/
def signed (shapes : List Text) : List Text :=
  shapes ++ signs.flatMap fun sign => shapes.map (sign :: ·)

def exponentShapes : List Text :=
  [] :: (signed [['0']]).flatMap fun s => ['a' :: s, 'A' :: s]

/-- The digits of a number, with an exponent after them or without. -/
def unsignedShapes : List Text :=
  [['0'], ['0', '.'], ['.', '0'], ['0', '.', '0']].flatMap fun s => exponentShapes.map (s ++ ·)

def doubleShapes : List Text := signed unsignedShapes

theorem shape_mem_signed {t : Text} {shapes : List Text} (h : shape (afterSign t) ∈ shapes) :
    shape t ∈ signed shapes := by
  unfold afterSign at h
  split at h
  · exact List.mem_append_right _ (List.mem_flatMap.mpr ⟨'+', by decide, List.mem_map_of_mem h⟩)
  · exact List.mem_append_right _ (List.mem_flatMap.mpr ⟨'-', by decide, List.mem_map_of_mem h⟩)
  · exact List.mem_append_left _ h

theorem shape_of_isDigits {t : Text} (h : isDigits t = true) : shape t = ['0'] := by
  obtain ⟨hne, hdigits⟩ : t ≠ [] ∧ ∀ c ∈ t, isDigit c = true := by simpa [isDigits] using h
  have hshape := shape_digits_append hne hdigits []
  rwa [List.append_nil] at hshape

theorem shape_of_isExponent {t : Text} (h : isExponent t = true) : shape t ∈ exponentShapes := by
  match t with
  | [] => exact .head _
  | c :: t =>
      simp only [isExponent, Bool.and_eq_true, Bool.or_eq_true, beq_iff_eq] at h
      have hdigits : shape t ∈ signed [['0']] :=
        shape_mem_signed (List.mem_singleton.mpr (shape_of_isDigits h.2))
      refine .tail _ (List.mem_flatMap.mpr ⟨shape t, hdigits, ?_⟩)
      obtain rfl | rfl := h.1
      · exact .head _
      · exact .tail _ (.head _)

theorem isDouble_cases {t : Text} (h : isDouble t = true) :
    ((afterSign t).takeWhile isDigit ≠ [] ∧ isExponent ((afterSign t).dropWhile isDigit) = true) ∨
      ∃ rest, (afterSign t).dropWhile isDigit = '.' :: rest ∧
        ((afterSign t).takeWhile isDigit ≠ [] ∨ rest.takeWhile isDigit ≠ []) ∧
          isExponent (rest.dropWhile isDigit) = true := by
  unfold isDouble at h
  dsimp only at h
  split at h
  · next rest hrest =>
    refine .inr ⟨rest, hrest, ?_⟩
    simpa [Decidable.or_iff_not_imp_left] using h
  · exact .inl (by simpa using h)

theorem shape_of_isDouble {t : Text} (h : isDouble t = true) : shape t ∈ doubleShapes := by
  refine shape_mem_signed (List.mem_flatMap.mpr ?_)
  rw [← shapeOfRun_append_dropWhile (afterSign t)]
  obtain ⟨hwhole, hexponent⟩ | ⟨rest, hrest, hsome, hexponent⟩ := isDouble_cases h
  · refine ⟨shapeOfRun (afterSign t), ?_, List.mem_map_of_mem (shape_of_isExponent hexponent)⟩
    simp [shapeOfRun, hwhole]
  · refine ⟨shapeOfRun (afterSign t) ++ '.' :: shapeOfRun rest, ?_,
      List.mem_map.mpr ⟨_, shape_of_isExponent hexponent, ?_⟩⟩
    · unfold shapeOfRun
      split <;> split <;> simp_all
    · rw [hrest, List.append_assoc, List.cons_append, shapeOfRun_append_dropWhile]
      rfl

end ColumnType

end Delimited
