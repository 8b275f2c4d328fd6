/- The order of the tests for the type of a value. No two formats of time stamps fit the same text,
and no text passes two of the tests but those for whole numbers and for fractions, so the type hangs
on the order of these two alone (`typeBy?_of_perm`). -/
import Delimited.Proofs.Schema.Shape
import Mathlib.Data.List.TakeWhile

namespace Delimited

section Searches

variable {α β : Type} {p : α → Bool} {l l' : List α}

/-- Where no two items of a list are found, the order does not matter. -/
theorem find?_of_perm (h : l.Perm l')
    (hone : l.Pairwise fun a b => ¬ (p a = true ∧ p b = true)) : l.find? p = l'.find? p := by
  induction h with
  | nil => rfl
  | cons a _ ih => rw [List.find?_cons, List.find?_cons, ih hone.tail]
  | swap a b l =>
      have hnot := (List.pairwise_cons.mp hone).1 a (.head l)
      cases ha : p a <;> cases hb : p b <;> simp_all
  | trans h _ ih ih' =>
      exact (ih hone).trans (ih' ((h.pairwise_iff fun hab hba => hab hba.symm).mp hone))

/-- The first item with an answer is the one that stands before all others that have one. -/
theorem findSome?_of_leads {g : α → Option β} {a : α} {r : β} {order : List α}
    (hnodup : order.Nodup) (hmem : a ∈ order) (hr : g a = some r)
    (hleads : ∀ b, g b ≠ none → b = a ∨ [a, b].Sublist order) : order.findSome? g = some r := by
  induction order with
  | nil => contradiction
  | cons c order ih =>
      obtain ⟨hc, hnodup⟩ := List.nodup_cons.mp hnodup
      obtain rfl | hmem := List.mem_cons.mp hmem
      · rw [List.findSome?_cons, hr]
      · have hac : a ≠ c := fun h => hc (h ▸ hmem)
        have hleads : ∀ b, g b ≠ none → b = a ∨ [a, b].Sublist order := by
          intro b hb
          refine (hleads b hb).imp_right fun hsub => ?_
          cases hsub with
          | cons _ hsub => exact hsub
          | cons_cons => contradiction
        have hnone : g c = none := by
          cases hsome : g c with
          | none => rfl
          | some r' =>
              obtain rfl | hsub := hleads c (by simp [hsome])
              · contradiction
              · exact absurd (hsub.subset (.tail _ (.head _))) hc
        rw [List.findSome?_cons, hnone]
        exact ih hnodup hmem hleads

end Searches

namespace ColumnType

open Text Timestamp

/-- What a text is tested for: to be empty, a word for truth, a number, a point in time. -/
inductive Test
  | empty | word | long | double | time
  deriving DecidableEq

namespace Test

/-- What a test says of a text that passes it: its type, or that it has none. -/
def answer? (accepts : Format → Text → Bool) (table : List Format) :
    Test → Text → Option (Option ColumnType)
  | .empty, t => if t = [] then some none else none
  | .word, t => if booleanWords.contains t then some (some .boolean) else none
  | .long, t => if isLong t then some (some .long) else none
  | .double, t => if isDouble t then some (some .double) else none
  | .time, t => (formatAmong? accepts table t).map fun format => some (.timestamp format.text)

def inOrder : List Test := [.empty, .word, .long, .double, .time]

theorem mem_inOrder (a : Test) : a ∈ inOrder := by
  cases a <;> decide

/-- The shapes of the texts that pass. -/
def shapes : Test → List Text
  | .empty => [[]]
  | .word => booleanWords.map shape
  | .long | .double => doubleShapes
  | .time => formats.flatMap Format.shapes

/-- It passes numbers. -/
def isNumber : Test → Bool
  | .long | .double => true
  | .empty | .word | .time => false

/-- No text passes two tests, unless both are tests of numbers. -/
theorem apart {a b : Test} (hne : a ≠ b) (hnumber : a.isNumber = false ∨ b.isNumber = false) :
    ∀ s ∈ a.shapes, s ∉ b.shapes := by
  have hall : ∀ a ∈ inOrder, ∀ b ∈ inOrder, a ≠ b → a.isNumber = false ∨ b.isNumber = false →
      ∀ s ∈ a.shapes, s ∉ b.shapes := by
    decide +kernel
  exact hall a a.mem_inOrder b b.mem_inOrder hne hnumber

end Test

theorem formats_apart : formats.Pairwise fun f g => ∀ s ∈ f.shapes, s ∉ g.shapes := by
  decide +kernel

/-- The type of a text by the tests in some order. -/
def typeBy? (accepts : Format → Text → Bool) (table : List Format) (order : List Test) (t : Text) :
    Option ColumnType :=
  (order.findSome? fun test => test.answer? accepts table t).getD (some .string)

theorem typeBy?_inOrder (t : Text) :
    typeBy? Format.accepts formats Test.inOrder t = ofValue? (some t) := by
  cases t with
  | nil => rfl
  | cons c t =>
      have hformat : formatAmong? Format.accepts formats (c :: t) = Timestamp.format? (c :: t) :=
        rfl
      simp only [typeBy?, Test.inOrder, ofValue?, ofText, tests, List.findSome?_cons, Test.answer?,
        hformat]
      by_cases hword : c :: t ∈ booleanWords
      · simp [hword]
      · cases isLong (c :: t) <;> cases isDouble (c :: t) <;>
          cases Timestamp.format? (c :: t) <;> simp [hword]

variable {accepts : Format → Text → Bool} {table : List Format} {t : Text}

theorem isDouble_of_isLong (h : isLong t = true) : isDouble t = true := by
  obtain ⟨hne, hdigits⟩ : afterSign t ≠ [] ∧ ∀ c ∈ afterSign t, isDigit c = true := by
    simpa [isLong, isDigits] using h
  have htake : (afterSign t).takeWhile isDigit = afterSign t :=
    List.takeWhile_eq_self_iff.mpr hdigits
  have hdrop : (afterSign t).dropWhile isDigit = [] := List.dropWhile_eq_nil_iff.mpr hdigits
  simp [isDouble, htake, hdrop, hne, isExponent]

theorem shape_mem_of_answer {a : Test} (h : a.answer? accepts formats t ≠ none) :
    shape t ∈ a.shapes := by
  cases a with
  | empty =>
      obtain rfl : t = [] := by simpa [Test.answer?] using h
      exact .head _
  | word => exact List.mem_map_of_mem (by simpa [Test.answer?] using h)
  | long => exact shape_of_isDouble (isDouble_of_isLong (by simpa [Test.answer?] using h))
  | double => exact shape_of_isDouble (by simpa [Test.answer?] using h)
  | time =>
      obtain ⟨f, hf⟩ : ∃ f, formatAmong? accepts formats t = some f := by
        simpa [Test.answer?, Option.ne_none_iff_exists'] using h
      have hfits : f.fits t = true := by
        have hfound := List.find?_some hf
        simp only [Bool.and_eq_true] at hfound
        exact hfound.1
      exact List.mem_flatMap.mpr ⟨f, List.mem_of_find?_eq_some hf, shape_mem_of_fits hfits⟩

/-- Two tests have an answer only where both are tests of numbers. -/
theorem isNumber_of_answers {a b : Test} (hne : a ≠ b) (ha : a.answer? accepts formats t ≠ none)
    (hb : b.answer? accepts formats t ≠ none) : a.isNumber = true ∧ b.isNumber = true := by
  have hnot : ¬ (a.isNumber = false ∨ b.isNumber = false) := fun hnumber =>
    Test.apart hne hnumber _ (shape_mem_of_answer ha) (shape_mem_of_answer hb)
  simpa using hnot

/-- The test whose answer is given: no other has one, but that of fractions beside that of whole
numbers. -/
theorem exists_leading {b : Test} (hb : b.answer? accepts formats t ≠ none) :
    ∃ a r, Test.answer? accepts formats a t = some r ∧
      ∀ b, b.answer? accepts formats t ≠ none → b = a ∨ a = .long ∧ b = .double := by
  by_cases hlong : isLong t = true
  · have hanswer : Test.long.answer? accepts formats t = some (some .long) := if_pos hlong
    refine ⟨.long, some .long, hanswer, fun b hb => ?_⟩
    by_cases hne : b = .long
    · exact .inl hne
    · have hnumber := isNumber_of_answers hne hb (by simp [hanswer])
      cases b <;> simp_all [Test.isNumber]
  · obtain ⟨r, hr⟩ := Option.ne_none_iff_exists'.mp hb
    refine ⟨b, r, hr, fun c hc => .inl ?_⟩
    have hnotLong : Test.long.answer? accepts formats t = none := if_neg hlong
    by_cases hne : c = b
    · exact hne
    · have hnumber := isNumber_of_answers hne hc hb
      cases b <;> cases c <;> simp_all [Test.isNumber]

/-- The first answer is the same in every order that has whole numbers before fractions. -/
theorem findSome?_answer_of_perm {order : List Test} (horder : order.Perm Test.inOrder)
    (hlong : [Test.long, .double].Sublist order) :
    (order.findSome? fun test => test.answer? accepts formats t) =
      Test.inOrder.findSome? fun test => test.answer? accepts formats t := by
  by_cases hnone : ∀ a : Test, a.answer? accepts formats t = none
  · rw [List.findSome?_eq_none_iff.mpr fun a _ => hnone a,
      List.findSome?_eq_none_iff.mpr fun a _ => hnone a]
  · obtain ⟨b, hb⟩ := not_forall.mp hnone
    obtain ⟨a, r, hr, hleads⟩ := exists_leading hb
    have hfirst : ∀ order : List Test, order.Perm Test.inOrder →
        [Test.long, .double].Sublist order →
        (order.findSome? fun test => test.answer? accepts formats t) = some r := by
      intro order horder hlong
      refine findSome?_of_leads (horder.nodup_iff.mpr (by decide))
        (horder.mem_iff.mpr a.mem_inOrder) hr fun b hb => (hleads b hb).imp_right ?_
      rintro ⟨rfl, rfl⟩
      exact hlong
    rw [hfirst order horder hlong, hfirst Test.inOrder (.refl _) (by decide)]

theorem not_both_fit (t : Text) :
    formats.Pairwise fun f g => ¬ (f.fits t = true ∧ g.fits t = true) :=
  formats_apart.imp fun hapart ⟨hf, hg⟩ => hapart _ (shape_mem_of_fits hf) (shape_mem_of_fits hg)

theorem formatAmong?_of_perm (accepts : Format → Text → Bool) {table : List Format}
    (h : table.Perm formats) (t : Text) :
    formatAmong? accepts table t = formatAmong? accepts formats t := by
  have hone : formats.Pairwise fun f g =>
      ¬ ((f.fits t && accepts f t) = true ∧ (g.fits t && accepts g t) = true) := by
    refine (not_both_fit t).imp fun hnot hboth => hnot ?_
    simp only [Bool.and_eq_true] at hboth
    exact ⟨hboth.1.1, hboth.2.1⟩
  exact (find?_of_perm h.symm hone).symm

/-- Of the formats of time stamps at most one fits a text; the words for truth, the numbers and the
texts that fit a format have no text in common, and whole numbers are numbers. So neither the order
of the formats nor that of the tests matters to the type of a text, as long as whole numbers come
before the other numbers, whatever texts the formats may accept. -/
theorem typeBy?_of_perm (t : Text) :
    (formats.Pairwise fun f g => ¬ (f.fits t = true ∧ g.fits t = true)) ∧
    (t ∈ booleanWords → isDouble t = false ∧ ∀ f ∈ formats, f.fits t = false) ∧
    (isDouble t = true → ∀ f ∈ formats, f.fits t = false) ∧
    (isLong t = true → isDouble t = true) ∧
    typeBy? Format.accepts formats Test.inOrder t = ofValue? (some t) ∧
    ∀ accepts table, table.Perm formats →
      formatAmong? accepts table t = formatAmong? accepts formats t ∧
      ∀ order : List Test, order.Perm Test.inOrder → [Test.long, .double].Sublist order →
        typeBy? accepts table order t = typeBy? accepts formats Test.inOrder t := by
  have hword : t ∈ booleanWords → shape t ∈ Test.word.shapes := fun h => List.mem_map_of_mem h
  have htime : ∀ f ∈ formats, f.fits t = true → shape t ∈ Test.time.shapes :=
    fun f hf h => List.mem_flatMap.mpr ⟨f, hf, shape_mem_of_fits h⟩
  refine ⟨not_both_fit t, fun h => ⟨?_, fun f hf => ?_⟩, fun h f hf => ?_, isDouble_of_isLong,
    typeBy?_inOrder t, fun accepts table htable => ⟨formatAmong?_of_perm accepts htable t, ?_⟩⟩
  · exact Bool.eq_false_iff.mpr fun hdouble =>
      Test.apart (a := .word) (b := .double) nofun (.inl rfl) _ (hword h)
        (shape_of_isDouble hdouble)
  · exact Bool.eq_false_iff.mpr fun hfits =>
      Test.apart (a := .word) (b := .time) nofun (.inl rfl) _ (hword h) (htime f hf hfits)
  · exact Bool.eq_false_iff.mpr fun hfits =>
      Test.apart (a := .double) (b := .time) nofun (.inr rfl) _ (shape_of_isDouble h)
        (htime f hf hfits)
  · intro order horder hlong
    have htable : ∀ a : Test, a.answer? accepts table t = a.answer? accepts formats t := by
      intro a
      cases a with
      | time => rw [Test.answer?, formatAmong?_of_perm accepts htable, Test.answer?]
      | empty | word | long | double => rfl
    simp only [typeBy?, htable, findSome?_answer_of_perm horder hlong]

/-- A whole number stays one when the tests stand the other way round but for the two of numbers. -/
theorem typeBy?_of_perm_reversed :
    formats.reverse.Perm formats ∧
      [Test.time, .long, .double, .word, .empty].Perm Test.inOrder ∧
      [Test.long, .double].Sublist [Test.time, .long, .double, .word, .empty] ∧
      typeBy? (fun _ _ => true) formats.reverse [.time, .long, .double, .word, .empty] ['1', '2'] =
        some .long := by
  have htable : formats.reverse.Perm formats := List.reverse_perm formats
  have horder : [Test.time, .long, .double, .word, .empty].Perm Test.inOrder := by decide
  have hlong : [Test.long, .double].Sublist [Test.time, .long, .double, .word, .empty] := by decide
  refine ⟨htable, horder, hlong, ?_⟩
  obtain ⟨-, -, -, -, -, hperm⟩ := typeBy?_of_perm ['1', '2']
  rw [(hperm _ _ htable).2 _ horder hlong]
  decide +kernel

end ColumnType

end Delimited
