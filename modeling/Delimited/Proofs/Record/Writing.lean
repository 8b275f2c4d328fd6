/- How records are written: each field bare or between quotes, the fields of a record joined by the
delimiter. A line feed inside quotes starts a further line, so a record fills one line or more. -/
import Delimited.Record.Split
import Mathlib.Data.List.Forall2

namespace Delimited

/-- A field that is to be written. -/
structure Entry where
  text : Text
  /-- It stands between quotes. -/
  enclosed : Bool
  deriving DecidableEq

/-- What a reader is to find in place of the field: a bare null string has no value. -/
def Entry.field (nullString : Option Text) (e : Entry) : Field :=
  if e.enclosed then ⟨some e.text, true⟩
  else if nullString = some e.text then ⟨none, false⟩
  else ⟨some e.text, false⟩

theorem Entry.field_eq_read (d : Dialect) (e : Entry) :
    e.field d.nullString = .read d e.text e.enclosed := by
  obtain ⟨text, enclosed⟩ := e
  cases enclosed <;> simp [Entry.field, Field.read]

/-- How one code point of an enclosed field is put down. A quote is doubled or escaped, and an
escape other than the quote is escaped. -/
inductive Spelling (quote : Char) (escape : Option Char) : Char → Text → Prop
  | plain {c : Char} : c ≠ quote → escape ≠ some c → c ≠ '\n' → Spelling quote escape c [c]
  | doubled : Spelling quote escape quote [quote, quote]
  | escaped {e c : Char} : escape = some e → c = quote ∨ c = e → Spelling quote escape c [e, c]

/-- The inside of an enclosed field and the lines that it fills. A line feed starts a further
line. -/
inductive Inside (quote : Char) (escape : Option Char) : Text → List Text → Prop
  | done : Inside quote escape [] [[]]
  | spelled {c : Char} {read t w : Text} {ws : List Text} : Spelling quote escape c read →
      Inside quote escape t (w :: ws) → Inside quote escape (c :: t) ((read ++ w) :: ws)
  | lineFeed {t : Text} {ws : List Text} :
      Inside quote escape t ws → Inside quote escape ('\n' :: t) ([] :: ws)

/-- A text that may stand without quotes. The delimiter must not be met before it ends, not even
with its own last code points and the first ones of the delimiter after it. -/
structure IsBare (d : Dialect) (t : Text) : Prop where
  unquoted : ∀ c ∈ t.head?, d.quoteMark ≠ some c
  oneLine : '\n' ∉ t
  undivided : ∀ k < t.length, ¬ d.delimiter <+: (t ++ d.delimiter).drop k
  untrimmed : d.trim = true → ∀ c, c ∈ t.head? ∨ c ∈ t.getLast? → Text.isSpace c = false

/-- Lines that go on in the last of the lines before them. -/
def abut : List Text → List Text → List Text
  | [], ys => ys
  | [x], [] => [x]
  | [x], y :: ys => (x ++ y) :: ys
  | x :: x' :: xs, ys => x :: abut (x' :: xs) ys

/-- The lines that a field fills. -/
inductive Entry.Written (d : Dialect) : Entry → List Text → Prop
  | bare {t : Text} : IsBare d t → Entry.Written d ⟨t, false⟩ [t]
  | enclosed {quote : Char} {t : Text} {ws : List Text} : d.quoteMark = some quote →
      Inside quote d.escapeMark t ws → Entry.Written d ⟨t, true⟩ (abut [[quote]] (abut ws [[quote]]))

/-- The fields of a record with the delimiter between them. -/
def joined (delimiter : Text) : List (List Text) → List Text
  | [] => []
  | [ws] => ws
  | ws :: ws' :: others => abut ws (abut [delimiter] (joined delimiter (ws' :: others)))

/-- The lines that a record of one field or more fills. -/
def WrittenRecord (d : Dialect) (entries : List Entry) (lines : List Text) : Prop :=
  entries ≠ [] ∧ ∃ fields, List.Forall₂ (Entry.Written d) entries fields ∧
    lines = joined d.delimiter fields

/-! ### Lines that go on -/

@[simp] theorem abut_singleton (x y : Text) (ys : List Text) :
    abut [x] (y :: ys) = (x ++ y) :: ys := rfl

theorem abut_empty {xs : List Text} (h : xs ≠ []) : abut xs [[]] = xs := by
  induction xs with
  | nil => contradiction
  | cons x xs ih =>
      cases xs with
      | nil => simp
      | cons x' xs => rw [abut, ih (by simp)]

theorem abut_ne_nil {xs : List Text} (h : xs ≠ []) (ys : List Text) : abut xs ys ≠ [] := by
  match xs, ys with
  | [], _ => contradiction
  | [_], [] | [_], _ :: _ | _ :: _ :: _, _ => simp [abut]

theorem abut_cons {x : Text} {xs ys : List Text} (h : xs ≠ []) :
    abut (x :: xs) ys = x :: abut xs ys := by
  match xs with
  | [] => contradiction
  | _ :: _ => rfl

/-- The first line begins as it did. -/
theorem abut_read {read x first : Text} {xs further : List Text} {y : Text} {ys : List Text}
    (h : abut ((read ++ x) :: xs) (y :: ys) = first :: further) :
    ∃ t, first = read ++ t ∧ abut (x :: xs) (y :: ys) = t :: further := by
  cases xs with
  | nil =>
      simp only [abut_singleton, List.cons.injEq] at h
      obtain ⟨rfl, rfl⟩ := h
      exact ⟨x ++ y, by rw [List.append_assoc], rfl⟩
  | cons x' xs =>
      simp only [abut, List.cons.injEq] at h
      obtain ⟨rfl, rfl⟩ := h
      exact ⟨x, rfl, rfl⟩

theorem abut_assoc (xs : List Text) {ys : List Text} (h : ys ≠ []) (zs : List Text) :
    abut (abut xs ys) zs = abut xs (abut ys zs) := by
  induction xs with
  | nil => rfl
  | cons x xs ih =>
      cases xs with
      | nil =>
          match ys, zs with
          | [], _ => contradiction
          | [y], [] => rfl
          | [y], z :: zs => simp [abut]
          | y :: y' :: ys, zs => simp [abut]
      | cons x' xs =>
          rw [abut, abut_cons (abut_ne_nil (by simp) ys), ih, abut]

theorem Inside.ne_nil {quote : Char} {escape : Option Char} {t : Text} {ws : List Text}
    (h : Inside quote escape t ws) : ws ≠ [] := by
  cases h <;> simp

theorem Entry.Written.ne_nil {d : Dialect} {e : Entry} {ws : List Text} (h : e.Written d ws) :
    ws ≠ [] := by
  cases h with
  | bare => simp
  | enclosed => exact abut_ne_nil (by simp) _

/-- An enclosed field begins with a quote. -/
theorem Entry.Written.first {d : Dialect} {e : Entry} {ws : List Text} (h : e.Written d ws)
    (he : e.enclosed = true) : ∃ quote u us, ws = ([quote] ++ u) :: us := by
  cases h with
  | bare => contradiction
  | @enclosed quote t ws _ hinside =>
      obtain ⟨u, us, hu⟩ := List.exists_cons_of_ne_nil
        (abut_ne_nil hinside.ne_nil [[quote]])
      exact ⟨quote, u, us, by rw [hu, abut_singleton]⟩

theorem joined_ne_nil {d : Dialect} {entries : List Entry} {fields : List (List Text)}
    (h : List.Forall₂ (Entry.Written d) entries fields) (hne : entries ≠ []) :
    joined d.delimiter fields ≠ [] := by
  match h with
  | .nil => contradiction
  | .cons hw .nil => exact hw.ne_nil
  | .cons hw (.cons _ _) => exact abut_ne_nil hw.ne_nil _

/-- With a field after it, the lines of a field go on with the delimiter. -/
theorem joined_cons {d : Dialect} {entries : List Entry} {fields : List (List Text)}
    (h : List.Forall₂ (Entry.Written d) entries fields) (hne : entries ≠ []) (ws : List Text) :
    ∃ w more, joined d.delimiter fields = w :: more ∧
      joined d.delimiter (ws :: fields) = abut ws ((d.delimiter ++ w) :: more) := by
  obtain ⟨w, more, hmore⟩ := List.exists_cons_of_ne_nil (joined_ne_nil h hne)
  cases fields with
  | nil => simp [joined] at hmore
  | cons ws' fields => exact ⟨w, more, hmore, by rw [joined, hmore, abut_singleton]⟩

end Delimited
