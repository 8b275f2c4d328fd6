/- What patterns match. A pattern is described by the rests that its matches leave, one lemma for
each way to build a pattern; where it is found, by what it matches at the ends of a text. -/
import Delimited.Text.Pattern

namespace Delimited.Pattern

variable {kind : Char → Bool} {p q : Pattern} {word t rest : Text} {atStart : Bool}

/-! ### Rests of matches -/

theorem mem_start : rest ∈ start atStart t ↔ atStart = true ∧ rest = t := by
  cases atStart <;> simp [start]

theorem mem_literal : rest ∈ literal word atStart t ↔ t = word ++ rest := by
  rw [literal, Option.mem_toList, Text.after?_eq_some_iff]

theorem mem_finish : rest ∈ finish atStart t ↔ rest = t ∧ (t = [] ∨ t = ['\n']) := by
  unfold finish
  split <;> simp_all

theorem mem_both : rest ∈ both p q atStart t ↔ ∃ t' ∈ p atStart t, rest ∈ q false t' :=
  List.mem_flatMap

theorem mem_either : rest ∈ either p q atStart t ↔ rest ∈ p atStart t ∨ rest ∈ q atStart t :=
  List.mem_append

theorem mem_one : rest ∈ one (before kind) atStart t ↔ ∃ c, kind c = true ∧ t = c :: rest := by
  cases t with
  | nil => simp [one]
  | cons c t =>
      rw [one]
      split
      · next hc =>
        have hkind : kind c = true := by simpa [before] using hc
        simp only [List.mem_singleton, List.cons.injEq]
        constructor
        · rintro rfl
          exact ⟨c, hkind, rfl, rfl⟩
        · rintro ⟨_, -, -, rfl⟩
          rfl
      · next hc =>
        refine iff_of_false List.not_mem_nil ?_
        rintro ⟨_, hkind, h⟩
        obtain ⟨rfl, -⟩ := List.cons.inj h
        exact hc (by simpa [before] using hkind)

/-- A run is empty or goes on after its first code point. -/
theorem exists_run_cons_iff {c : Char} :
    (∃ run, (∀ c ∈ run, kind c = true) ∧ c :: t = run ++ rest) ↔
      rest = c :: t ∨ kind c = true ∧ ∃ run, (∀ c ∈ run, kind c = true) ∧ t = run ++ rest := by
  constructor
  · rintro ⟨run, hrun, h⟩
    cases run with
    | nil => exact .inl h.symm
    | cons c' run =>
        obtain ⟨rfl, rfl⟩ := List.cons.inj h
        obtain ⟨hc, hrun⟩ := List.forall_mem_cons.mp hrun
        exact .inr ⟨hc, run, hrun, rfl⟩
  · rintro (rfl | ⟨hc, run, hrun, rfl⟩)
    · exact ⟨[], nofun, rfl⟩
    · exact ⟨c :: run, List.forall_mem_cons.mpr ⟨hc, hrun⟩, rfl⟩

theorem mem_restsAlong {nearer : List Text} :
    rest ∈ restsAlong (before kind) t nearer ↔
      rest ∈ nearer ∨ ∃ run, (∀ c ∈ run, kind c = true) ∧ t = run ++ rest := by
  induction t generalizing nearer with
  | nil =>
      have hrun : (∃ run : Text, (∀ c ∈ run, kind c = true) ∧ [] = run ++ rest) ↔ rest = [] :=
        ⟨fun ⟨_, _, h⟩ => (List.append_eq_nil_iff.mp h.symm).2, fun h => ⟨[], nofun, h.symm⟩⟩
      rw [restsAlong, List.mem_cons, hrun, or_comm]
  | cons c t ih =>
      rw [restsAlong, exists_run_cons_iff]
      cases hc : kind c with
      | true =>
          have haccept : before kind (c :: t) = true := hc
          rw [if_pos haccept, ih, List.mem_cons]
          simp only [true_and, or_assoc, or_left_comm]
      | false =>
          have haccept : ¬ before kind (c :: t) = true := by simp [before, hc]
          rw [if_neg haccept, List.mem_cons]
          simp [or_comm]

theorem mem_run :
    rest ∈ run (before kind) atStart t ↔ ∃ run, (∀ c ∈ run, kind c = true) ∧ t = run ++ rest := by
  simp [run, mem_restsAlong]

/-! ### Where a pattern is found -/

theorem occursFrom_iff :
    occursFrom p false t = true ↔ ∃ u, u <:+ t ∧ ∃ rest, rest ∈ p false u := by
  simp only [← List.isEmpty_eq_false_iff_exists_mem]
  induction t with
  | nil => simp [occursFrom]
  | cons c t ih => simp [occursFrom, ih, List.suffix_cons_iff, or_and_right, exists_or]

/-- A pattern is found at the start of a text, or further on, where it cannot ask for the start. -/
theorem occurs_iff : p.occurs t = true ↔
    (∃ rest, rest ∈ p true t) ∨
      t ≠ [] ∧ ∃ u, u <:+ t.tail ∧ ∃ rest, rest ∈ p false u := by
  rw [← List.isEmpty_eq_false_iff_exists_mem]
  cases t with
  | nil => simp [occurs, occursFrom]
  | cons c t => simp [occurs, occursFrom, occursFrom_iff]

/-- What asks for the start is looked for in vain further on. -/
theorem occurs_start_iff : (both start p).occurs t = true ↔ ∃ rest, rest ∈ p false t := by
  simp [occurs_iff, mem_both, mem_start]

/-- A pattern that asks for the start or for a word before it is looked for behind each of them. -/
theorem occurs_start_or_iff :
    (both (either start (literal word)) p).occurs t = true ↔
      (∃ rest, rest ∈ p false t) ∨ ∃ u, word ++ u <:+ t ∧ ∃ rest, rest ∈ p false u := by
  have hhere : ∀ atStart t, (∃ rest, rest ∈ both (either start (literal word)) p atStart t) ↔
      (atStart = true ∧ ∃ rest, rest ∈ p false t) ∨
        ∃ u, word ++ u = t ∧ ∃ rest, rest ∈ p false u := by
    intro atStart t
    simp only [mem_both, mem_either, mem_start, mem_literal]
    grind
  simp only [occurs_iff, hhere]
  cases t with
  | nil => simp
  | cons c t =>
      simp only [List.suffix_cons_iff, List.tail_cons]
      grind

theorem occurs_literal_iff : (both start (literal word)).occurs t = true ↔ word <+: t := by
  simp only [occurs_start_iff, mem_literal, List.IsPrefix, eq_comm (a := t)]

/-- A first field is the word where the delimiter or the end comes after it. -/
theorem occurs_field_iff {delimiter : Text} :
    (both start (both (literal word) (either (literal delimiter) finish))).occurs t = true ↔
      word ++ delimiter <+: t ∨ t = word ∨ t = word ++ ['\n'] := by
  simp only [occurs_start_iff, mem_both, mem_either, mem_literal, mem_finish]
  constructor
  · rintro ⟨rest, after, rfl, rfl | ⟨-, rfl | rfl⟩⟩
    · exact .inl ⟨rest, List.append_assoc ..⟩
    · exact .inr (.inl (List.append_nil word))
    · exact .inr (.inr rfl)
  · rintro (⟨rest, rfl⟩ | rfl | rfl)
    · exact ⟨rest, delimiter ++ rest, List.append_assoc .., .inl rfl⟩
    · exact ⟨[], [], (List.append_nil t).symm, .inr ⟨rfl, .inl rfl⟩⟩
    · exact ⟨['\n'], ['\n'], rfl, .inr ⟨rfl, .inr rfl⟩⟩

/-! ### How often a pattern is found -/

theorem countFrom_none {c : Char} (h : p atStart (c :: t) = []) :
    countFrom p atStart 0 (c :: t) = countFrom p false 0 t := by
  simp [countFrom, matchesAt, h]

/-- What a match has taken up is passed over. -/
theorem countFrom_append (p : Pattern) (u t : Text) :
    countFrom p false u.length (u ++ t) = countFrom p false 0 t := by
  induction u with
  | nil => rfl
  | cons c u ih => exact ih

/-- After a match that is not empty the search goes on with the rest it leaves. -/
theorem countFrom_match {c : Char} {u : Text} {others : List Text}
    (h : p atStart (c :: (u ++ rest)) = rest :: others) :
    countFrom p atStart 0 (c :: (u ++ rest)) = countFrom p false 0 rest + 1 := by
  have hlength : (c :: (u ++ rest)).length = u.length + 1 + rest.length := by
    rw [List.length_cons, List.length_append, Nat.add_right_comm]
  have hmatch : matchesAt p atStart (c :: (u ++ rest)) = (1, u.length + 1) := by
    rw [matchesAt, h]
    simp only
    rw [if_pos (by omega), hlength, Nat.add_sub_cancel]
  rw [countFrom, hmatch]
  simp only [Nat.add_sub_cancel, countFrom_append, Nat.add_comm]

/-- Where a pattern does not ask for the start, it makes no difference to be there. -/
theorem countFrom_start (h : p true t = p false t) :
    countFrom p true 0 t = countFrom p false 0 t := by
  cases t with
  | nil => simp only [countFrom, matchesAt, h]
  | cons c t => simp only [countFrom, matchesAt, h]

end Delimited.Pattern
