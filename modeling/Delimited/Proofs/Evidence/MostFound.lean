/- What is found most often. Of the escapes and of the markers of comments, the first of those that
are found most often is chosen, and what the marker does not mark is kept
(`escape_and_marker_mostFound`). -/
import Delimited.Proofs.Evidence.Candidates
import Delimited.Proofs.Evidence.DataLines
import Delimited.Proofs.Text.Pattern
import Mathlib.Algebra.Ring.Nat
import Mathlib.Data.List.MinMax

namespace Delimited

/-! ### The first of the greatest counts -/

section MostFound

variable {α : Type}

/-- The first of the candidates with the greatest count; none if no candidate counts at all. -/
def mostFound (count : α → Nat) (candidates : List α) : Option α :=
  (candidates.argmax count).filter fun a => 0 < count a

variable {count : α → Nat} {candidates : List α}

theorem mostFound_eq_some_iff [inst : BEq α] [LawfulBEq α] {a : α} :
    mostFound count candidates = some a ↔
      0 < count a ∧ a ∈ candidates ∧ (∀ b ∈ candidates, count b ≤ count a) ∧
        ∀ b ∈ candidates, count a ≤ count b → candidates.idxOf a ≤ candidates.idxOf b := by
  classical
  obtain rfl : inst = instBEqOfDecidableEq := lawful_beq_subsingleton _ _
  rw [mostFound, Option.filter_eq_some_iff, List.argmax_eq_some_iff, decide_eq_true_eq, and_comm]

theorem mostFound_eq_none_iff :
    mostFound count candidates = none ↔ ∀ a ∈ candidates, count a = 0 := by
  rw [mostFound, Option.filter_eq_none_iff]
  constructor
  · intro h a ha
    cases hbest : candidates.argmax count with
    | none =>
        rw [List.argmax_eq_none.mp hbest] at ha
        contradiction
    | some best =>
        have hle := List.le_of_mem_argmax ha hbest
        have hzero := h best hbest
        simp only [decide_eq_true_eq, Nat.not_lt, Nat.le_zero] at hzero
        omega
  · intro h a ha
    simp [h a (List.argmax_mem ha)]

/-- Another way to count finds the same just when the best by the one is the first of the best by the
other. Where nothing is found either way they agree. -/
theorem mostFound_eq_mostFound_iff [BEq α] [LawfulBEq α] {count' : α → Nat}
    (hzero : ∀ a ∈ candidates, count' a = 0 ↔ count a = 0) :
    mostFound count' candidates = mostFound count candidates ↔
      ∀ a, mostFound count candidates = some a → ∀ b ∈ candidates,
        count' b ≤ count' a ∧ (count' a ≤ count' b → candidates.idxOf a ≤ candidates.idxOf b) := by
  constructor
  · intro hsame a ha b hb
    rw [← hsame] at ha
    obtain ⟨-, -, hle, hfirst⟩ := mostFound_eq_some_iff.mp ha
    exact ⟨hle b hb, hfirst b hb⟩
  · intro hlead
    cases hmost : mostFound count candidates with
    | none =>
        rw [mostFound_eq_none_iff] at hmost ⊢
        intro a ha
        exact (hzero a ha).mpr (hmost a ha)
    | some a =>
        obtain ⟨hpos, ha, -, -⟩ := mostFound_eq_some_iff.mp hmost
        have hpos' : 0 < count' a := by
          have hiff := hzero a ha
          omega
        exact mostFound_eq_some_iff.mpr ⟨hpos', ha, fun b hb => (hlead a hmost b hb).1,
          fun b hb => (hlead a hmost b hb).2⟩

/-- Where candidates are counted, the strongest is the one found most often. -/
theorem strongest_eq_mostFound (count : α → Nat) (candidates : List α) :
    strongest count 0 candidates = (mostFound count candidates).map fun a => (a, count a) := by
  induction candidates using List.reverseRecOn with
  | nil => rfl
  | append_singleton candidates a ih =>
      rw [strongest_concat, ih, mostFound, mostFound, List.argmax_concat]
      cases candidates.argmax count with
      | none => simp [Option.filter]
      | some best =>
          by_cases hbest : 0 < count best
          · by_cases hlt : count best < count a
            · have ha : 0 < count a := Nat.lt_trans hbest hlt
              simp [Option.filter, hbest, hlt, ha]
            · simp [Option.filter, hbest, hlt]
          · have hzero : count best = 0 := by omega
            by_cases ha : 0 < count a
            · simp [Option.filter, hzero, ha]
            · simp [Option.filter, hzero, ha]

end MostFound

/-! ### Escapes to consider -/

/-- Without repetitions, texts stand in the order of their first places. -/
theorem pairwise_idxOf_eraseDups (texts : List Text) :
    texts.eraseDups.Pairwise fun a b => texts.idxOf a < texts.idxOf b := by
  induction texts using List.reverseRecOn with
  | nil => exact .nil
  | append_singleton texts t ih =>
      have hearlier : texts.eraseDups.Pairwise fun a b =>
          (texts ++ [t]).idxOf a < (texts ++ [t]).idxOf b := by
        refine ih.imp_of_mem ?_
        intro a b ha hb hlt
        rwa [List.idxOf_append_of_mem (List.mem_eraseDups.mp ha),
          List.idxOf_append_of_mem (List.mem_eraseDups.mp hb)]
      rw [Tunables.eraseDups_concat]
      split
      · exact hearlier
      · next hnew =>
        rw [List.pairwise_append]
        refine ⟨hearlier, List.pairwise_singleton _ t, ?_⟩
        intro a ha b hb
        obtain rfl : b = t := List.mem_singleton.mp hb
        have ha := List.mem_eraseDups.mp ha
        rw [List.idxOf_append_of_mem ha, List.idxOf_append_of_notMem hnew]
        exact Nat.lt_of_lt_of_le (List.idxOf_lt_length_iff.mpr ha) (Nat.le_add_right _ _)

namespace Evidence

/-! ### Delimiters and quotes that are escaped -/

section Escapes

open Pattern

variable {e delimiter q t rest : Text} {atStart : Bool} {n : Nat}

/-- The escape stands before so many delimiters and quotes. The text is read from left to right, and
behind each of them reading goes on with the next; where both may follow, it is the delimiter. -/
inductive Escapes (e delimiter q : Text) : Text → Nat → Prop
  | done : Escapes e delimiter q [] 0
  | other {c : Char} {t : Text} {n : Nat} : ¬ e ++ delimiter <+: c :: t → ¬ e ++ q <+: c :: t →
      Escapes e delimiter q t n → Escapes e delimiter q (c :: t) n
  | delimiter {rest : Text} {n : Nat} : Escapes e delimiter q rest n →
      Escapes e delimiter q (e ++ delimiter ++ rest) (n + 1)
  | quote {rest : Text} {n : Nat} : ¬ e ++ delimiter <+: e ++ q ++ rest →
      Escapes e delimiter q rest n → Escapes e delimiter q (e ++ q ++ rest) (n + 1)

/-- The pattern whose matches are counted for an escape. -/
def escaping (e delimiter q : Text) : Pattern :=
  both (literal e) (either (literal delimiter) (literal q))

theorem mem_escaping :
    rest ∈ escaping e delimiter q atStart t ↔ t = e ++ delimiter ++ rest ∨ t = e ++ q ++ rest := by
  simp only [escaping, mem_both, mem_either, mem_literal, List.append_assoc]
  constructor
  · rintro ⟨after, rfl, rfl | rfl⟩
    · exact .inl rfl
    · exact .inr rfl
  · rintro (rfl | rfl)
    · exact ⟨delimiter ++ rest, rfl, .inl rfl⟩
    · exact ⟨q ++ rest, rfl, .inr rfl⟩

theorem escaping_eq_nil_iff : escaping e delimiter q atStart t = [] ↔
    ¬ e ++ delimiter <+: t ∧ ¬ e ++ q <+: t := by
  simp only [List.eq_nil_iff_forall_not_mem, mem_escaping, not_or, forall_and, List.IsPrefix,
    not_exists, eq_comm (a := t)]

/-- A delimiter that is escaped is matched before anything else. -/
theorem escaping_delimiter (e delimiter q : Text) (atStart : Bool) (rest : Text) : ∃ others,
    escaping e delimiter q atStart (e ++ delimiter ++ rest) = rest :: others := by
  refine ⟨literal q false (delimiter ++ rest), ?_⟩
  simp [escaping, both, either, literal, List.append_assoc, Text.after?_append]

theorem escaping_quote (atStart : Bool) (h : ¬ e ++ delimiter <+: e ++ q ++ rest) :
    escaping e delimiter q atStart (e ++ q ++ rest) = [rest] := by
  have hother : Text.after? delimiter (q ++ rest) = none := by
    rw [List.append_assoc, List.prefix_append_right_inj, ← Text.startsWith_iff] at h
    simpa [Text.startsWith] using h
  simp [escaping, both, either, literal, List.append_assoc, Text.after?_append, hother]

theorem length_lt_length_append {word : Text} (h : word ≠ []) (rest : Text) :
    rest.length < (word ++ rest).length := by
  have hpos := List.length_pos_iff.mpr h
  rw [List.length_append]
  omega

variable (hdelimiter : e ++ delimiter ≠ []) (hquote : e ++ q ≠ [])

include hdelimiter hquote

/-- What is counted are the delimiters and quotes that are escaped. -/
theorem Escapes.countFrom_eq (h : Escapes e delimiter q t n) :
    countFrom (escaping e delimiter q) false 0 t = n := by
  induction h with
  | done =>
      have hnone : escaping e delimiter q false [] = [] := by
        rw [escaping_eq_nil_iff, List.prefix_nil, List.prefix_nil]
        exact ⟨hdelimiter, hquote⟩
      simp [countFrom, matchesAt, hnone]
  | other hd hq _ ih => rw [countFrom_none (escaping_eq_nil_iff.mpr ⟨hd, hq⟩), ih]
  | delimiter _ ih =>
      obtain ⟨others, hmatch⟩ := escaping_delimiter e delimiter q false _
      obtain ⟨c, u, hword⟩ := List.exists_cons_of_ne_nil hdelimiter
      rw [hword] at hmatch ⊢
      rw [List.cons_append, countFrom_match hmatch, ih]
  | quote h _ ih =>
      have hmatch := escaping_quote false h
      obtain ⟨c, u, hword⟩ := List.exists_cons_of_ne_nil hquote
      rw [hword] at hmatch ⊢
      rw [List.cons_append, countFrom_match hmatch, ih]

theorem exists_escapes (t : Text) : ∃ n, Escapes e delimiter q t n := by
  by_cases hd : e ++ delimiter <+: t
  · obtain ⟨rest, rfl⟩ := hd
    have hshorter := length_lt_length_append hdelimiter rest
    obtain ⟨n, hn⟩ := exists_escapes rest
    exact ⟨n + 1, hn.delimiter⟩
  · by_cases hq : e ++ q <+: t
    · obtain ⟨rest, rfl⟩ := hq
      have hshorter := length_lt_length_append hquote rest
      obtain ⟨n, hn⟩ := exists_escapes rest
      exact ⟨n + 1, hn.quote hd⟩
    · cases t with
      | nil => exact ⟨0, .done⟩
      | cons c t =>
          obtain ⟨n, hn⟩ := exists_escapes t
          exact ⟨n, hn.other hd hq⟩
termination_by t.length

/-- An escape is counted once for each delimiter and quote that it stands before in a line. -/
theorem exists_escapeCount_eq_sum (texts : List Text) :
    ∃ counts, List.Forall₂ (Escapes e delimiter q) texts counts ∧
      escapeCount texts delimiter q e = counts.sum := by
  induction texts with
  | nil => exact ⟨[], .nil, rfl⟩
  | cons t texts ih =>
      obtain ⟨counts, hcounts, hsum⟩ := ih
      obtain ⟨n, hn⟩ := exists_escapes hdelimiter hquote t
      refine ⟨n :: counts, .cons hn hcounts, ?_⟩
      have hline : (escaping e delimiter q).count t = n :=
        (countFrom_start rfl).trans (hn.countFrom_eq hdelimiter hquote)
      rw [List.sum_cons, ← hsum, ← hline]
      rfl

end Escapes

/-! ### Lines that a marker marks -/

section Marks

variable {marker delimiter line : Text} {quote nullString : Option Text} {lines : List Line}

instance : Decidable (StartsAsData delimiter quote nullString line) :=
  decidable_of_iff _ isData_iff

/-- The line starts with the marker, and not as data. -/
def Marks (marker delimiter : Text) (quote nullString : Option Text) (line : Text) : Prop :=
  marker <+: line ∧ ¬ StartsAsData delimiter quote nullString line

instance : Decidable (Marks marker delimiter quote nullString line) :=
  inferInstanceAs (Decidable (_ ∧ ¬ _))

theorem unmarked_eq_filter : unmarked delimiter quote nullString marker lines =
    lines.filter fun line => ¬ Marks marker delimiter quote nullString line.text := by
  apply List.filter_congr
  intro line _
  rw [Bool.eq_iff_iff, decide_eq_true_eq, Marks, ← Text.startsWith_iff, ← isData_iff]
  cases Text.startsWith marker line.text <;> simp

/-- A marker leaves as many lines less as it marks. -/
theorem length_sub_length_unmarked :
    lines.length - (unmarked delimiter quote nullString marker lines).length =
      lines.countP fun line => Marks marker delimiter quote nullString line.text := by
  have hparts := List.length_eq_countP_add_countP
    (fun line : Line => decide (Marks marker delimiter quote nullString line.text)) (l := lines)
  have hleft : (unmarked delimiter quote nullString marker lines).length =
      lines.countP fun line => ¬ Marks marker delimiter quote nullString line.text := by
    rw [unmarked_eq_filter, List.countP_eq_length_filter]
  simp only [decide_eq_true_eq] at hparts
  omega

/-- The marker found on most lines is chosen, and the lines that it marks are left out. -/
theorem commentMarker_eq (c : Tunables) (delimiter : Text) (quote nullString : Option Text)
    (lines : List Line) :
    ∃ marker, commentMarker c delimiter quote nullString lines =
        (marker, lines.filter fun line =>
          ∀ m ∈ marker, ¬ Marks m delimiter quote nullString line.text) ∧
      marker = mostFound (fun m => lines.countP fun line =>
        Marks m delimiter quote nullString line.text) c.commentMarkers := by
  refine ⟨_, ?_, rfl⟩
  unfold commentMarker
  simp only [length_sub_length_unmarked, strongest_eq_mostFound]
  cases mostFound (fun m => lines.countP fun line => Marks m delimiter quote nullString line.text)
      c.commentMarkers with
  | none => simp
  | some m => simp [unmarked_eq_filter]

end Marks

/-- Escape and marker are the first of the candidates that are found most often: an escape before the
most delimiters and quotes, a marker on the most lines. Without any, only a double quote has an
escape, and there is no marker and all lines are kept. The lines kept are those that the marker does
not mark, and so all that start as data. The escapes considered are those given, each once, in the
order of their first places. -/
theorem escape_and_marker_mostFound (c : Tunables) (texts : List Text) (lines : List Line)
    (delimiter q : Text) (quote nullString : Option Text) :
    (escape c texts delimiter q =
        (mostFound (escapeCount texts delimiter q) (c.escapesFor q)).or
          (if q = ['"'] then some ['"'] else none)) ∧
      (∀ e, e ++ delimiter ≠ [] → e ++ q ≠ [] →
        ∃ counts, List.Forall₂ (Escapes e delimiter q) texts counts ∧
          escapeCount texts delimiter q e = counts.sum) ∧
      (∃ marker kept, commentMarker c delimiter quote nullString lines = (marker, kept) ∧
        marker = mostFound (fun m => lines.countP fun line =>
          Marks m delimiter quote nullString line.text) c.commentMarkers ∧
        (kept = lines.filter fun line =>
          ∀ m ∈ marker, ¬ Marks m delimiter quote nullString line.text) ∧
        (marker = none → kept = lines) ∧
        ∀ line ∈ lines, StartsAsData delimiter quote nullString line.text → line ∈ kept) ∧
      (∀ e, e ∈ c.escapesFor q ↔ ∃ given ∈ c.escapes, given.getD q = e) ∧
      (c.escapesFor q).Pairwise fun a b =>
        (c.escapes.map (·.getD q)).idxOf a < (c.escapes.map (·.getD q)).idxOf b := by
  obtain ⟨marker, hmarker, hmost⟩ := commentMarker_eq c delimiter quote nullString lines
  refine ⟨?_, fun e hd hq => exists_escapeCount_eq_sum hd hq texts,
    ⟨marker, _, hmarker, hmost, rfl, ?_, ?_⟩, ?_, ?_⟩
  · unfold escape
    rw [strongest_eq_mostFound]
    cases mostFound (escapeCount texts delimiter q) (c.escapesFor q) <;> rfl
  · rintro rfl
    simp
  · intro line hline hdata
    rw [List.mem_filter, decide_eq_true_eq]
    exact ⟨hline, fun m _ hmarks => hmarks.2 hdata⟩
  · intro e
    exact Tunables.mem_escapesFor_iff
  · rw [c.escapesFor_eq_eraseDups]
    exact pairwise_idxOf_eraseDups _

end Evidence

end Delimited
