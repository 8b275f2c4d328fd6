/- A bounded sample holds whole lines. The pieces of a text but the last stay what they are when the
text goes on, also where the bound falls inside a break, so the sample is a prefix of the lines of
the whole text and has every line that is ended within the bound; only a single line longer than the
bound is cut (`bound_wholeLines`). -/
import Delimited.Proofs.Sample.Bound
import Mathlib.Data.List.Infix

namespace Delimited.Sample

variable {s t : Text} {size : Nat}

/-! ### Pieces of a text that goes on -/

theorem dropLast_cons_pieces (piece t : Text) :
    (piece :: pieces t).dropLast = piece :: (pieces t).dropLast :=
  List.dropLast_cons_of_ne_nil (pieces_ne_nil t)

/-- A carriage return ends an empty piece, alone or with the line feed after it. -/
theorem pieces_return (t : Text) : ∃ t', pieces ('\r' :: t) = [] :: pieces t' := by
  match t with
  | [] => exact ⟨[], rfl⟩
  | c :: t =>
      by_cases hfeed : c = '\n'
      · subst hfeed
        exact ⟨t, rfl⟩
      · exact ⟨c :: t, by simp [pieces, hfeed]⟩

/-- What is no break goes before the first piece. -/
theorem pieces_cons {c : Char} (hc : isBreak c = false) {piece : Text} {others : List Text}
    (h : pieces t = piece :: others) : pieces (c :: t) = (c :: piece) :: others := by
  simp only [isBreak, Bool.or_eq_false_iff, beq_eq_false_iff_ne] at hc
  rw [pieces, h]
  · exact fun _ hreturn _ => hc.1 hreturn
  · exact hc.1
  · exact hc.2

/-- The pieces up to the last break are the same whatever comes after the text. -/
theorem dropLast_pieces_append (s t : Text) :
    (pieces s).dropLast <+: (pieces (s ++ t)).dropLast := by
  induction s using pieces.induct with
  | case1 => exact List.nil_prefix
  | case2 s ih => simpa [pieces, dropLast_cons_pieces] using ih
  | case3 s hfeed ih =>
      cases s with
      | nil =>
          -- A line feed after the text belongs to the same break.
          obtain ⟨t', ht'⟩ := pieces_return t
          simp [pieces, ht', dropLast_cons_pieces]
      | cons c s =>
          have hc : c ≠ '\n' := fun h => hfeed s (h ▸ rfl)
          simpa [pieces, hc, dropLast_cons_pieces] using ih
  | case4 s ih => simpa [pieces, dropLast_cons_pieces] using ih
  | case5 _ s _ _ _ hnil => exact absurd hnil (pieces_ne_nil s)
  | case6 c s _ hreturn hfeed piece others hpieces ih =>
      have hc : isBreak c = false := by simpa [isBreak] using ⟨hreturn, hfeed⟩
      obtain ⟨piece', others', hpieces'⟩ := List.exists_cons_of_ne_nil (pieces_ne_nil (s ++ t))
      rw [List.cons_append, pieces_cons hc hpieces, pieces_cons hc hpieces']
      rw [hpieces, hpieces'] at ih
      cases others with
      | nil => exact List.nil_prefix
      | cons _ _ =>
          cases others' with
          | nil => simp at ih
          | cons _ _ => simpa [List.cons_prefix_cons] using ih

theorem one_lt_length_pieces (h : ∃ c ∈ t, isBreak c = true) : 1 < (pieces t).length := by
  have hpositive : ∀ t, 0 < (pieces t).length := fun t => List.length_pos_iff.mpr (pieces_ne_nil t)
  induction t using pieces.induct with
  | case1 => simp at h
  | case2 t => simpa [pieces] using hpositive t
  | case3 t hfeed =>
      obtain ⟨t', ht'⟩ := pieces_return t
      simpa [ht'] using hpositive t'
  | case4 t => simpa [pieces] using hpositive t
  | case5 _ t _ _ _ hnil => exact absurd hnil (pieces_ne_nil t)
  | case6 c t _ hreturn hfeed piece others hpieces ih =>
      have hc : isBreak c = false := by simpa [isBreak] using ⟨hreturn, hfeed⟩
      rw [pieces_cons hc hpieces]
      rw [hpieces] at ih
      exact ih (by simpa [hc] using h)

theorem getLast?_cons_pieces (piece t : Text) :
    (piece :: pieces t).getLast? = (pieces t).getLast? := by
  obtain ⟨piece', others, h⟩ := List.exists_cons_of_ne_nil (pieces_ne_nil t)
  rw [h, List.getLast?_cons_cons]

/-- The text is empty or ends with a break. -/
def IsEnded (t : Text) : Prop := ∀ c ∈ t.getLast?, isBreak c = true

theorem IsEnded.tail {c : Char} (h : IsEnded (c :: t)) : IsEnded t := by
  intro last hlast
  refine h last ?_
  rw [Option.mem_def] at hlast ⊢
  rw [List.getLast?_cons, hlast]
  rfl

theorem getLast?_pieces (h : IsEnded t) : (pieces t).getLast? = some [] := by
  induction t using pieces.induct with
  | case1 => rfl
  | case2 t ih => simpa [pieces, getLast?_cons_pieces] using ih h.tail.tail
  | case3 t hfeed ih =>
      cases t with
      | nil => rfl
      | cons c t =>
          have hc : c ≠ '\n' := fun hc => hfeed t (hc ▸ rfl)
          simpa [pieces, hc, getLast?_cons_pieces] using ih h.tail
  | case4 t ih => simpa [pieces, getLast?_cons_pieces] using ih h.tail
  | case5 _ t _ _ _ hnil => exact absurd hnil (pieces_ne_nil t)
  | case6 c t _ hreturn hfeed piece others hpieces ih =>
      have hc : isBreak c = false := by simpa [isBreak] using ⟨hreturn, hfeed⟩
      have ht : t ≠ [] := by
        rintro rfl
        simpa [hc] using h c rfl
      have hlast := ih h.tail
      rw [hpieces] at hlast
      rw [pieces_cons hc hpieces]
      cases others with
      | nil =>
          obtain rfl : piece = [] := Option.some.inj hlast
          exact absurd hpieces (pieces_ne_empty ht)
      | cons piece' others => rwa [List.getLast?_cons_cons] at hlast ⊢

/-! ### Whole lines -/

theorem dropLast_pieces_isPrefix (t : Text) : (pieces t).dropLast <+: allLines t := by
  unfold allLines
  split
  · exact List.prefix_rfl
  · exact List.dropLast_prefix _

/-- The lines of an ended text are lines of every text that goes on after it. -/
theorem allLines_prefix_dropLast (hs : IsEnded s) (hst : s <+: t) :
    allLines s <+: (pieces t).dropLast := by
  obtain ⟨rest, rfl⟩ := hst
  rw [allLines, if_pos (getLast?_pieces hs)]
  exact dropLast_pieces_append s rest

theorem linesWithin_isPrefix
    (h : ¬ (size < t.length ∧ ∀ c ∈ t.take size, isBreak c = false)) :
    linesWithin size t <+: allLines t := by
  unfold linesWithin
  split
  · next hcut =>
    have hbreak : ∃ c ∈ t.take size, isBreak c = true := by simpa [hcut] using h
    rw [if_pos (one_lt_length_pieces hbreak)]
    have hmore := dropLast_pieces_append (t.take size) (t.drop size)
    rw [List.take_append_drop] at hmore
    exact hmore.trans (dropLast_pieces_isPrefix t)
  · next hall => rw [List.take_of_length_le (Nat.not_lt.mp hall)]

/-- No line that is ended within the bound is left out. -/
theorem allLines_prefix_linesWithin (hs : IsEnded s) (hst : s <+: t) (hsize : s.length ≤ size) :
    allLines s <+: linesWithin size t := by
  have hlines : allLines s <+: (pieces (t.take size)).dropLast :=
    allLines_prefix_dropLast hs (List.prefix_take_iff.mpr ⟨hst, hsize⟩)
  unfold linesWithin
  split
  · split
    · exact hlines
    · exact hlines.trans (List.dropLast_prefix _)
  · exact hlines.trans (dropLast_pieces_isPrefix _)

/-- A sample has no more lines than it may. It is a prefix of the lines of the whole text, with
every line that is ended within the bound, unless the text goes on after the bound and has no break
before it: then the one line up to the bound is taken. -/
theorem bound_wholeLines (size count : Nat) (t : Text) :
    (bound size count (t.take (size + 1))).length ≤ count ∧
    (¬ (size < t.length ∧ ∀ c ∈ t.take size, isBreak c = false) →
      bound size count (t.take (size + 1)) <+: allLines t) ∧
    (size < t.length ∧ (∀ c ∈ t.take size, isBreak c = false) →
      bound size count (t.take (size + 1)) = [t.take size].take count) ∧
    ∀ s, IsEnded s → s <+: t → s.length ≤ size →
      (allLines s).take count <+: bound size count (t.take (size + 1)) := by
  rw [bound_take]
  refine ⟨List.length_take_le .., fun h => ?_, fun ⟨hcut, hunbroken⟩ => ?_, ?_⟩
  · exact (List.take_prefix _ _).trans (linesWithin_isPrefix h)
  · rw [linesWithin_of_unbroken (List.ne_nil_of_length_pos (Nat.zero_lt_of_lt hcut)) hunbroken]
  · intro s hs hst hsize
    exact List.IsPrefix.take (allLines_prefix_linesWithin hs hst hsize) count

/-- The bound falls between a carriage return and its line feed. -/
theorem bound_wholeLines_cut_in_break :
    (¬ (2 < ['a', '\r', '\n', 'b'].length ∧
        ∀ c ∈ ['a', '\r', '\n', 'b'].take 2, isBreak c = false)) ∧
      bound 2 9 ['a', '\r', '\n'] = [['a']] ∧
      bound 2 9 ['a', '\r', '\n'] <+: allLines ['a', '\r', '\n', 'b'] := by
  have hbreak : ¬ (2 < ['a', '\r', '\n', 'b'].length ∧
      ∀ c ∈ ['a', '\r', '\n', 'b'].take 2, isBreak c = false) :=
    fun h => absurd (h.2 '\r' (.tail _ (.head _))) (by decide)
  exact ⟨hbreak, by decide, (bound_wholeLines 2 9 ['a', '\r', '\n', 'b']).2.1 hbreak⟩

end Delimited.Sample
