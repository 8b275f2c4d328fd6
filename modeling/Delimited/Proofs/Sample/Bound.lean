/- The lines of a bounded sample. Their number is bounded last, and of the code points within the
other bound the first line always stays, up to the bound or a break. -/
import Delimited.Sample.Bound

namespace Delimited.Sample

def isBreak (c : Char) : Bool := c == '\r' || c == '\n'

/-- The lines within the first `size` code points. Where the text goes on after them the last one is
left out, unless it is the only one. -/
def linesWithin (size : Nat) (t : Text) : List Text :=
  if size < t.length then
    if 1 < (pieces (t.take size)).length then (pieces (t.take size)).dropLast
    else pieces (t.take size)
  else allLines (t.take size)

theorem upTo_ofNat {α : Type} (n : Nat) (xs : List α) : Stretch.upTo (n : Int) xs = xs.take n := by
  rw [Stretch.upTo, Stretch.place_ofNat, ← List.take_take, List.take_length]

theorem readAhead_ofNat (size : Nat) (t : Text) : readAhead (size : Int) t = t.take (size + 1) := by
  unfold readAhead
  rw [if_neg (by omega)]
  rfl

/-- One code point more than the bound tells whether the text goes on. -/
theorem bound_take (size count : Nat) (t : Text) :
    bound (size : Int) (count : Int) (t.take (size + 1)) = (linesWithin size t).take count := by
  have hhead : (t.take (size + 1)).take size = t.take size := by
    rw [List.take_take, Nat.min_eq_left (Nat.le_succ size)]
  have hgoesOn : (size : Int) < ((t.take (size + 1)).length : Int) ↔ size < t.length := by
    rw [List.length_take]
    omega
  simp only [bound, upTo_ofNat, hhead, hgoesOn, linesWithin]

theorem ofText_ofNat (size count : Nat) (t : Text) :
    ofText (size : Int) (count : Int) t = numbered ((linesWithin size t).take count) := by
  rw [ofText, readAhead_ofNat, bound_take]

theorem map_text_numbered (ts : List Text) : (numbered ts).map Line.text = ts := by
  apply List.ext_getElem
  · simp [numbered]
  · intro i h₁ h₂
    simp [numbered]

theorem numbered_inj {ts ts' : List Text} : numbered ts = numbered ts' ↔ ts = ts' := by
  constructor
  · intro h
    rw [← map_text_numbered ts, ← map_text_numbered ts', h]
  · exact congrArg numbered

/-! ### The first line -/

theorem head?_pieces (t : Text) : (pieces t).head? = some (t.takeWhile fun c => !isBreak c) := by
  fun_induction pieces t with
  | case1 => rfl
  | case2 | case3 | case4 => simp [isBreak]
  | case5 c t _ _ _ hnil ih =>
      rw [hnil] at ih
      contradiction
  | case6 c t _ hreturn hfeed piece others hcons ih =>
      rw [hcons] at ih
      obtain rfl := Option.some.inj ih
      have hbreak : isBreak c = false := by simpa [isBreak] using ⟨hreturn, hfeed⟩
      simp [hbreak]

theorem pieces_ne_nil (t : Text) : pieces t ≠ [] := by
  intro hnil
  have hhead := head?_pieces t
  rw [hnil] at hhead
  contradiction

/-- Only an empty text is one empty piece. -/
theorem pieces_ne_empty {t : Text} (ht : t ≠ []) : pieces t ≠ [[]] := by
  fun_induction pieces t with
  | case1 => contradiction
  | case2 t | case3 t | case4 t => simp [pieces_ne_nil t]
  | case5 | case6 => simp

theorem pieces_of_unbroken {t : Text} (h : ∀ c ∈ t, isBreak c = false) : pieces t = [t] := by
  fun_induction pieces t with
  | case1 => rfl
  | case2 | case3 | case4 => simp [isBreak] at h
  | case5 c t _ _ _ hnil ih =>
      rw [hnil] at ih
      exact absurd (ih fun c hc => h c (List.mem_cons_of_mem _ hc)) nofun
  | case6 c t _ _ _ piece others hcons ih =>
      rw [hcons] at ih
      obtain ⟨rfl, rfl⟩ : piece = t ∧ others = [] := by
        simpa using ih fun c hc => h c (List.mem_cons_of_mem _ hc)
      rfl

theorem linesWithin_nil (size : Nat) : linesWithin size [] = [] := by
  simp [linesWithin, allLines, pieces]

/-- Leaving out the last of several lines leaves the first. -/
theorem head?_dropLast {ts : List Text} (h : 1 < ts.length) : ts.dropLast.head? = ts.head? := by
  match ts with
  | [] | [_] => simp at h
  | _ :: _ :: _ => rfl

theorem head?_linesWithin {t : Text} (ht : t ≠ []) (size : Nat) :
    (linesWithin size t).head? = some ((t.take size).takeWhile fun c => !isBreak c) := by
  rw [← head?_pieces]
  unfold linesWithin
  split
  · split
    · next hmany => exact head?_dropLast hmany
    · rfl
  · next hall =>
    rw [List.take_of_length_le (Nat.not_lt.mp hall)]
    unfold allLines
    split
    · next hend =>
      refine head?_dropLast ?_
      match hpieces : pieces t with
      | [] => exact absurd hpieces (pieces_ne_nil t)
      | [piece] =>
          rw [hpieces] at hend
          obtain rfl : piece = [] := Option.some.inj hend
          exact absurd hpieces (pieces_ne_empty ht)
      | _ :: _ :: _ => simp
    · rfl

theorem linesWithin_of_unbroken {t : Text} (ht : t ≠ []) {size : Nat}
    (h : ∀ c ∈ t.take size, isBreak c = false) : linesWithin size t = [t.take size] := by
  have hpieces := pieces_of_unbroken h
  unfold linesWithin
  split
  · rw [hpieces]
    rfl
  · next hall =>
    have hwhole := List.take_of_length_le (Nat.not_lt.mp hall)
    unfold allLines
    rw [hpieces, if_neg]
    simpa [hwhole] using ht

/-! ### A mark before the text -/

theorem take_of_replicate {mark : Char} {size : Nat} {t : Text}
    (h : List.replicate size mark <+: t) : t.take size = List.replicate size mark := by
  have htake := (List.prefix_iff_eq_take.mp h).symm
  rwa [List.length_replicate] at htake

/-- A stretch that is the mark and then itself again, cut by one, is all marks. -/
theorem replicate_of_takeWhile {mark : Char} {p : Char → Bool} {n : Nat} {t : Text}
    (h : (t.take (n + 1)).takeWhile p = mark :: (t.take n).takeWhile p) :
    List.replicate (n + 1) mark <+: t := by
  induction n generalizing t with
  | zero =>
      cases t with
      | nil => simp at h
      | cons c t =>
          cases hc : p c <;> simp_all
  | succ n ih =>
      cases t with
      | nil => simp at h
      | cons c t =>
          cases hc : p c with
          | false => simp [hc] at h
          | true =>
              simp only [List.take_succ_cons, List.takeWhile_cons_of_pos hc, List.cons.injEq] at h
              obtain ⟨rfl, h⟩ := h
              rw [List.replicate_succ]
              exact List.cons_prefix_cons.mpr ⟨rfl, ih h⟩

/-- A mark that is no break makes a difference to the sample, unless no line is taken, or nothing
but such marks are read and the text goes on after the first of them. -/
theorem ofText_mark_iff {mark : Char} (hmark : isBreak mark = false) (size count : Nat) (t : Text) :
    ofText size count t = ofText size count (mark :: t) ↔
      count = 0 ∨ t ≠ [] ∧ List.replicate size mark <+: t := by
  rw [ofText_ofNat, ofText_ofNat, numbered_inj]
  constructor
  · intro h
    refine Decidable.or_iff_not_imp_left.mpr fun hcount => ?_
    have hfirst : (linesWithin size t).head? = (linesWithin size (mark :: t)).head? := by
      have hhead := congrArg List.head? h
      rwa [List.head?_take, List.head?_take, if_neg hcount, if_neg hcount] at hhead
    rw [head?_linesWithin (List.cons_ne_nil mark t)] at hfirst
    have ht : t ≠ [] := by
      rintro rfl
      rw [linesWithin_nil] at hfirst
      contradiction
    rw [head?_linesWithin ht] at hfirst
    refine ⟨ht, ?_⟩
    cases size with
    | zero => exact List.nil_prefix
    | succ n =>
        apply replicate_of_takeWhile
        rw [Option.some.inj hfirst, List.take_succ_cons, List.takeWhile_cons_of_pos]
        simpa using hmark
  · rintro (rfl | ⟨ht, hmarks⟩)
    · rw [List.take_zero, List.take_zero]
    · have hlonger : List.replicate size mark <+: mark :: List.replicate size mark := by
        rw [← List.replicate_succ, List.replicate_succ']
        exact List.prefix_append _ _
      have hmore : List.replicate size mark <+: mark :: t :=
        hlonger.trans (List.cons_prefix_cons.mpr ⟨rfl, hmarks⟩)
      have hunbroken : ∀ c ∈ List.replicate size mark, isBreak c = false := by
        intro c hc
        rw [List.eq_of_mem_replicate hc, hmark]
      have hlines := linesWithin_of_unbroken ht (take_of_replicate hmarks ▸ hunbroken)
      have hlines' := linesWithin_of_unbroken (List.cons_ne_nil mark t)
        (take_of_replicate hmore ▸ hunbroken)
      rw [hlines, hlines', take_of_replicate hmarks, take_of_replicate hmore]

end Delimited.Sample
