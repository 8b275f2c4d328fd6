/- The steps of a scan: one code point inside quotes, a line end inside them, a closing quote, and
the places where a bare field or a quote opens a column. What each leaves of its line is a suffix. -/
import Delimited.Record.Split

namespace Delimited

/-- The value that a scan ended with, whether it was quoted, and where the scan stopped. -/
def Scan.ended : Scan → Option (Text × Bool × Cursor)
  | .more value quoted _ stop | .last value quoted _ stop => some (value, quoted, stop)
  | _ => none

@[simp] theorem Scan.ended_ofRest (value : Text) (quoted : Bool) (earlier : List Line) (line : Line)
    (pending : List Line) (rest : Option Text) :
    (Scan.ofRest value quoted earlier line pending rest).ended =
      some (value, quoted, ⟨line, rest.getD [], pending⟩) := by
  cases rest <;> rfl

section Cut

variable {quote : Char} {escape : Option Char} {limit : Int} {size : Nat} {c : Char}

theorem cutQuoted_plain (hq : c ≠ quote) (he : escape ≠ some c) (hs : (size : Int) + 1 ≤ limit)
    (t : Text) :
    cutQuoted quote escape limit size (c :: t) =
      (c :: (cutQuoted quote escape limit (size + 1) t).1,
        (cutQuoted quote escape limit (size + 1) t).2) := by
  have hs' : ¬ limit < (size : Int) + 1 := Int.not_lt.mpr hs
  cases t with
  | nil => simp [cutQuoted, hq, hs']
  | cons c' t => simp [cutQuoted, hq, he, hs']

theorem cutQuoted_doubled (t : Text) :
    cutQuoted quote escape limit size (quote :: quote :: t) =
      (quote :: (cutQuoted quote escape limit (size + 1) t).1,
        (cutQuoted quote escape limit (size + 1) t).2) := by
  simp [cutQuoted]

/-- An escape that is the quote doubles it, and the result is the same. -/
theorem cutQuoted_escaped {e : Char} (he : escape = some e) (hc : c = quote ∨ c = e) (t : Text) :
    cutQuoted quote escape limit size (e :: c :: t) =
      (c :: (cutQuoted quote escape limit (size + 1) t).1,
        (cutQuoted quote escape limit (size + 1) t).2) := by
  by_cases heq : e = quote
  · subst heq
    obtain rfl : c = e := hc.elim id id
    exact cutQuoted_doubled t
  · have hc' : c = quote ∨ escape = some c := hc.imp id fun h => by rw [he, h]
    simp [cutQuoted, heq, he, hc'.imp id (fun h => Option.some.inj (he ▸ h))]

theorem cutQuoted_closed {t : Text} (ht : t.head? ≠ some quote) :
    cutQuoted quote escape limit size (quote :: t) = ([], .closed t) := by
  cases t with
  | nil => simp [cutQuoted]
  | cons c' t =>
      have hc : c' ≠ quote := by simpa using ht
      simp [cutQuoted, hc]

/-- An escape makes nothing else literal, and is itself there. -/
theorem cutQuoted_alone {e : Char} {t : Text} (he : escape = some e) (hne : e ≠ quote)
    (hq : t.head? ≠ some quote) (ht : t.head? ≠ some e) :
    cutQuoted quote escape limit size (e :: t) =
      (e :: (cutQuoted quote escape limit (size + 1) t).1,
        (cutQuoted quote escape limit (size + 1) t).2) := by
  cases t with
  | nil => simp [cutQuoted, hne, he]
  | cons c t =>
      have hc : ¬ (c = quote ∨ escape = some c) := by
        rintro (rfl | hc)
        · exact hq rfl
        · exact ht (hc.symm.trans he)
      simp only [cutQuoted, if_neg hne, if_pos he, if_neg hc]

theorem cutQuoted_tooLong (hq : c ≠ quote) (he : escape ≠ some c) (hs : limit < (size : Int) + 1)
    (t : Text) : cutQuoted quote escape limit size (c :: t) = ([], .tooLong t) := by
  cases t with
  | nil => simp [cutQuoted, hq, he, hs]
  | cons c' t => simp [cutQuoted, hq, he, hs]

end Cut

section Inside

variable {d : Dialect} {quote : Char} {limit : Int} {value : Text} {earlier : List Line}
  {line : Line} {pending : List Line}

/-- What stands for one code point of the value is read as that code point. -/
theorem scanQuoted_read (read : Text) {rest : Text} {c : Char}
    (h : cutQuoted quote d.escapeMark limit value.length (read ++ rest) =
      (c :: (cutQuoted quote d.escapeMark limit (value.length + 1) rest).1,
        (cutQuoted quote d.escapeMark limit (value.length + 1) rest).2)) :
    scanQuoted d quote limit value earlier line (read ++ rest) pending =
      scanQuoted d quote limit (value ++ [c]) earlier line rest pending := by
  have hlen : (value ++ [c]).length = value.length + 1 := by simp
  rw [scanQuoted.eq_def, scanQuoted.eq_def d quote limit (value ++ [c])]
  simp only [hlen, h]
  obtain ⟨part, stop⟩ := cutQuoted quote d.escapeMark limit (value.length + 1) rest
  cases stop <;> cases pending <;> simp

theorem scanQuoted_lineEnd (next : Line) :
    scanQuoted d quote limit value earlier line [] (next :: pending) =
      scanQuoted d quote limit (value ++ ['\n']) (earlier ++ [line]) next next.text pending := by
  rw [scanQuoted.eq_def]
  simp [cutQuoted]

theorem scanQuoted_close {t : Text} {rest : Option Text} (ht : t.head? ≠ some quote)
    (h : closing d.delimiter t = .ended rest) :
    scanQuoted d quote limit value earlier line (quote :: t) pending =
      .ofRest value true earlier line pending rest := by
  rw [scanQuoted.eq_def]
  simp [cutQuoted_closed ht, h]

theorem scanQuoted_stray {t rest : Text} {found : Char} (ht : t.head? ≠ some quote)
    (h : closing d.delimiter t = .stray found rest) :
    scanQuoted d quote limit value earlier line (quote :: t) pending =
      .malformed (.strayCharacter found quote) earlier ⟨line, rest, pending⟩ := by
  rw [scanQuoted.eq_def]
  simp [cutQuoted_closed ht, h]

theorem scanQuoted_oversized {c : Char} (hq : c ≠ quote) (he : d.escapeMark ≠ some c)
    (hs : limit < (value.length : Int) + 1) (t : Text) :
    scanQuoted d quote limit value earlier line (c :: t) pending =
      .malformed (.oversized limit) earlier ⟨line, t, pending⟩ := by
  rw [scanQuoted.eq_def]
  simp [cutQuoted_tooLong hq he hs]

theorem scanQuoted_unclosed :
    scanQuoted d quote limit value earlier line [] [] =
      .unclosed (earlier ++ [line]) line.number := by
  rw [scanQuoted.eq_def]
  simp [cutQuoted]

/-- A value that was opened by a quote is quoted when it ends. -/
theorem quoted_of_scanQuoted {rest value' : Text} {quoted : Bool} {stop : Cursor}
    (h : (scanQuoted d quote limit value earlier line rest pending).ended =
      some (value', quoted, stop)) : quoted = true := by
  fun_induction scanQuoted d quote limit value earlier line rest pending with
  | case1 => simp_all
  | case2 | case3 | case4 => simp [Scan.ended] at h
  | case5 value earlier line rest part next pending hcut ih => exact ih h

end Inside

section Column

variable {d : Dialect} {limit : Int} {line : Line} {rest t : Text} {pending : List Line}

/-- Without trimming a column is opened by the quote at its very start, or it is bare. -/
theorem opening_untrimmed (d : Dialect) (t : Text) :
    opening d false t = .bare t ∨ ∃ quote inside, t = quote :: inside ∧
      d.quoteMark = some quote ∧ opening d false t = .quoted quote inside := by
  cases t with
  | nil => exact .inl rfl
  | cons c t =>
      by_cases hdelimiter : Text.startsWith d.delimiter (c :: t) = true
      · exact .inl (by rw [opening, if_pos hdelimiter])
      · by_cases hquote : d.quoteMark = some c
        · exact .inr ⟨c, t, rfl, hquote, by simp [opening, hdelimiter, hquote]⟩
        · exact .inl (by simp [opening, hdelimiter, hquote])

theorem scanColumn_bare (hd : d.delimiter ≠ []) (h : opening d d.trim rest = .bare t) :
    scanColumn d limit ⟨line, rest, pending⟩ =
      .ofRest (if d.trim then Text.trimRight (cutBare d.delimiter t).1 else (cutBare d.delimiter t).1)
        false [] line pending (cutBare d.delimiter t).2 := by
  unfold scanColumn
  split
  · contradiction
  · contradiction
  · simp [h]

theorem scanColumn_quoted {quote : Char} (hd : d.delimiter ≠ [])
    (h : opening d d.trim rest = .quoted quote t) :
    scanColumn d limit ⟨line, rest, pending⟩ = scanQuoted d quote limit [] [] line t pending := by
  unfold scanColumn
  split
  · contradiction
  · contradiction
  · simp [h]

end Column

section Rest

variable {delimiter t rest : Text}

theorem suffix_of_cutBare (h : (cutBare delimiter t).2 = some rest) : rest <:+ t := by
  fun_induction cutBare delimiter t with
  | case1 => simp at h
  | case2 c t rest' hafter =>
      obtain rfl := Option.some.inj h
      rw [Text.after?_eq_some_iff.mp hafter]
      exact List.suffix_append _ _
  | case3 c t hafter ih => exact (ih h).trans (List.suffix_cons c t)

theorem suffix_of_closing (h : closing delimiter t = .ended (some rest)) : rest <:+ t := by
  fun_induction closing delimiter t with
  | case1 => simp at h
  | case2 c t rest' hafter =>
      obtain rfl : rest' = rest := by simpa using h
      rw [Text.after?_eq_some_iff.mp hafter]
      exact List.suffix_append _ _
  | case3 c t hafter hspace ih => exact (ih h).trans (List.suffix_cons c t)
  | case4 => simp at h

theorem suffix_of_cutQuoted {quote : Char} {escape : Option Char} {limit : Int} {size : Nat}
    (h : (cutQuoted quote escape limit size t).2 = .closed rest) : rest <:+ t := by
  fun_induction cutQuoted quote escape limit size t with
  | case1 | case3 | case4 | case9 => simp at h
  | case2 =>
      obtain rfl : [] = rest := by simpa using h
      exact List.nil_suffix
  | case6 size c' t =>
      obtain rfl : c' :: t = rest := by simpa using h
      exact List.suffix_cons _ _
  -- A quote or an escape takes the code point after it along.
  | case5 _ _ _ ih | case7 _ _ _ _ _ _ _ _ ih => exact (ih h).trans (List.suffix_append [_, _] _)
  | case8 _ _ _ _ _ _ _ _ ih | case10 _ _ _ _ _ _ _ _ ih =>
      exact (ih h).trans (List.suffix_cons _ _)

end Rest

end Delimited
