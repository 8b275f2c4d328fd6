/- The decoder reads back what is spelt: a text, and after it at most a part of a code point
(`decode_eq_some_iff`). It gives up just on bytes that no text starts with (`decode_eq_none_iff`). -/
import Delimited.Text.Utf8

namespace Delimited.Utf8

/-- The bytes of a code point, by their number. -/
inductive Spelt : Char → Bytes → Prop
  | one {a : UInt8} : a.toNat ≤ 0x7F → Spelt (point a.toNat []) [a]
  | two {a b : UInt8} : 0xC2 ≤ a.toNat → a.toNat ≤ 0xDF → isSecond a b = true →
      Spelt (point (a.toNat % 32) [b]) [a, b]
  | three {a b c : UInt8} : 0xE0 ≤ a.toNat → a.toNat ≤ 0xEF → isSecond a b = true →
      isTail c = true → Spelt (point (a.toNat % 16) [b, c]) [a, b, c]
  | four {a b c d : UInt8} : 0xF0 ≤ a.toNat → a.toNat ≤ 0xF4 → isSecond a b = true →
      isTail c = true → isTail d = true → Spelt (point (a.toNat % 8) [b, c, d]) [a, b, c, d]

/-- The bytes are first ones of a code point, and others are missing. -/
def Unfinished (bytes : Bytes) : Prop := ∃ c rest, rest ≠ [] ∧ Spelt c (bytes ++ rest)

/-- The bytes hold a text, and after it at most a part of a code point. -/
structure Holds (bytes : Bytes) (t : Text) (pending : Bytes) : Prop where
  spelt : bytes = encode t ++ pending
  unfinished : Unfinished pending

/-! ### Code points -/

theorem exists_byte {n : Nat} (h : n < 256) : ∃ b, UInt8.ofNat n = b ∧ b.toNat = n :=
  ⟨_, rfl, by rw [UInt8.toNat_ofNat', Nat.mod_eq_of_lt h]⟩

theorem eq_byte {b : UInt8} {n : Nat} (h : n = b.toNat) : UInt8.ofNat n = b := by
  rw [h, UInt8.ofNat_toNat]

theorem toNat_ofNat {n : Nat} (h : n.isValidChar) : (Char.ofNat n).val.toNat = n := by
  have hchar : Char.ofNat n = Char.ofNatAux n h := dif_pos h
  exact hchar ▸ rfl

theorem isTail_iff {b : UInt8} : isTail b = true ↔ 0x80 ≤ b.toNat ∧ b.toNat ≤ 0xBF := by
  simp [isTail]

theorem isSecond_iff {a b : UInt8} : isSecond a b = true ↔ (0x80 ≤ b.toNat ∧ b.toNat ≤ 0xBF) ∧
    (a.toNat = 0xE0 → 0xA0 ≤ b.toNat) ∧ (a.toNat = 0xF0 → 0x90 ≤ b.toNat) ∧
    (a.toNat = 0xED → b.toNat ≤ 0x9F) ∧ (a.toNat = 0xF4 → b.toNat ≤ 0x8F) := by
  simp only [isSecond, Bool.and_eq_true, isTail_iff, decide_eq_true_eq]

theorem encodeChar_of_spelt {c : Char} {bytes : Bytes} (h : Spelt c bytes) :
    String.utf8EncodeChar c = bytes := by
  cases h with
  | @one a ha =>
      have hvalue : (point a.toNat []).val.toNat = a.toNat :=
        toNat_ofNat (.inl (by simp only [List.foldl_nil]; omega))
      simp only [String.utf8EncodeChar, hvalue, if_pos ha, UInt8.ofNat_toNat]
  | @two a b hlow hhigh hb =>
      rw [isSecond_iff] at hb
      have hvalue : (point (a.toNat % 32) [b]).val.toNat = 64 * (a.toNat % 32) + b.toNat % 64 :=
        toNat_ofNat (.inl (by simp only [List.foldl_cons, List.foldl_nil]; omega))
      simp only [String.utf8EncodeChar, hvalue]
      rw [if_neg (by omega), if_pos (by omega), eq_byte (b := a) (by omega),
        eq_byte (b := b) (by omega)]
  | @three a b c hlow hhigh hb hc =>
      rw [isSecond_iff] at hb
      rw [isTail_iff] at hc
      have hvalue : (point (a.toNat % 16) [b, c]).val.toNat =
          64 * (64 * (a.toNat % 16) + b.toNat % 64) + c.toNat % 64 :=
        toNat_ofNat (by simp only [List.foldl_cons, List.foldl_nil, Nat.isValidChar]; omega)
      simp only [String.utf8EncodeChar, hvalue]
      rw [if_neg (by omega), if_neg (by omega), if_pos (by omega), eq_byte (b := a) (by omega),
        eq_byte (b := b) (by omega), eq_byte (b := c) (by omega)]
  | @four a b c d hlow hhigh hb hc hd =>
      rw [isSecond_iff] at hb
      rw [isTail_iff] at hc hd
      have hvalue : (point (a.toNat % 8) [b, c, d]).val.toNat =
          64 * (64 * (64 * (a.toNat % 8) + b.toNat % 64) + c.toNat % 64) + d.toNat % 64 :=
        toNat_ofNat (by simp only [List.foldl_cons, List.foldl_nil, Nat.isValidChar]; omega)
      simp only [String.utf8EncodeChar, hvalue]
      rw [if_neg (by omega), if_neg (by omega), if_neg (by omega), eq_byte (b := a) (by omega),
        eq_byte (b := b) (by omega), eq_byte (b := c) (by omega), eq_byte (b := d) (by omega)]

theorem point_eq (c : Char) (first : Nat) (tails : Bytes)
    (h : tails.foldl (fun n b => 64 * n + b.toNat % 64) first = c.toNat) :
    point first tails = c := by
  rw [point, h, Char.ofNat_toNat]

/-- Every code point is spelt in one of the four ways. -/
theorem spelt_encodeChar (c : Char) : Spelt c (String.utf8EncodeChar c) := by
  have hvalid : c.toNat < 0xD800 ∨ 0xDFFF < c.toNat ∧ c.toNat < 0x110000 := c.valid
  simp only [String.utf8EncodeChar, Char.toNat_val]
  split
  · next hone =>
    obtain ⟨a, hbyte, ha⟩ := exists_byte (n := c.toNat) (by omega)
    rw [hbyte, ← point_eq c a.toNat [] ha]
    exact .one (by omega)
  split
  · next hmany htwo =>
    obtain ⟨a, hfirst, ha⟩ := exists_byte (n := c.toNat / 64 % 32 + 192) (by omega)
    obtain ⟨b, hsecond, hb⟩ := exists_byte (n := c.toNat % 64 + 128) (by omega)
    rw [hfirst, hsecond, ← point_eq c (a.toNat % 32) [b]
      (by simp only [List.foldl_cons, List.foldl_nil]; omega)]
    exact .two (by omega) (by omega) (isSecond_iff.mpr (by omega))
  split
  · next hmany hmore hthree =>
    obtain ⟨a, hfirst, ha⟩ := exists_byte (n := c.toNat / 4096 % 16 + 224) (by omega)
    obtain ⟨b, hsecond, hb⟩ := exists_byte (n := c.toNat / 64 % 64 + 128) (by omega)
    obtain ⟨d, hthird, hd⟩ := exists_byte (n := c.toNat % 64 + 128) (by omega)
    rw [hfirst, hsecond, hthird, ← point_eq c (a.toNat % 16) [b, d]
      (by simp only [List.foldl_cons, List.foldl_nil]; omega)]
    exact .three (by omega) (by omega) (isSecond_iff.mpr (by omega)) (isTail_iff.mpr (by omega))
  · next hmany hmore hmost =>
    obtain ⟨a, hfirst, ha⟩ := exists_byte (n := c.toNat / 262144 % 8 + 240) (by omega)
    obtain ⟨b, hsecond, hb⟩ := exists_byte (n := c.toNat / 4096 % 64 + 128) (by omega)
    obtain ⟨d, hthird, hd⟩ := exists_byte (n := c.toNat / 64 % 64 + 128) (by omega)
    obtain ⟨e, hfourth, he⟩ := exists_byte (n := c.toNat % 64 + 128) (by omega)
    rw [hfirst, hsecond, hthird, hfourth,
      ← point_eq c (a.toNat % 8) [b, d, e]
        (by simp only [List.foldl_cons, List.foldl_nil]; omega)]
    exact .four (by omega) (by omega) (isSecond_iff.mpr (by omega)) (isTail_iff.mpr (by omega))
      (isTail_iff.mpr (by omega))

theorem encode_cons (c : Char) (t : Text) : encode (c :: t) = String.utf8EncodeChar c ++ encode t :=
  rfl

theorem encode_concat (t : Text) (c : Char) :
    encode (t ++ [c]) = encode t ++ String.utf8EncodeChar c := by
  simp [encode]

theorem decode_append {c : Char} {bytes : Bytes} (h : Spelt c bytes) (rest : Bytes) :
    decode (bytes ++ rest) = push c (decode rest) := by
  cases h with
  | @one a ha =>
      rw [List.singleton_append, decode.eq_def]
      exact if_pos ha
  | two hlow hhigh hb =>
      simp only [List.cons_append, List.nil_append, decode]
      rw [if_neg (by omega), if_pos (by omega), if_pos hb]
  | three hlow hhigh hb hc =>
      simp only [List.cons_append, List.nil_append, decode]
      rw [if_neg (by omega), if_neg (by omega), if_pos (by omega), if_pos ⟨hb, hc⟩]
  | four hlow hhigh hb hc hd =>
      simp only [List.cons_append, List.nil_append, decode]
      rw [if_neg (by omega), if_neg (by omega), if_neg (by omega), if_pos (by omega),
        if_pos ⟨hb, hc, hd⟩]

/-- What can be there of a code point: its first bytes, and not the last. -/
inductive Begun : Bytes → Prop
  | none : Begun []
  | one {a : UInt8} : 0xC2 ≤ a.toNat → a.toNat ≤ 0xF4 → Begun [a]
  | two {a b : UInt8} : 0xE0 ≤ a.toNat → a.toNat ≤ 0xF4 → isSecond a b = true → Begun [a, b]
  | three {a b c : UInt8} : 0xF0 ≤ a.toNat → a.toNat ≤ 0xF4 → isSecond a b = true →
      isTail c = true → Begun [a, b, c]

theorem isTail_least : isTail 0x80 = true := rfl

theorem exists_second (a : UInt8) : ∃ b, isSecond a b = true := by
  by_cases hthree : a.toNat = 0xE0
  · exact ⟨0xA0, isSecond_iff.mpr (by simp [hthree])⟩
  by_cases hfour : a.toNat = 0xF0
  · exact ⟨0x90, isSecond_iff.mpr (by simp [hfour])⟩
  · exact ⟨0x80, isSecond_iff.mpr (by simp [hthree, hfour])⟩

theorem Begun.unfinished {pending : Bytes} (h : Begun pending) : Unfinished pending := by
  cases h with
  | none => exact ⟨_, [0], nofun, .one (by decide)⟩
  | @one a hlow hhigh =>
      obtain ⟨b, hb⟩ := exists_second a
      by_cases htwo : a.toNat ≤ 0xDF
      · exact ⟨_, [b], nofun, .two hlow htwo hb⟩
      by_cases hthree : a.toNat ≤ 0xEF
      · exact ⟨_, [b, 0x80], nofun, .three (by omega) hthree hb isTail_least⟩
      · exact ⟨_, [b, 0x80, 0x80], nofun, .four (by omega) hhigh hb isTail_least isTail_least⟩
  | @two a b hlow hhigh hb =>
      by_cases hthree : a.toNat ≤ 0xEF
      · exact ⟨_, [0x80], nofun, .three hlow hthree hb isTail_least⟩
      · exact ⟨_, [0x80, 0x80], nofun, .four (by omega) hhigh hb isTail_least isTail_least⟩
  | three hlow hhigh hb hc => exact ⟨_, [0x80], nofun, .four hlow hhigh hb hc isTail_least⟩

theorem Unfinished.begun {pending : Bytes} (h : Unfinished pending) : Begun pending := by
  obtain ⟨c, rest, hrest, h⟩ := h
  have hshort : pending.length < (pending ++ rest).length := by
    have hpos := List.length_pos_iff.mpr hrest
    rw [List.length_append]
    omega
  have htake : (pending ++ rest).take pending.length = pending := List.take_left
  -- What is there is told by how many of the bytes of the code point are there.
  rw [← htake]
  generalize pending.length = count at hshort
  generalize pending ++ rest = bytes at h hshort
  cases h with
  | one ha =>
      match count with
      | 0 => exact .none
  | two hlow hhigh hb =>
      match count with
      | 0 => exact .none
      | 1 => exact .one hlow (by omega)
  | three hlow hhigh hb hc =>
      match count with
      | 0 => exact .none
      | 1 => exact .one (by omega) (by omega)
      | 2 => exact .two hlow (by omega) hb
  | four hlow hhigh hb hc hd =>
      match count with
      | 0 => exact .none
      | 1 => exact .one (by omega) hhigh
      | 2 => exact .two (by omega) hhigh hb
      | 3 => exact .three hlow hhigh hb hc

theorem decode_begun {pending : Bytes} (h : Begun pending) :
    decode pending = some ([], pending) := by
  cases h with
  | none => rfl
  | @one a hlow hhigh =>
      simp only [decode]
      rw [if_neg (by omega)]
      by_cases htwo : a.toNat ≤ 0xDF
      · rw [if_pos ⟨hlow, htwo⟩]
      rw [if_neg (by omega)]
      by_cases hthree : a.toNat ≤ 0xEF
      · rw [if_pos (by omega)]
      · rw [if_neg (by omega), if_pos (by omega)]
  | @two a b hlow hhigh hb =>
      simp only [decode]
      rw [if_neg (by omega), if_neg (by omega)]
      by_cases hthree : a.toNat ≤ 0xEF
      · rw [if_pos ⟨hlow, hthree⟩, if_pos hb]
      · rw [if_neg (by omega), if_pos (by omega), if_pos hb]
  | three hlow hhigh hb hc =>
      simp only [decode]
      rw [if_neg (by omega), if_neg (by omega), if_neg (by omega), if_pos ⟨hlow, hhigh⟩,
        if_pos ⟨hb, hc⟩]

/-! ### Texts -/

section Holds

variable {bytes pending : Bytes} {t : Text}

theorem decode_of_holds (h : Holds bytes t pending) : decode bytes = some (t, pending) := by
  obtain ⟨rfl, hpending⟩ := h
  induction t with
  | nil => exact decode_begun hpending.begun
  | cons c t ih => rw [encode_cons, List.append_assoc, decode_append (spelt_encodeChar c), ih]; rfl

theorem Holds.push {c : Char} {first : Bytes} (hc : Spelt c first)
    (h : ∀ t pending, decode bytes = some (t, pending) → Holds bytes t pending)
    (hpushed : push c (decode bytes) = some (t, pending)) : Holds (first ++ bytes) t pending := by
  obtain ⟨⟨t, pending⟩, hdecoded, hpushed⟩ := Option.map_eq_some_iff.mp hpushed
  cases hpushed
  obtain ⟨hspelt, hpending⟩ := h t pending hdecoded
  refine ⟨?_, hpending⟩
  rw [encode_cons, encodeChar_of_spelt hc, List.append_assoc, ← hspelt]

theorem Begun.holds (hbegun : Begun bytes) (h : some ([], bytes) = some (t, pending)) :
    Holds bytes t pending := by
  cases h
  exact ⟨rfl, hbegun.unfinished⟩

theorem holds_of_decode (h : decode bytes = some (t, pending)) : Holds bytes t pending := by
  fun_induction decode bytes generalizing t pending with
  | case1 => exact Begun.none.holds h
  | case2 a rest ha ih => exact .push (.one ha) (fun _ _ => ih) h
  | case3 a _ ha => exact (Begun.one ha.1 (by omega)).holds h
  | case4 a _ ha b rest hb ih => exact .push (.two ha.1 ha.2 hb) (fun _ _ => ih) h
  | case6 a _ _ ha => exact (Begun.one (by omega) (by omega)).holds h
  | case7 a _ _ ha b hb => exact (Begun.two ha.1 (by omega) hb).holds h
  | case9 a _ _ ha b d rest hb ih => exact .push (.three ha.1 ha.2 hb.1 hb.2) (fun _ _ => ih) h
  | case11 a _ _ _ ha => exact (Begun.one (by omega) ha.2).holds h
  | case12 a _ _ _ ha b hb => exact (Begun.two (by omega) ha.2 hb).holds h
  | case14 a _ _ _ ha b d hb => exact (Begun.three ha.1 ha.2 hb.1 hb.2).holds h
  | case16 a _ _ _ ha b d e rest hb ih =>
      exact .push (.four ha.1 ha.2 hb.1 hb.2.1 hb.2.2) (fun _ _ => ih) h
  -- In these cases nothing is decoded.
  | case5 | case8 | case10 | case13 | case15 | case17 | case18 => contradiction

theorem decode_eq_some_iff : decode bytes = some (t, pending) ↔ Holds bytes t pending :=
  ⟨holds_of_decode, decode_of_holds⟩

theorem Holds.unique {t' : Text} {pending' : Bytes} (h : Holds bytes t pending)
    (h' : Holds bytes t' pending') : t = t' ∧ pending = pending' := by
  have hsame := (decode_of_holds h).symm.trans (decode_of_holds h')
  simpa using hsame

theorem holds_encode (t : Text) : Holds (encode t) t [] :=
  ⟨(List.append_nil _).symm, Begun.none.unfinished⟩

/-- The first bytes of a text hold a first part of it. -/
theorem exists_holds_of_prefix (h : bytes <+: encode t) :
    ∃ whole pending, whole <+: t ∧ Holds bytes whole pending := by
  induction t generalizing bytes with
  | nil =>
      obtain rfl : bytes = [] := List.prefix_nil.mp h
      exact ⟨[], [], List.nil_prefix, holds_encode []⟩
  | cons c t ih =>
      obtain ⟨rest, hrest⟩ := h
      rw [encode_cons] at hrest
      -- The bytes end within the first code point or with it, or go on behind it.
      rcases List.append_eq_append_iff.mp hrest with ⟨missing, hchar, -⟩ | ⟨others, rfl, hothers⟩
      · by_cases hmissing : missing = []
        · subst hmissing
          obtain rfl : bytes = String.utf8EncodeChar c := by simpa using hchar.symm
          refine ⟨[c], [], List.prefix_append [c] t, ?_⟩
          simpa [encode] using holds_encode [c]
        · refine ⟨[], bytes, List.nil_prefix, rfl, c, missing, hmissing, ?_⟩
          exact hchar ▸ spelt_encodeChar c
      · obtain ⟨whole, pending, hwhole, hspelt, hpending⟩ := ih ⟨rest, hothers.symm⟩
        refine ⟨c :: whole, pending, List.cons_prefix_cons.mpr ⟨rfl, hwhole⟩, ?_, hpending⟩
        rw [hspelt, encode_cons, List.append_assoc]

theorem Holds.prefix_of_prefix {whole : Text} (h : Holds bytes whole pending)
    (hbytes : bytes <+: encode t) : whole <+: t := by
  obtain ⟨whole', pending', hprefix, hholds⟩ := exists_holds_of_prefix hbytes
  exact (h.unique hholds).1 ▸ hprefix

/-- What ends within a code point can be completed. -/
theorem Holds.exists_text (h : Holds bytes t pending) : ∃ longer, bytes <+: encode longer := by
  obtain ⟨rfl, c, rest, -, hspelt⟩ := h
  refine ⟨t ++ [c], rest, ?_⟩
  rw [encode_concat, encodeChar_of_spelt hspelt, List.append_assoc]

/-- The decoder gives up only where no further bytes could make a text. -/
theorem decode_eq_none_iff : decode bytes = none ↔ ∀ t, ¬ bytes <+: encode t := by
  constructor
  · intro h t hprefix
    obtain ⟨whole, pending, -, hholds⟩ := exists_holds_of_prefix hprefix
    rw [decode_of_holds hholds] at h
    contradiction
  · intro h
    cases hdecoded : decode bytes with
    | none => rfl
    | some found =>
        obtain ⟨longer, hlonger⟩ := (holds_of_decode hdecoded).exists_text
        exact absurd hlonger (h longer)

end Holds

end Delimited.Utf8
