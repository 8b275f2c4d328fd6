/- What is read of a stream. It is read portion by portion (`Comes`), until there is enough text or
no bytes are left (`read_eq_ok_iff`); a fault is one of the bytes read so far, never one of those
after them (`read_eq_error_iff`). -/
import Delimited.Proofs.Text.Utf8
import Delimited.Sample.Stream

namespace Delimited.Stream

open Utf8

/-- The bytes up to an offset hold a text, and more of it is wanted. -/
structure Short (m : Manner) (s : Stream) (offset : Nat) (t : Text) (pending : Bytes) : Prop where
  holds : Holds (s.bytes.take offset) t pending
  wanted : m.wanted (m.text t) ≠ 0

/-- The offsets that reading comes to. -/
inductive Comes (m : Manner) (s : Stream) : (offset : Nat) → Prop
  | start : Comes m s 0
  | on {offset size : Nat} {t : Text} {pending : Bytes} : Comes m s offset →
      Short m s offset t pending → offset < s.bytes.length →
      s.portion offset (m.wanted (m.text t)) = .ok size → Comes m s (offset + max 1 size)

/-- The text that is read: as much as is wanted, or all there is. -/
inductive Gives (m : Manner) (s : Stream) : Text → Prop
  | enough {offset : Nat} {t : Text} {pending : Bytes} : Comes m s offset →
      Holds (s.bytes.take offset) t pending → m.wanted (m.text t) = 0 → Gives m s (m.text t)
  | whole {offset : Nat} {t : Text} {pending : Bytes} : Comes m s offset →
      Short m s offset t pending → s.bytes.length ≤ offset →
      pending = [] ∨ m.PassesOver t pending → Gives m s (m.text t)

/-- Why no text is read: no text starts with the bytes up to an offset, or they end within a code
point and are all there are, or no portion is handed over. -/
inductive Fails (m : Manner) (s : Stream) : ReadFault → Prop
  | garbled {offset : Nat} : Comes m s offset → (∀ t, ¬ s.bytes.take offset <+: encode t) →
      Fails m s .undecodable
  | cut {offset : Nat} {t : Text} {pending : Bytes} : Comes m s offset →
      Short m s offset t pending → s.bytes.length ≤ offset → pending ≠ [] →
      ¬ m.PassesOver t pending → Fails m s .undecodable
  | stopped {offset : Nat} {t : Text} {pending : Bytes} {why : Stoppage} : Comes m s offset →
      Short m s offset t pending → offset < s.bytes.length →
      s.portion offset (m.wanted (m.text t)) = .error why → Fails m s (.stopped why)

variable {m : Manner} {s : Stream} {offset : Nat} {t text : Text} {pending : Bytes}
  {fault : ReadFault}

/-! ### One step -/

theorem readFrom_garbled (h : ∀ t, ¬ s.bytes.take offset <+: encode t) :
    readFrom m s offset = .error .undecodable := by
  rw [readFrom, decode_eq_none_iff.mpr h]

theorem readFrom_enough (h : Holds (s.bytes.take offset) t pending)
    (henough : m.wanted (m.text t) = 0) : readFrom m s offset = .ok (m.text t) := by
  rw [readFrom, decode_of_holds h]
  exact if_pos henough

theorem Short.readFrom_on {size : Nat} (h : Short m s offset t pending)
    (hmore : offset < s.bytes.length)
    (hsize : s.portion offset (m.wanted (m.text t)) = .ok size) :
    readFrom m s offset = readFrom m s (offset + max 1 size) := by
  rw [readFrom, decode_of_holds h.holds]
  simp only [if_neg h.wanted, if_pos hmore, hsize]

theorem Short.readFrom_stopped {why : Stoppage} (h : Short m s offset t pending)
    (hmore : offset < s.bytes.length)
    (hwhy : s.portion offset (m.wanted (m.text t)) = .error why) :
    readFrom m s offset = .error (.stopped why) := by
  rw [readFrom, decode_of_holds h.holds]
  simp only [if_neg h.wanted, if_pos hmore, hwhy]

theorem Short.readFrom_end (h : Short m s offset t pending) (hend : s.bytes.length ≤ offset) :
    readFrom m s offset = if pending = [] ∨ m.PassesOver t pending then .ok (m.text t)
      else .error .undecodable := by
  rw [readFrom, decode_of_holds h.holds]
  simp only [if_neg h.wanted, if_neg (Nat.not_lt.mpr hend)]

/-! ### The whole run -/

theorem Comes.read_eq (h : Comes m s offset) : s.read m = readFrom m s offset := by
  induction h with
  | start => rfl
  | on _ hshort hmore hsize ih => rw [ih, hshort.readFrom_on hmore hsize]

/-- Reading that has come to an offset ends in one of the ways named. -/
theorem Comes.ends (h : Comes m s offset) :
    (∃ text, readFrom m s offset = .ok text ∧ Gives m s text) ∨
      ∃ fault, readFrom m s offset = .error fault ∧ Fails m s fault := by
  fun_induction readFrom m s offset with
  | case1 offset hnone => exact .inr ⟨_, rfl, .garbled h (decode_eq_none_iff.mp hnone)⟩
  | case2 offset t pending hsome henough =>
      exact .inl ⟨_, rfl, .enough h (holds_of_decode hsome) henough⟩
  | case3 offset t pending hsome hwanted hmore why hwhy =>
      exact .inr ⟨_, rfl, .stopped h ⟨holds_of_decode hsome, hwanted⟩ hmore hwhy⟩
  | case4 offset t pending hsome hwanted hmore size hsize ih =>
      exact ih (.on h ⟨holds_of_decode hsome, hwanted⟩ hmore hsize)
  | case5 offset t pending hsome hwanted hend hwhole =>
      exact .inl ⟨_, rfl, .whole h ⟨holds_of_decode hsome, hwanted⟩ (Nat.not_lt.mp hend) hwhole⟩
  | case6 offset t pending hsome hwanted hend hcut =>
      obtain ⟨hpending, hpassed⟩ := not_or.mp hcut
      exact .inr ⟨_, rfl,
        .cut h ⟨holds_of_decode hsome, hwanted⟩ (Nat.not_lt.mp hend) hpending hpassed⟩

theorem read_eq_ok_iff : s.read m = .ok text ↔ Gives m s text := by
  constructor
  · intro h
    rcases Comes.ends .start with ⟨text', hread, hgives⟩ | ⟨fault, hread, -⟩
    · obtain rfl := Except.ok.inj (h.symm.trans hread)
      exact hgives
    · cases h.symm.trans hread
  · intro h
    cases h with
    | enough hcomes hholds henough => rw [hcomes.read_eq, readFrom_enough hholds henough]
    | whole hcomes hshort hend hwhole =>
        rw [hcomes.read_eq, hshort.readFrom_end hend, if_pos hwhole]

theorem read_eq_error_iff : s.read m = .error fault ↔ Fails m s fault := by
  constructor
  · intro h
    rcases Comes.ends .start with ⟨text, hread, -⟩ | ⟨fault', hread, hfails⟩
    · cases h.symm.trans hread
    · obtain rfl := Except.error.inj (h.symm.trans hread)
      exact hfails
  · intro h
    cases h with
    | garbled hcomes hgarbled => rw [hcomes.read_eq, readFrom_garbled hgarbled]
    | cut hcomes hshort hend hpending hpassed =>
        rw [hcomes.read_eq, hshort.readFrom_end hend, if_neg (not_or.mpr ⟨hpending, hpassed⟩)]
    | stopped hcomes hshort hmore hwhy =>
        rw [hcomes.read_eq, hshort.readFrom_stopped hmore hwhy]

/-! ### Bytes that are not looked at -/

theorem Short.append (h : Short m s offset t pending) (hoffset : offset ≤ s.bytes.length)
    (more : Bytes) : Short m { s with bytes := s.bytes ++ more } offset t pending := by
  refine ⟨?_, h.wanted⟩
  rw [List.take_append_of_le_length hoffset]
  exact h.holds

theorem Comes.append (h : Comes m s offset) (hoffset : offset ≤ s.bytes.length) (more : Bytes) :
    Comes m { s with bytes := s.bytes ++ more } offset := by
  induction h with
  | start => exact .start
  | on _ hshort hmore hsize ih =>
      refine .on (ih (Nat.le_of_lt hmore)) (hshort.append (Nat.le_of_lt hmore) more) ?_ hsize
      rw [List.length_append]
      exact Nat.lt_add_right _ hmore

/-- Where there is enough text up to an offset, the bytes after it may be anything. -/
theorem read_append (h : Comes m s offset) (hoffset : offset ≤ s.bytes.length)
    (hholds : Holds (s.bytes.take offset) t pending) (henough : m.wanted (m.text t) = 0)
    (more : Bytes) : ({ s with bytes := s.bytes ++ more } : Stream).read m = s.read m := by
  have hholds' : Holds ((s.bytes ++ more).take offset) t pending := by
    rwa [List.take_append_of_le_length hoffset]
  rw [(h.append hoffset more).read_eq, readFrom_enough hholds' henough, h.read_eq,
    readFrom_enough hholds henough]

/-- One code point is wanted, and the byte after it is none. -/
example : ((⟨[97, 255], fun _ _ => .ok 1⟩ : Stream).read ⟨false, fun t => 1 - t.length⟩).toOption =
    some ['a'] := by
  decide +kernel

/-! ### Texts -/

/-- Every portion is handed over. -/
def Flows (s : Stream) : Prop := ∀ offset wanted, ∃ size, s.portion offset wanted = .ok size

/-- As of a file. -/
theorem Flows.bytes (bytes : Bytes) : Flows { bytes := bytes } := fun _ _ => ⟨_, rfl⟩

/-- Of bytes that hold a text a first part of it is read, and all of it unless less is wanted. The
portions make no difference to that. -/
theorem exists_read_of_encode (hbytes : s.bytes = encode text) (hflows : s.Flows) :
    ∃ t, t <+: text ∧ s.read m = .ok (m.text t) ∧ (t = text ∨ m.wanted (m.text t) = 0) := by
  have hfirst : ∀ offset, s.bytes.take offset <+: encode text :=
    fun offset => hbytes ▸ List.take_prefix offset s.bytes
  rcases Comes.ends (m := m) (s := s) .start with ⟨found, hread, hgives⟩ | ⟨fault, -, hfails⟩
  -- At the end all bytes are decoded, and so they hold the whole text and nothing is pending.
  · cases hgives with
    | @enough offset t pending _ hholds henough =>
        exact ⟨t, hholds.prefix_of_prefix (hfirst offset), hread, .inr henough⟩
    | @whole offset t pending _ hshort hend _ =>
        have hall := hshort.holds
        rw [List.take_of_length_le hend, hbytes] at hall
        obtain rfl := (hall.unique (holds_encode text)).1
        exact ⟨t, List.prefix_refl t, hread, .inl rfl⟩
  · cases hfails with
    | @garbled offset _ hgarbled => exact absurd (hfirst offset) (hgarbled text)
    | cut _ hshort hend hpending _ =>
        have hall := hshort.holds
        rw [List.take_of_length_le hend, hbytes] at hall
        exact absurd (hall.unique (holds_encode text)).2 hpending
    | @stopped offset t _ why _ _ _ hwhy =>
        obtain ⟨size, hsize⟩ := hflows offset (m.wanted (m.text t))
        rw [hsize] at hwhy
        contradiction

end Delimited.Stream
