/- Samples of the same content from a file and from standard input. Both are bounded alike; only a
mark at the start is dropped from a file and kept in standard input (`sample_sources_iff`). -/
import Delimited.Command.Run
import Delimited.Proofs.Outcome
import Delimited.Proofs.Sample.Bound
import Delimited.Proofs.Sample.Stream

namespace Delimited

namespace Sample

/-- Why no sample is taken from a stream. -/
inductive Unreadable (c : Tunables) (m : Manner) (s : Stream) : ReadFault → Prop
  | unaskable : ¬ Askable (c.maxSampleChars + 1) → Unreadable c m s .unaskable
  | unread {fault : ReadFault} : Askable (c.maxSampleChars + 1) → s.Fails m fault →
      Unreadable c m s fault

variable {c : Tunables} {m : Manner} {s : Stream} {fault : ReadFault} {lines : List Line}
  {t text : Text}

theorem ofStream_eq_error_iff : ofStream c m s = .error fault ↔ Unreadable c m s fault := by
  unfold ofStream
  split
  · next hasked =>
    constructor
    · intro h
      cases hread : s.read m with
      | error why =>
          rw [hread] at h
          obtain rfl := Except.error.inj h
          exact .unread hasked (Stream.read_eq_error_iff.mp hread)
      | ok text =>
          rw [hread] at h
          contradiction
    · intro h
      cases h with
      | unaskable hrefused => exact absurd hasked hrefused
      | unread _ hfails => rw [Stream.read_eq_error_iff.mpr hfails]; rfl
  · next hrefused =>
    constructor
    · intro h
      obtain rfl := Except.error.inj h
      exact .unaskable hrefused
    · intro h
      cases h with
      | unaskable => rfl
      | unread hasked => exact absurd hasked hrefused

section File

variable {files : Files} {path : Text}

theorem ofFile_closed {why : OpenFault} (h : files.opened (Path.normal path) = .error why) :
    ofFile c files path = .error (.cannotOpen (Path.normal path) why) := by
  simp only [ofFile, h]

theorem ofFile_opened (h : files.opened (Path.normal path) = .ok s) :
    ofFile c files path =
      (ofStream c (fileManner c) s).mapError (.unread (Path.normal path)) := by
  simp only [ofFile, h]

end File

/-! ### Bytes that are a text -/

theorem lacking_eq_zero_iff (hchars : 0 ≤ c.maxSampleChars) {found : Nat} :
    lacking c found = 0 ↔ (c.maxSampleChars + 1).toNat ≤ found := by
  rw [lacking, if_neg (by omega)]
  omega

theorem atHand_le (t : Text) : atHand t ≤ t.length := by
  unfold atHand
  split <;> omega

/-- The sample sees no more of a text than the code points that are read for it. -/
theorem ofText_of_prefix (hstarts : t <+: text)
    (hlong : (c.maxSampleChars + 1).toNat ≤ t.length) (hchars : 0 ≤ c.maxSampleChars) :
    ofText c.maxSampleChars c.maxSampleLines t =
      ofText c.maxSampleChars c.maxSampleLines text := by
  obtain ⟨rest, rfl⟩ := hstarts
  rw [ofText, ofText, readAhead, readAhead, if_neg (by omega), if_neg (by omega),
    List.take_append_of_le_length hlong]

theorem withoutMark_of_start (hstarts : t <+: text) (hne : t ≠ []) :
    Text.withoutMark t <+: Text.withoutMark text := by
  obtain ⟨c, t, rfl⟩ := List.exists_cons_of_ne_nil hne
  obtain ⟨rest, rfl⟩ := hstarts
  rw [List.cons_append]
  unfold Text.withoutMark
  split
  · next heq =>
    cases heq
    exact List.prefix_append _ rest
  · next hunmarked =>
    split
    · next heq =>
      cases heq
      exact absurd rfl (hunmarked t)
    · exact List.prefix_append (c :: t) rest

/-- What is sampled of bytes that are a text, if text is asked for that long, is its sample. -/
theorem ofStream_eq_ok_iff (hbytes : s.bytes = Utf8.encode text) (hflows : s.Flows)
    (henough : ∀ t, t <+: text → m.wanted (m.text t) = 0 →
      ofText c.maxSampleChars c.maxSampleLines (m.text t) =
        ofText c.maxSampleChars c.maxSampleLines (m.text text)) :
    ofStream c m s = .ok lines ↔ Askable (c.maxSampleChars + 1) ∧
      ofText c.maxSampleChars c.maxSampleLines (m.text text) = lines := by
  obtain ⟨t, hstarts, hread, hwhole⟩ := Stream.exists_read_of_encode (m := m) hbytes hflows
  have hsame : ofText c.maxSampleChars c.maxSampleLines (m.text t) =
      ofText c.maxSampleChars c.maxSampleLines (m.text text) := by
    rcases hwhole with rfl | hzero
    · rfl
    · exact henough t hstarts hzero
  unfold ofStream
  rw [hread]
  split
  · next hasked => simp [Except.map, hasked, hsame]
  · next hrefused => exact iff_of_false nofun fun h => hrefused h.1

theorem ofStream_file_eq_ok_iff (hbytes : s.bytes = Utf8.encode text) (hflows : s.Flows)
    (hchars : 0 ≤ c.maxSampleChars) :
    ofStream c (fileManner c) s = .ok lines ↔ Askable (c.maxSampleChars + 1) ∧
      ofText c.maxSampleChars c.maxSampleLines (Text.withoutMark text) = lines := by
  refine ofStream_eq_ok_iff hbytes hflows fun t hstarts hzero => ?_
  have hlong : (c.maxSampleChars + 1).toNat ≤ atHand (Text.withoutMark t) :=
    (lacking_eq_zero_iff hchars).mp hzero
  refine ofText_of_prefix (withoutMark_of_start hstarts ?_) (Nat.le_trans hlong (atHand_le _)) hchars
  rintro rfl
  have hnone : atHand (Text.withoutMark []) = 0 := rfl
  omega

theorem ofStream_input_eq_ok_iff (hbytes : s.bytes = Utf8.encode text) (hflows : s.Flows)
    (hchars : 0 ≤ c.maxSampleChars) :
    ofStream c (inputManner c) s = .ok lines ↔ Askable (c.maxSampleChars + 1) ∧
      ofText c.maxSampleChars c.maxSampleLines text = lines :=
  ofStream_eq_ok_iff hbytes hflows fun _ hstarts hzero =>
    ofText_of_prefix hstarts ((lacking_eq_zero_iff hchars).mp hzero) hchars

/-- The mark at the start of a text shows in its sample. -/
def ShowsMark (c : Tunables) (text : Text) : Prop :=
  text.head? = some '\ufeff' ∧ c.maxSampleLines ≠ 0 ∧
    ¬ (1 < text.length ∧ List.replicate (c.maxSampleChars.toNat + 1) '\ufeff' <+: text)

theorem showsMark_cons_iff (c : Tunables) (t : Text) : ShowsMark c ('\ufeff' :: t) ↔
    ¬ (c.maxSampleLines = 0 ∨
      t ≠ [] ∧ List.replicate c.maxSampleChars.toNat '\ufeff' <+: t) := by
  simp [ShowsMark, List.replicate_succ, List.length_pos_iff]

/-- Without its mark at the start, if it has one, a text has the same sample just where the mark
does not show. -/
theorem ofText_withoutMark_iff (hchars : 0 ≤ c.maxSampleChars) (hlines : 0 ≤ c.maxSampleLines)
    (text : Text) : ofText c.maxSampleChars c.maxSampleLines (Text.withoutMark text) =
      ofText c.maxSampleChars c.maxSampleLines text ↔ ¬ ShowsMark c text := by
  unfold Text.withoutMark
  split
  · next t =>
    obtain ⟨size, hsize⟩ := Int.eq_ofNat_of_zero_le hchars
    obtain ⟨count, hcount⟩ := Int.eq_ofNat_of_zero_le hlines
    rw [showsMark_cons_iff, hsize, hcount, ofText_mark_iff (by decide), Decidable.not_not]
    simp
  · next hunmarked =>
    refine iff_of_true rfl ?_
    rintro ⟨hhead, -⟩
    obtain ⟨t, rfl⟩ := List.head?_eq_some_iff.mp hhead
    exact hunmarked t rfl

end Sample

namespace Command

variable {s : Surroundings} {a : Arguments} {c : Tunables} {file : Stream} {path text : Text}

/-- The lines that are taken from a file are those taken from standard input with the same content,
and are numbered alike, just where no mark at the start shows, or nothing can be read at all. In
which portions the two are read makes no difference. -/
theorem sample_sources_iff (hpath : path ≠ ['-'])
    (hfile : s.files.opened (Path.normal path) = .ok file)
    (hcontent : file.bytes = Utf8.encode text) (hinput : s.input.bytes = Utf8.encode text)
    (hfileFlows : file.Flows) (hinputFlows : s.input.Flows) (hchars : 0 ≤ c.maxSampleChars)
    (hlines : 0 ≤ c.maxSampleLines) :
    (∀ lines, sample s { a with source := path } c = .ok lines ↔
        sample s { a with source := ['-'] } c = .ok lines) ↔
      ¬ Sample.ShowsMark c text ∨ ¬ Sample.Askable (c.maxSampleChars + 1) := by
  have hfromFile : ∀ lines, sample s { a with source := path } c = .ok lines ↔
      Sample.Askable (c.maxSampleChars + 1) ∧
        Sample.ofText c.maxSampleChars c.maxSampleLines (Text.withoutMark text) = lines := by
    intro lines
    rw [sample, if_neg hpath, mapError_eq_ok, Sample.ofFile_opened hfile, mapError_eq_ok,
      Sample.ofStream_file_eq_ok_iff hcontent hfileFlows hchars]
  have hfromInput : ∀ lines, sample s { a with source := ['-'] } c = .ok lines ↔
      Sample.Askable (c.maxSampleChars + 1) ∧
        Sample.ofText c.maxSampleChars c.maxSampleLines text = lines := by
    intro lines
    rw [sample, if_pos rfl, mapError_eq_ok,
      Sample.ofStream_input_eq_ok_iff hinput hinputFlows hchars]
  simp only [hfromFile, hfromInput, ← Sample.ofText_withoutMark_iff hchars hlines text]
  constructor
  · intro h
    by_cases hasked : Sample.Askable (c.maxSampleChars + 1)
    · exact .inl ((h _).mpr ⟨hasked, rfl⟩).2
    · exact .inr hasked
  · rintro (hsame | hasked) lines
    · rw [hsame]
    · exact iff_of_false (fun h => hasked h.1) fun h => hasked h.1

/-- The same content is at every path and on standard input. -/
def Surroundings.holding (text : Text) : Surroundings where
  environment _ := none
  files _ := .ok { bytes := Utf8.encode text }
  obstacle _ := none
  input := { bytes := Utf8.encode text }

/-- The bound falls between a carriage return and its line feed. -/
theorem sample_sources_cut_in_break :
    sample (.holding ['a', '\r', '\n', 'b'])
      { action := .guess none, source := "d.csv".toList } { maxSampleChars := 2 } =
        .ok [⟨1, ['a']⟩] ∧
    sample (.holding ['a', '\r', '\n', 'b'])
      { action := .guess none, source := ['-'] } { maxSampleChars := 2 } = .ok [⟨1, ['a']⟩] := by
  have hinput : sample (.holding ['a', '\r', '\n', 'b'])
      { action := .guess none, source := ['-'] } { maxSampleChars := 2 } = .ok [⟨1, ['a']⟩] := by
    rw [sample, if_pos rfl, mapError_eq_ok]
    exact (Sample.ofStream_input_eq_ok_iff rfl (.bytes _) (by decide)).mpr
      ⟨by decide, rfl⟩
  refine ⟨((sample_sources_iff (a := ⟨.guess none, [], none, none, none, false⟩)
    ?_ rfl rfl rfl (.bytes _) (.bytes _) ?_ ?_).mpr (.inl ?_) _).mpr hinput,
    hinput⟩
  · decide
  · decide
  · decide
  · exact fun h => nomatch h.1

/-- Standard input keeps the mark. -/
theorem sample_sources_marked :
    sample (.holding ['\ufeff', 'a'])
      { action := .guess none, source := "d.csv".toList } {} = .ok [⟨1, ['a']⟩] ∧
    sample (.holding ['\ufeff', 'a'])
      { action := .guess none, source := ['-'] } {} = .ok [⟨1, ['\ufeff', 'a']⟩] := by
  have hfile : Sample.ofFile {} (Surroundings.holding ['\ufeff', 'a']).files "d.csv".toList =
      .ok [⟨1, ['a']⟩] := by
    rw [Sample.ofFile_opened rfl, mapError_eq_ok]
    exact (Sample.ofStream_file_eq_ok_iff rfl (.bytes _) (by decide)).mpr
      ⟨by decide, rfl⟩
  constructor
  · rw [sample, if_neg (by decide), hfile]
    rfl
  · rw [sample, if_pos rfl, mapError_eq_ok]
    exact (Sample.ofStream_input_eq_ok_iff rfl (.bytes _) (by decide)).mpr
      ⟨by decide, rfl⟩

end Command

end Delimited
