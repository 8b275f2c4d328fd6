/- How the command ends. It can meet troubles with the environment, the seed, the sample, the
settings, the scores of a quote and the output (`carryOut_eq_error_iff`); where it meets none, what
the guess comes to is shown (`carryOut_eq_ok_iff`). Some of the troubles are not caught, and so
there is no exit code. -/
import Delimited.Proofs.Guess.Faults
import Delimited.Proofs.Sample.Sources

namespace Delimited.Command

/-- All that a guess is made from can be used, and is this. -/
structure Gathers (s : Surroundings) (a : Arguments) (c : Tunables) (settings : Value)
    (lines : List Line) : Prop where
  tunables : tunables s a = .ok c
  seed : seed s a = .ok settings
  sample : sample s a c = .ok lines

def Guesses (s : Surroundings) (a : Arguments) (c : Tunables) (found : Option Guess) : Prop :=
  ∃ settings lines, Gathers s a c settings lines ∧ Guess.ofLines c settings lines = .ok found

/-- A guess is shown as the action asks. -/
inductive Shows (s : Surroundings) (a : Arguments) (c : Tunables) (g : Guess) : Outcome → Prop
  | printed : a.action = .guess none ∨ a.action = .guess (some []) →
      Shows s a c g (.printed g.fragment)
  | written {path : Text} : a.action = .guess (some path) → path ≠ [] →
      s.obstacleAt (Path.normal path) = none →
      Shows s a c g (.written (Path.normal path) g.fragment a.source)
  | previewed {rows : Int} {text : Text} : a.action = .preview rows → preview c g rows = .ok text →
      Shows s a c g (.previewed text)

/-- The trouble with the seed at a path. -/
inductive SeedTrouble (s : Surroundings) (path : Text) : Trouble → Prop
  | closed {fault : OpenFault} : s.files.opened path = .error fault →
      SeedTrouble s path (.seedClosed path fault)
  | unread {file : Stream} {fault : ReadFault} : s.files.opened path = .ok file →
      file.Fails (seedManner s) fault → SeedTrouble s path (.seedUnread path fault)
  | hopeless {file : Stream} {text : Text} {fault : DocumentFault} :
      s.files.opened path = .ok file → file.Gives (seedManner s) text →
      s.hopeless text = some fault → SeedTrouble s path (.seedBroken path fault)
  | broken {file : Stream} {text : Text} {fault : DocumentFault} :
      s.files.opened path = .ok file → file.Gives (seedManner s) text → s.hopeless text = none →
      s.document text = .error fault → SeedTrouble s path (.seedBroken path fault)
  | notTable {file : Stream} {text : Text} {found : Value} : s.files.opened path = .ok file →
      file.Gives (seedManner s) text → s.hopeless text = none → s.document text = .ok found →
      found ≠ .null → (∀ entries, found ≠ .table entries) →
      SeedTrouble s path (.seedNotTable path)

/-- The trouble with the sample, of a file or of standard input. -/
inductive SampleTrouble (s : Surroundings) (a : Arguments) (c : Tunables) : Trouble → Prop
  | closed {fault : OpenFault} : a.source ≠ ['-'] →
      s.files.opened (Path.normal a.source) = .error fault →
      SampleTrouble s a c (.sample (.cannotOpen (Path.normal a.source) fault))
  | file {file : Stream} {fault : ReadFault} : a.source ≠ ['-'] →
      s.files.opened (Path.normal a.source) = .ok file →
      Sample.Unreadable c (Sample.fileManner c) file fault →
      SampleTrouble s a c (.sample (.unread (Path.normal a.source) fault))
  | input {fault : ReadFault} : a.source = ['-'] →
      Sample.Unreadable c (Sample.inputManner c) s.input fault → SampleTrouble s a c (.input fault)

/-- The trouble that the command meets first. -/
inductive Meets (s : Surroundings) (a : Arguments) : Trouble → Prop
  | environment {fault : NumberFault} : Tunables.ofEnvironment s.environment = .error fault →
      Meets s a (.environment fault)
  | seed {c : Tunables} {path : Text} {trouble : Trouble} : tunables s a = .ok c →
      a.config = some path → path ≠ [] → SeedTrouble s path trouble → Meets s a trouble
  | sample {c : Tunables} {settings : Value} {trouble : Trouble} : tunables s a = .ok c →
      seed s a = .ok settings → SampleTrouble s a c trouble → Meets s a trouble
  | settings {c : Tunables} {settings : Value} {lines : List Line} {fault : SettingsFault} :
      Gathers s a c settings lines → Guess.ofLines c settings lines = .error (.settings fault) →
      Meets s a (.guess (.settings fault))
  | scores {c : Tunables} {settings : Value} {lines : List Line} :
      Gathers s a c settings lines → Guess.ScoresTooLarge c settings lines →
      Meets s a (.guess (.quote .scoreTooLarge))
  | output {c : Tunables} {g : Guess} {path : Text} {fault : OpenFault} : Guesses s a c (some g) →
      a.action = .guess (some path) → path ≠ [] → s.obstacleAt (Path.normal path) = some fault →
      Meets s a (.output (Path.normal path) fault)

/-- Nothing catches the trouble. -/
inductive Trouble.Escapes : Trouble → Prop
  | environment (fault : NumberFault) : Escapes (.environment fault)
  | seedNul (path : Text) : Escapes (.seedClosed path .nul)
  | seedUndecodable (path : Text) : Escapes (.seedUnread path .undecodable)
  | seedMemory (path : Text) : Escapes (.seedUnread path (.stopped .memory))
  | seedMeaningless (path why : Text) : Escapes (.seedBroken path (.meaningless why))
  | nul (path : Text) : Escapes (.sample (.cannotOpen path .nul))
  | unaskable (path : Text) : Escapes (.sample (.unread path .unaskable))
  | memory (path : Text) : Escapes (.sample (.unread path (.stopped .memory)))
  | input (fault : ReadFault) : Escapes (.input fault)
  | scores : Escapes (.guess (.quote .scoreTooLarge))
  | output (path : Text) (fault : OpenFault) : Escapes (.output path fault)

/-- What an exit code says. -/
def Says (s : Surroundings) (a : Arguments) (outcome : Outcome) : (code : Nat) → Prop
  | 0 => ∃ c g, Guesses s a c (some g) ∧ Shows s a c g outcome
  | 1 => ∃ c, Guesses s a c none
  | 2 => ∃ trouble, Meets s a trouble ∧ ¬ trouble.Escapes
  | _ => False

variable {s : Surroundings} {a : Arguments} {c : Tunables} {trouble : Trouble}

/-! ### The steps before the guess -/

theorem tunables_eq_error_iff : tunables s a = .error trouble ↔
    ∃ fault, Tunables.ofEnvironment s.environment = .error fault ∧
      .environment fault = trouble := by
  unfold tunables
  rw [bind_eq_error]
  constructor
  · rintro (h | ⟨c, -, h⟩)
    · exact mapError_eq_error.mp h
    · contradiction
  · exact fun h => .inl (mapError_eq_error.mpr h)

/-- The environment sets limits and thresholds, and no candidates. -/
theorem sound_of_tunables (h : tunables s a = .ok c) : c.Admissible ∧ c.Weighs := by
  obtain ⟨c, hread, h⟩ := bind_eq_ok.mp h
  have hread := mapError_eq_ok.mp hread
  simp only [Tunables.ofEnvironment, bind_eq_ok, pure, Except.pure, Except.ok.injEq] at hread h
  obtain ⟨_, -, _, -, _, -, _, -, _, -, _, -, _, -, _, -, _, -, rfl⟩ := hread
  subst h
  have hc := Tunables.admissible_default
  have hw := Tunables.weighs_default
  exact ⟨⟨hc.delimiter, hc.quote, hc.defaultQuote, hc.escape⟩, ⟨hw.candidate, hw.floor, hw.epsilon⟩⟩

theorem seed_eq_error_iff : seed s a = .error trouble ↔
    ∃ path, a.config = some path ∧ path ≠ [] ∧ SeedTrouble s path trouble := by
  constructor
  · intro h
    unfold seed at h
    split at h
    · contradiction
    · contradiction
    · next path hne hconfig =>
      refine ⟨path, hconfig, hne, ?_⟩
      split at h
      · next fault hfile =>
        obtain rfl := Except.error.inj h
        exact .closed hfile
      · next file hfile =>
        split at h
        · next fault hread =>
          obtain rfl := Except.error.inj h
          exact .unread hfile (Stream.read_eq_error_iff.mp hread)
        · next text hread =>
          have hgives := Stream.read_eq_ok_iff.mp hread
          split at h
          · next fault hhopeless =>
            obtain rfl := Except.error.inj h
            exact .hopeless hfile hgives hhopeless
          · next hhopeful =>
            split at h
            · next fault hdocument =>
              obtain rfl := Except.error.inj h
              exact .broken hfile hgives hhopeful hdocument
            · contradiction
            · contradiction
            · next found hnull htable hdocument =>
              obtain rfl := Except.error.inj h
              exact .notTable hfile hgives hhopeful hdocument hnull htable
  · rintro ⟨path, hconfig, hne, htrouble⟩
    obtain ⟨c, path, rfl⟩ := List.exists_cons_of_ne_nil hne
    unfold seed
    rw [hconfig]
    cases htrouble with
    | closed hfile => simp only [hfile]
    | unread hfile hfails => simp only [hfile, Stream.read_eq_error_iff.mpr hfails]
    | hopeless hfile hgives hhopeless =>
        simp only [hfile, Stream.read_eq_ok_iff.mpr hgives, hhopeless]
    | broken hfile hgives hhopeful hdocument =>
        simp only [hfile, Stream.read_eq_ok_iff.mpr hgives, hhopeful, hdocument]
    | notTable hfile hgives hhopeful hdocument hnull htable =>
        simp only [hfile, Stream.read_eq_ok_iff.mpr hgives, hhopeful, hdocument]

theorem sample_eq_error_iff : sample s a c = .error trouble ↔ SampleTrouble s a c trouble := by
  unfold sample
  by_cases hsource : a.source = ['-']
  · rw [if_pos hsource, mapError_eq_error]
    constructor
    · rintro ⟨fault, hread, rfl⟩
      exact .input hsource (Sample.ofStream_eq_error_iff.mp hread)
    · intro h
      cases h with
      | closed hfile | file hfile => exact absurd hsource hfile
      | input _ hread => exact ⟨_, Sample.ofStream_eq_error_iff.mpr hread, rfl⟩
  · rw [if_neg hsource, mapError_eq_error]
    constructor
    · rintro ⟨fault, hread, rfl⟩
      cases hfile : s.files.opened (Path.normal a.source) with
      | error why =>
          rw [Sample.ofFile_closed hfile] at hread
          obtain rfl := Except.error.inj hread
          exact .closed hsource hfile
      | ok file =>
          rw [Sample.ofFile_opened hfile] at hread
          obtain ⟨why, hwhy, rfl⟩ := mapError_eq_error.mp hread
          exact .file hsource hfile (Sample.ofStream_eq_error_iff.mp hwhy)
    · intro h
      cases h with
      | closed _ hfile => exact ⟨_, Sample.ofFile_closed hfile, rfl⟩
      | file _ hfile hread =>
          refine ⟨_, ?_, rfl⟩
          rw [Sample.ofFile_opened hfile]
          exact mapError_eq_error.mpr ⟨_, Sample.ofStream_eq_error_iff.mpr hread, rfl⟩
      | input hinput => exact absurd hinput hsource

/-- A seed that can be used is a table. -/
theorem exists_table_of_seed {settings : Value} (h : seed s a = .ok settings) :
    ∃ entries, settings = .table entries := by
  unfold seed at h
  split at h
  · exact ⟨[], (Except.ok.inj h).symm⟩
  · exact ⟨[], (Except.ok.inj h).symm⟩
  · split at h
    · contradiction
    · split at h
      · contradiction
      · split at h
        · contradiction
        · split at h
          · contradiction
          · exact ⟨[], (Except.ok.inj h).symm⟩
          · next entries _ => exact ⟨entries, (Except.ok.inj h).symm⟩
          · contradiction

/-- The records of a guess can be shown. -/
theorem exists_preview {settings : Value} {lines : List Line} {g : Guess}
    (h : Guess.ofLines c settings lines = .ok (some g)) (rows : Int) :
    ∃ text, preview c g rows = .ok text := by
  obtain ⟨o, -, -, ⟨st⟩⟩ := Guess.ofLines_eq_ok_iff.mp h
  exact ⟨_, bind_eq_ok.mpr ⟨_, Guess.divide_eq st.delimiter_ne_nil true g.skipPlan.lines, rfl⟩⟩

/-! ### The guess, and what is made of it -/

section Present

variable {g : Guess} {outcome : Outcome}

theorem present_eq_ok_iff : present s a c g = .ok outcome ↔ Shows s a c g outcome := by
  constructor
  · intro h
    unfold present at h
    split at h
    · next rows haction =>
      obtain ⟨text, htext, h⟩ := bind_eq_ok.mp h
      obtain rfl := Except.ok.inj h
      exact .previewed haction (mapError_eq_ok.mp htext)
    · next haction =>
      obtain rfl := Except.ok.inj h
      exact .printed (.inl haction)
    · next haction =>
      obtain rfl := Except.ok.inj h
      exact .printed (.inr haction)
    · next path hne haction =>
      split at h
      · contradiction
      · next hnone =>
        obtain rfl := Except.ok.inj h
        exact .written haction hne hnone
  · intro h
    unfold present
    cases h with
    | printed haction =>
        rcases haction with haction | haction
        · simp only [haction]
          rfl
        · simp only [haction]
          rfl
    | written haction hne hnone =>
        simp only [haction, hnone]
        rfl
    | previewed haction htext =>
        simp only [haction]
        exact bind_eq_ok.mpr ⟨_, mapError_eq_ok.mpr htext, rfl⟩

/-- Only writing can go wrong. -/
theorem present_eq_error_iff {settings : Value} {lines : List Line}
    (hguess : Guess.ofLines c settings lines = .ok (some g)) :
    present s a c g = .error trouble ↔ ∃ path fault, a.action = .guess (some path) ∧ path ≠ [] ∧
      s.obstacleAt (Path.normal path) = some fault ∧ .output (Path.normal path) fault = trouble := by
  constructor
  · intro h
    unfold present at h
    split at h
    · next rows _ =>
      obtain ⟨text, htext⟩ := exists_preview hguess rows
      rw [htext] at h
      contradiction
    · contradiction
    · contradiction
    · next path hne haction =>
      split at h
      · next fault hobstacle =>
        exact ⟨path, fault, haction, hne, hobstacle, Except.error.inj h⟩
      · contradiction
  · rintro ⟨path, fault, haction, hne, hobstacle, rfl⟩
    unfold present
    simp only [haction, hobstacle]

end Present

theorem Gathers.carryOut_eq {settings : Value} {lines : List Line}
    (h : Gathers s a c settings lines) :
    carryOut s a = (Guess.ofLines c settings lines).mapError .guess >>= fun found =>
      match found with
      | none => .ok (.nothing a.source)
      | some g => present s a c g := by
  simp only [carryOut, h.tunables, h.seed, h.sample, bind, Except.bind]
  rfl

theorem carryOut_eq_error_iff : carryOut s a = .error trouble ↔ Meets s a trouble := by
  constructor
  · intro h
    rcases bind_eq_error.mp h with htunables | ⟨c, htunables, h⟩
    · obtain ⟨fault, hfault, rfl⟩ := tunables_eq_error_iff.mp htunables
      exact .environment hfault
    rcases bind_eq_error.mp h with hseed | ⟨settings, hseed, h⟩
    · obtain ⟨path, hconfig, hne, htrouble⟩ := seed_eq_error_iff.mp hseed
      exact .seed htunables hconfig hne htrouble
    rcases bind_eq_error.mp h with hsample | ⟨lines, hsample, h⟩
    · exact .sample htunables hseed (sample_eq_error_iff.mp hsample)
    rcases bind_eq_error.mp h with hguess | ⟨found, hguess, h⟩
    · obtain ⟨fault, hfault, rfl⟩ := mapError_eq_error.mp hguess
      obtain ⟨hc, hw⟩ := sound_of_tunables htunables
      rcases Guess.fault_of_ofLines hc hw hfault with ⟨why, rfl, -⟩ | ⟨rfl, hlarge⟩
      · exact .settings ⟨htunables, hseed, hsample⟩ hfault
      · exact .scores ⟨htunables, hseed, hsample⟩ hlarge
    · have hguess := mapError_eq_ok.mp hguess
      cases found with
      | none => contradiction
      | some g =>
          obtain ⟨path, fault, haction, hne, hobstacle, rfl⟩ := (present_eq_error_iff hguess).mp h
          exact .output ⟨settings, lines, ⟨htunables, hseed, hsample⟩, hguess⟩ haction hne hobstacle
  · intro h
    cases h with
    | environment hfault =>
        exact bind_eq_error.mpr (.inl (tunables_eq_error_iff.mpr ⟨_, hfault, rfl⟩))
    | seed htunables hconfig hne htrouble =>
        refine bind_eq_error.mpr (.inr ⟨_, htunables, bind_eq_error.mpr (.inl ?_)⟩)
        exact seed_eq_error_iff.mpr ⟨_, hconfig, hne, htrouble⟩
    | sample htunables hseed htrouble =>
        refine bind_eq_error.mpr (.inr ⟨_, htunables, bind_eq_error.mpr (.inr ⟨_, hseed, ?_⟩)⟩)
        exact bind_eq_error.mpr (.inl (sample_eq_error_iff.mpr htrouble))
    | settings hgathers hfault =>
        rw [hgathers.carryOut_eq, hfault]
        rfl
    | scores hgathers hlarge =>
        obtain ⟨hc, hw⟩ := sound_of_tunables hgathers.tunables
        rw [hgathers.carryOut_eq, Guess.ofLines_of_scoresTooLarge hc hw hlarge]
        rfl
    | output hguesses haction hne hobstacle =>
        obtain ⟨settings, lines, hgathers, hguess⟩ := hguesses
        rw [hgathers.carryOut_eq, hguess]
        exact (present_eq_error_iff hguess).mpr ⟨_, _, haction, hne, hobstacle, rfl⟩

theorem carryOut_eq_ok_iff {outcome : Outcome} : carryOut s a = .ok outcome ↔
    ∃ c found, Guesses s a c found ∧ match found with
      | none => outcome = .nothing a.source
      | some g => Shows s a c g outcome := by
  constructor
  · intro h
    obtain ⟨c, htunables, h⟩ := bind_eq_ok.mp h
    obtain ⟨settings, hseed, h⟩ := bind_eq_ok.mp h
    obtain ⟨lines, hsample, h⟩ := bind_eq_ok.mp h
    obtain ⟨found, hguess, h⟩ := bind_eq_ok.mp h
    refine ⟨c, found, ⟨settings, lines, ⟨htunables, hseed, hsample⟩, mapError_eq_ok.mp hguess⟩, ?_⟩
    cases found with
    | none => exact (Except.ok.inj h).symm
    | some g => exact present_eq_ok_iff.mp h
  · rintro ⟨c, found, ⟨settings, lines, hgathers, hguess⟩, h⟩
    rw [hgathers.carryOut_eq, hguess]
    cases found with
    | none => exact congrArg Except.ok (Eq.symm h)
    | some g => exact present_eq_ok_iff.mpr h

/-! ### Reports and exit codes -/

/-- Of the troubles that can be met, those that escape have no report. -/
theorem report?_eq_none_iff (h : Meets s a trouble) :
    trouble.report? = none ↔ trouble.Escapes := by
  cases h with
  | environment => exact iff_of_true rfl (.environment _)
  | seed _ _ _ htrouble =>
      cases htrouble with
      | @closed fault =>
          cases fault with
          | nul => exact iff_of_true rfl (.seedNul _)
          | system => exact iff_of_false nofun nofun
      | unread _ hfails =>
          cases hfails with
          | garbled | cut => exact iff_of_true rfl (.seedUndecodable _)
          | @stopped _ _ _ why =>
              cases why with
              | memory => exact iff_of_true rfl (.seedMemory _)
              | system => exact iff_of_false nofun nofun
      | @hopeless _ _ fault | @broken _ _ fault =>
          cases fault with
          | malformed => exact iff_of_false nofun nofun
          | meaningless => exact iff_of_true rfl (.seedMeaningless _ _)
      | notTable => exact iff_of_false nofun nofun
  | sample _ _ htrouble =>
      cases htrouble with
      | @closed fault =>
          cases fault with
          | nul => exact iff_of_true rfl (.nul _)
          | system => exact iff_of_false nofun nofun
      | input => exact iff_of_true rfl (.input _)
      | file _ _ hread =>
          cases hread with
          | unaskable => exact iff_of_true rfl (.unaskable _)
          | unread _ hfails =>
              cases hfails with
              | garbled | cut => exact iff_of_false nofun nofun
              | @stopped _ _ _ why =>
                  cases why with
                  | memory => exact iff_of_true rfl (.memory _)
                  | system => exact iff_of_false nofun nofun
  | @settings c settings lines fault hgathers hfault =>
      obtain ⟨hc, hw⟩ := sound_of_tunables hgathers.tunables
      rcases Guess.fault_of_ofLines hc hw hfault with ⟨why, hwhy, hread⟩ | ⟨hquote, -⟩
      · -- A table always has sections, and all other faults of settings are reported.
        rw [← GuessFault.settings.inj hwhy] at hread
        have hfamily := Overrides.family_of_read_error (exists_table_of_seed hgathers.seed) hread
        refine iff_of_false ?_ nofun
        cases fault with
        | noSections => contradiction
        | _ => nofun
      · contradiction
  | scores => exact iff_of_true rfl .scores
  | output => exact iff_of_true rfl (.output _ _)

section Says

variable {outcome : Outcome}

theorem exitCode?_of_shows {g : Guess} (h : Shows s a c g outcome) :
    outcome.exitCode? = some 0 := by
  cases h with
  | printed | written | previewed => rfl

theorem not_meets_of_carryOut_ok (h : carryOut s a = .ok outcome) : ¬ Meets s a trouble := by
  intro hmeets
  have herror := carryOut_eq_error_iff.mpr hmeets
  rw [h] at herror
  contradiction

theorem exitCode?_of_carryOut_ok (h : carryOut s a = .ok outcome) : outcome.exitCode? ≠ none := by
  obtain ⟨c, found, -, hshown⟩ := carryOut_eq_ok_iff.mp h
  cases found with
  | none =>
      obtain rfl : outcome = .nothing a.source := hshown
      nofun
  | some g =>
      rw [exitCode?_of_shows hshown]
      nofun

theorem says_of_carryOut_ok (h : carryOut s a = .ok outcome) (code : Nat) :
    outcome.exitCode? = some code ↔ Says s a outcome code := by
  obtain ⟨c, found, hguesses, hshown⟩ := carryOut_eq_ok_iff.mp h
  have hmet : ¬ ∃ trouble, Meets s a trouble ∧ ¬ trouble.Escapes :=
    fun ⟨_, hmeets, _⟩ => not_meets_of_carryOut_ok h hmeets
  cases found with
  | none =>
      obtain rfl : outcome = .nothing a.source := hshown
      match code with
      | 0 => exact iff_of_false nofun fun ⟨_, _, _, hshows⟩ => nomatch hshows
      | 1 => exact iff_of_true rfl ⟨c, hguesses⟩
      | 2 => exact iff_of_false nofun hmet
      | _ + 3 => exact iff_of_false nofun id
  | some g =>
      have hcode := exitCode?_of_shows hshown
      have hnothing : outcome ≠ .nothing a.source := by
        rintro rfl
        contradiction
      rw [hcode]
      match code with
      | 0 => exact iff_of_true rfl ⟨c, g, hguesses, hshown⟩
      | 1 =>
          refine iff_of_false nofun ?_
          rintro ⟨c', hnone⟩
          have hresult := carryOut_eq_ok_iff.mpr ⟨c', none, hnone, rfl⟩
          exact hnothing (Except.ok.inj (h.symm.trans hresult))
      | 2 => exact iff_of_false nofun hmet
      | _ + 3 => exact iff_of_false nofun id

/-- Only one trouble can be the first. -/
theorem meets_unique {trouble' : Trouble} (h : Meets s a trouble) (h' : Meets s a trouble') :
    trouble = trouble' :=
  Except.error.inj ((carryOut_eq_error_iff.mpr h).symm.trans (carryOut_eq_error_iff.mpr h'))

theorem exitCode?_stopped (trouble : Trouble) :
    (Outcome.stopped trouble).exitCode? = none ↔ trouble.report? = none :=
  Option.map_eq_none_iff

theorem says_of_carryOut_error (h : carryOut s a = .error trouble) (code : Nat) :
    (Outcome.stopped trouble).exitCode? = some code ↔ Says s a (.stopped trouble) code := by
  have hmeets := carryOut_eq_error_iff.mp h
  have hcode : (Outcome.stopped trouble).exitCode? = some code ↔
      code = 2 ∧ ¬ trouble.Escapes := by
    rw [← report?_eq_none_iff hmeets]
    cases hreport : trouble.report? <;> simp [Outcome.exitCode?, hreport, eq_comm]
  rw [hcode]
  match code with
  | 0 => exact iff_of_false nofun fun ⟨_, _, _, hshows⟩ => nomatch hshows
  | 1 =>
      refine iff_of_false nofun ?_
      rintro ⟨c, hnone⟩
      have hresult := carryOut_eq_ok_iff.mpr ⟨c, none, hnone, rfl⟩
      rw [h] at hresult
      contradiction
  | 2 =>
      constructor
      · exact fun hcaught => ⟨trouble, hmeets, hcaught.2⟩
      · rintro ⟨trouble', hmeets', hcaught⟩
        exact ⟨rfl, meets_unique hmeets hmeets' ▸ hcaught⟩
  | _ + 3 => exact iff_of_false nofun id

end Says

end Delimited.Command
