/- Settings are checked by one rule for each entry, in a fixed order. Where all rules are kept each
override says what its entry says; otherwise the fault names the first entry whose rule is broken. The
sample has no part in it (`settings_checked`). -/
import Delimited.Proofs.Settings.Section

namespace Delimited

/-- The entry that an override stands for. -/
def Override.entry? {α : Type} (toValue : α → Value) : Override α → Option Value
  | unset => none
  | given value => some (toValue value)

/-- An entry of the section that overrides are read from, and the values that it may hold. -/
structure EntryRule where
  key : String
  admits : Value → Bool

namespace EntryRule

def isText (least : Nat) : Value → Bool
  | .text t => least ≤ t.length
  | _ => false

def isMark : Value → Bool
  | .text t => t.length ≤ 1
  | _ => false

def isFlag : Value → Bool
  | .boolean _ => true
  | _ => false

def orNull (admits : Value → Bool) : Value → Bool
  | .null => true
  | v => admits v

/-- The rules in the order in which they are looked at. -/
def all : List EntryRule :=
  [⟨"type", isText 0⟩, ⟨"escape", orNull isMark⟩, ⟨"delimiter", isText 1⟩,
    ⟨"quote", orNull isMark⟩, ⟨"null_string", orNull (isText 0)⟩,
    ⟨"comment_line_marker", orNull (isText 1)⟩, ⟨"trim_if_not_quoted", isFlag⟩,
    ⟨"allow_extra_columns", isFlag⟩, ⟨"allow_optional_columns", isFlag⟩]

/-- The name of the entry in a report, and whether the rule is kept. An absent entry breaks none. -/
def check (entries : Table) (rule : EntryRule) : Text × Bool :=
  ("parser.".toList ++ rule.key.toList, (Table.get? entries rule.key.toList).all rule.admits)

end EntryRule

namespace Overrides

/-- What settings hold for the section. -/
def sectionValue : Value → Value
  | .table sections => (Table.get? sections "parser".toList).getD .null
  | _ => .null

def isSection : Value → Bool
  | .null | .table _ => true
  | _ => false

def entriesOf : Value → Table
  | .table entries => entries
  | _ => []

def checks (settings : Value) : List (Text × Bool) :=
  ("parser".toList, isSection (sectionValue settings)) ::
    EntryRule.all.map (EntryRule.check (entriesOf (sectionValue settings)))

def firstBroken (checks : List (Text × Bool)) : Option Text :=
  (checks.find? fun check => !check.2).map Prod.fst

/-- If all checks are passed there is a value as described, and otherwise a fault that names the first
one that is not. -/
def Checked {α : Type} (checks : List (Text × Bool)) (P : α → Prop)
    (x : Except SettingsFault α) : Prop :=
  match firstBroken checks with
  | none => ∃ a, x = .ok a ∧ P a
  | some key => ∃ fault, x = .error fault ∧ fault.report.family = .settings ∧
      fault.report.place = .key key

/-- Settings whose section is for another kind of reader. -/
def ForOtherReader (settings : Value) : Prop :=
  isSection (sectionValue settings) = true ∧ ∃ type, type ≠ "csv".toList ∧
    Table.get? (entriesOf (sectionValue settings)) "type".toList = some (.text type)

def emptyAsNull : Value → Value
  | .text [] => .null
  | v => v

/-- Each override says what its entry says: nothing is said where there is no entry, and an empty escape
is said to be none. -/
structure Mirrors (entries : Table) (o : Overrides) : Prop where
  type : (Table.get? entries "type".toList).getD (.text "csv".toList) = .text o.type
  escape : o.escape.entry? Guess.ofText? =
    (Table.get? entries "escape".toList).map emptyAsNull
  delimiter : o.delimiter.entry? .text = Table.get? entries "delimiter".toList
  quote : o.quote.entry? Guess.ofText? = Table.get? entries "quote".toList
  nullString : o.nullString.entry? Guess.ofText? = Table.get? entries "null_string".toList
  commentMarker :
    o.commentMarker.entry? Guess.ofText? = Table.get? entries "comment_line_marker".toList
  trim : o.trim.entry? .boolean = Table.get? entries "trim_if_not_quoted".toList
  allowExtraColumns :
    o.allowExtraColumns.entry? .boolean = Table.get? entries "allow_extra_columns".toList
  allowOptionalColumns :
    o.allowOptionalColumns.entry? .boolean = Table.get? entries "allow_optional_columns".toList
  base : o.base = entries

section Checked

variable {α β : Type} {check : Text × Bool} {checks : List (Text × Bool)} {P : α → Prop}
  {Q : β → Prop} {x : Except SettingsFault α}

theorem checked_nil {a : α} (h : P a) : Checked [] P (.ok a) := ⟨a, rfl, h⟩

theorem checked_cons_passed (hcheck : check.2 = true) :
    Checked (check :: checks) P x ↔ Checked checks P x := by
  simp only [Checked, firstBroken, List.find?, hcheck, Bool.not_true]

theorem checked_cons_broken (hcheck : check.2 = false) :
    Checked (check :: checks) P x ↔ ∃ fault, x = .error fault ∧
      fault.report.family = .settings ∧ fault.report.place = .key check.1 := by
  simp only [Checked, firstBroken, List.find?, hcheck, Bool.not_false, Option.map_some]

/-- One check is followed by others only once it is passed. -/
theorem Checked.bind {f : α → Except SettingsFault β} (hx : Checked [check] P x)
    (hf : ∀ a, P a → Checked checks Q (f a)) : Checked (check :: checks) Q (x >>= f) := by
  cases hcheck : check.2 with
  | true =>
      obtain ⟨a, rfl, ha⟩ := (checked_cons_passed hcheck).mp hx
      exact (checked_cons_passed hcheck).mpr (hf a ha)
  | false =>
      obtain ⟨fault, rfl, hfault⟩ := (checked_cons_broken hcheck).mp hx
      exact (checked_cons_broken hcheck).mpr ⟨fault, rfl, hfault⟩

theorem Checked.of_ok {a : α} (hx : Checked [check] P x) (ha : x = .ok a) :
    check.2 = true ∧ P a := by
  subst ha
  cases hcheck : check.2 with
  | true =>
      obtain ⟨a', ha, hP⟩ := (checked_cons_passed hcheck).mp hx
      cases ha
      exact ⟨rfl, hP⟩
  | false =>
      obtain ⟨fault, hfault, -⟩ := (checked_cons_broken hcheck).mp hx
      cases hfault

end Checked

section Entries

variable {α : Type} {entries : Table} {rule : EntryRule} {found : Option Value} {P : α → Prop}

theorem checked_kept {a : α} (hfound : Table.get? entries rule.key.toList = found)
    (hkept : found.all rule.admits = true) (h : P a) :
    Checked [rule.check entries] P (.ok a) := by
  subst hfound
  exact (checked_cons_passed hkept).mpr (checked_nil h)

theorem checked_broken {fault : SettingsFault}
    (hfound : Table.get? entries rule.key.toList = found)
    (hbroken : found.all rule.admits = false) (hfamily : fault.report.family = .settings)
    (hplace : fault.report.place = SettingsFault.entry rule.key) :
    Checked [rule.check entries] P (.error fault) := by
  subst hfound
  exact (checked_cons_broken hbroken).mpr ⟨fault, rfl, hfamily, hplace⟩

variable (entries) (key : String)

theorem checked_typeOf : Checked [EntryRule.check entries ⟨"type", EntryRule.isText 0⟩]
    (fun type => (Table.get? entries "type".toList).getD (.text "csv".toList) = .text type)
    (typeOf entries) := by
  unfold typeOf
  cases hfound : Table.get? entries "type".toList with
  | none => exact checked_kept hfound rfl rfl
  | some v => cases v with
    | text t => exact checked_kept hfound (decide_eq_true (Nat.zero_le t.length)) rfl
    | null | boolean | whole | real | list | table => exact checked_broken hfound rfl rfl rfl

theorem checked_delimiterOf : Checked [EntryRule.check entries ⟨"delimiter", EntryRule.isText 1⟩]
    (fun delimiter => delimiter.entry? .text = Table.get? entries "delimiter".toList)
    (delimiterOf entries) := by
  unfold delimiterOf
  cases hfound : Table.get? entries "delimiter".toList with
  | none => exact checked_kept hfound rfl rfl
  | some v => cases v with
    | text t => cases t with
      | nil => exact checked_broken hfound rfl rfl rfl
      | cons c t => exact checked_kept hfound (decide_eq_true (Nat.succ_pos t.length)) rfl
    | null | boolean | whole | real | list | table => exact checked_broken hfound rfl rfl rfl

theorem checked_markOf :
    Checked [EntryRule.check entries ⟨key, EntryRule.orNull EntryRule.isMark⟩]
      (fun mark => mark.entry? Guess.ofText? = Table.get? entries key.toList)
      (markOf entries key) := by
  unfold markOf
  cases hfound : Table.get? entries key.toList with
  | none => exact checked_kept hfound rfl rfl
  | some v => match v with
    | .null | .text [] | .text [_] => exact checked_kept hfound rfl rfl
    | .boolean _ | .whole _ | .real _ | .list _ | .table _ | .text (_ :: _ :: _) =>
      exact checked_broken hfound rfl rfl rfl

theorem checked_escapeOf :
    Checked [EntryRule.check entries ⟨"escape", EntryRule.orNull EntryRule.isMark⟩]
      (fun escape => escape.entry? Guess.ofText? =
        (Table.get? entries "escape".toList).map emptyAsNull)
      (escapeOf entries) := by
  refine (checked_markOf entries "escape").bind ?_
  intro mark hmark
  refine checked_nil ?_
  rw [← hmark]
  match mark with
  | .unset | .given none | .given (some []) | .given (some (_ :: _)) => rfl

/-- The least length of a text that may stand there: one that is not empty, where emptiness is not
allowed. -/
theorem checked_textOf (emptyAllowed : Bool) :
    Checked [EntryRule.check entries
        ⟨key, EntryRule.orNull (EntryRule.isText (if emptyAllowed then 0 else 1))⟩]
      (fun text => text.entry? Guess.ofText? = Table.get? entries key.toList)
      (textOf entries key emptyAllowed) := by
  unfold textOf
  cases hfound : Table.get? entries key.toList with
  | none => exact checked_kept hfound rfl rfl
  | some v => match v with
    | .null => exact checked_kept hfound rfl rfl
    | .text (c :: t) =>
        cases emptyAllowed
        · exact checked_kept hfound (decide_eq_true (Nat.succ_pos t.length)) rfl
        · exact checked_kept hfound (decide_eq_true (Nat.zero_le (c :: t).length)) rfl
    | .text [] =>
        cases emptyAllowed
        · exact checked_broken hfound rfl rfl rfl
        · exact checked_kept hfound rfl rfl
    | .boolean _ | .whole _ | .real _ | .list _ | .table _ =>
        exact checked_broken hfound rfl rfl rfl

theorem checked_flagOf : Checked [EntryRule.check entries ⟨key, EntryRule.isFlag⟩]
    (fun flag => flag.entry? .boolean = Table.get? entries key.toList) (flagOf entries key) := by
  unfold flagOf
  cases hfound : Table.get? entries key.toList with
  | none => exact checked_kept hfound rfl rfl
  | some v => cases v with
    | boolean b => exact checked_kept hfound rfl rfl
    | null | whole | real | text | list | table => exact checked_broken hfound rfl rfl rfl

end Entries

section Settings

variable {settings : Value}

theorem checked_parserSection
    (h : settings.isEmpty = true ∨ ∃ sections, settings = .table sections) :
    Checked [("parser".toList, isSection (sectionValue settings))]
      (fun entries => entries = entriesOf (sectionValue settings)) (parserSection settings) := by
  cases settings with
  | table sections =>
      cases sections with
      | nil => exact (checked_cons_passed rfl).mpr (checked_nil rfl)
      | cons first rest =>
          simp only [parserSection, sectionValue, Value.isEmpty, Bool.false_eq_true, if_false]
          cases Table.get? (first :: rest) "parser".toList with
          | none => exact (checked_cons_passed rfl).mpr (checked_nil rfl)
          | some v => cases v with
            | null | table => exact (checked_cons_passed rfl).mpr (checked_nil rfl)
            | boolean | whole | real | text | list =>
                exact (checked_cons_broken rfl).mpr ⟨_, rfl, rfl, rfl⟩
  | null | boolean | whole | real | text | list =>
      have hempty := h.resolve_right (by rintro ⟨_, ⟨⟩⟩)
      unfold parserSection
      rw [if_pos hempty]
      exact (checked_cons_passed rfl).mpr (checked_nil rfl)

/-- The checks follow each other in their order, and only where all are passed there are overrides. -/
theorem checked_read (h : settings.isEmpty = true ∨ ∃ sections, settings = .table sections) :
    Checked (checks settings) (Mirrors (entriesOf (sectionValue settings))) (read settings) := by
  refine (checked_parserSection h).bind ?_
  rintro _ rfl
  generalize entriesOf (sectionValue settings) = entries
  refine (checked_typeOf entries).bind fun type htype => ?_
  refine (checked_escapeOf entries).bind fun escape hescape => ?_
  refine (checked_delimiterOf entries).bind fun delimiter hdelimiter => ?_
  refine (checked_markOf entries "quote").bind fun quote hquote => ?_
  refine (checked_textOf entries "null_string" true).bind fun nullString hnull => ?_
  refine (checked_textOf entries "comment_line_marker" false).bind fun marker hmarker => ?_
  refine (checked_flagOf entries "trim_if_not_quoted").bind fun trim htrim => ?_
  refine (checked_flagOf entries "allow_extra_columns").bind fun extra hextra => ?_
  refine (checked_flagOf entries "allow_optional_columns").bind fun optional hoptional => ?_
  exact checked_nil ⟨htype, hescape, hdelimiter, hquote, hnull, hmarker, htrim, hextra, hoptional, rfl⟩

/-- The faults of settings that have sections are all of one family. -/
theorem family_of_read_error {fault : SettingsFault} (h : ∃ sections, settings = .table sections)
    (hread : read settings = .error fault) : fault.report.family = .settings := by
  have hchecked := checked_read (.inr h)
  unfold Checked at hchecked
  split at hchecked
  · obtain ⟨o, ho, -⟩ := hchecked
    rw [hread] at ho
    contradiction
  · obtain ⟨fault', hfault, hfamily, -⟩ := hchecked
    obtain rfl := Except.error.inj (hread.symm.trans hfault)
    exact hfamily

theorem typeOf_eq_ok_iff {entries : Table} {type : Text} (htype : type ≠ "csv".toList) :
    typeOf entries = .ok type ↔ Table.get? entries "type".toList = some (.text type) := by
  unfold typeOf
  cases Table.get? entries "type".toList with
  | none => simpa using htype.symm
  | some v => cases v <;> simp

theorem readerType_of_forOtherReader
    (h : settings.isEmpty = true ∨ ∃ sections, settings = .table sections) :
    ForOtherReader settings ↔ ∃ type, type ≠ "csv".toList ∧ readerType settings = .ok type := by
  have hsection := checked_parserSection h
  constructor
  · rintro ⟨hkept, type, htype, hget⟩
    obtain ⟨_, hentries, rfl⟩ := (checked_cons_passed hkept).mp hsection
    exact ⟨type, htype, bind_eq_ok.mpr ⟨_, hentries, (typeOf_eq_ok_iff htype).mpr hget⟩⟩
  · rintro ⟨type, htype, hread⟩
    obtain ⟨entries, hentries, hread⟩ := bind_eq_ok.mp hread
    obtain ⟨hkept, rfl⟩ := hsection.of_ok hentries
    exact ⟨hkept, type, htype, (typeOf_eq_ok_iff htype).mp hread⟩

/-- A fault of the section or of the type is found first when all is read. -/
theorem read_of_readerType_error {fault : SettingsFault} (h : readerType settings = .error fault) :
    read settings = .error fault := by
  rcases bind_eq_error.mp h with hsection | ⟨entries, hsection, htype⟩
  · exact bind_eq_error.mpr (.inl hsection)
  · exact bind_eq_error.mpr (.inr ⟨entries, hsection, bind_eq_error.mpr (.inl htype)⟩)

end Settings

end Overrides

end Delimited
