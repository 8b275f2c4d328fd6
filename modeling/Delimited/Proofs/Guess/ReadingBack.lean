/- The fragment of a guess, read as settings: what the guess says of its dialect is read back, an
escape only where it is known, and the entries that it does not set stay as they were
(`read_fragment`). -/
import Delimited.Proofs.Guess.Restating

namespace Delimited.Guess

open Overrides (OfSection textOf flagOf escapeOf)

/-- The overrides say what the guess says. A null string or a marker of comments that the guess does
not have may be absent or without a value. -/
structure ReadsBack (g : Guess) (o : Overrides) : Prop where
  type : o.type = "csv".toList
  delimiter : o.delimiter = .given g.dialect.delimiter
  quote : o.quote = .given g.dialect.quote
  escape : o.escape = if g.escapeResolved then .given g.dialect.escape else .unset
  nullString : o.nullString.getD none = g.dialect.nullString
  commentMarker : o.commentMarker.getD none = g.skipPlan.commentMarker
  trim : o.trim = .given g.dialect.trim
  allowExtraColumns : o.allowExtraColumns = .given g.allowExtraColumns
  allowOptionalColumns : o.allowOptionalColumns = .given g.allowOptionalColumns

variable {c : Tunables} {o : Overrides} {lines : List Line} {g : Guess}

section Entries

variable (g)

/-- The keys that a guess sets, in order: three of them only where there is something to set. -/
def entryKeys (escape null marker : Bool) : List Text :=
  ["type".toList, "delimiter".toList, "quote".toList] ++
    (if escape then ["escape".toList] else []) ++ (if null then ["null_string".toList] else []) ++
    ["skip_header_lines".toList] ++ (if marker then ["comment_line_marker".toList] else []) ++
    ["allow_extra_columns".toList, "allow_optional_columns".toList, "trim_if_not_quoted".toList,
      "columns".toList]

theorem keys_entries : Table.keys g.entries = entryKeys g.escapeResolved
    g.dialect.nullString.isSome g.skipPlan.commentMarker.isSome := by
  unfold entries
  cases g.escapeResolved <;> cases g.dialect.nullString <;> cases g.skipPlan.commentMarker <;> rfl

theorem nodup_keys_entries : (Table.keys g.entries).Nodup := by
  have hall : ∀ escape null marker, (entryKeys escape null marker).Nodup := by decide
  rw [keys_entries]
  exact hall _ _ _

theorem get?_parserTable (key : Text) :
    Table.get? g.parserTable key = (Table.get? g.entries key).or (Table.get? g.base key) :=
  Table.get?_foldl_set (nodup_keys_entries g) g.base key

variable {key : Text} {value : Value}

theorem get?_parserTable_set (h : (key, value) ∈ g.entries) :
    Table.get? g.parserTable key = some value := by
  rw [get?_parserTable, Table.get?_of_mem (nodup_keys_entries g) h, Option.some_or]

theorem get?_parserTable_kept (h : key ∉ Table.keys g.entries) :
    Table.get? g.parserTable key = Table.get? g.base key := by
  rw [get?_parserTable, Table.get?_eq_none_iff.mpr h, Option.none_or]

theorem get?_entries_escape : Table.get? g.entries "escape".toList =
    if g.escapeResolved then some (ofText? g.dialect.escape) else none := by
  cases h : g.escapeResolved with
  | true =>
      apply Table.get?_of_mem (nodup_keys_entries g)
      simp only [entries, h, if_true, List.mem_append, List.mem_singleton, true_or, or_true]
  | false =>
      have hall : ∀ null marker, "escape".toList ∉ entryKeys false null marker := by decide
      apply Table.get?_eq_none_iff.mpr
      rw [keys_entries, h]
      exact hall _ _

theorem get?_entries_nullString :
    Table.get? g.entries "null_string".toList = g.dialect.nullString.map .text := by
  cases h : g.dialect.nullString with
  | none =>
      have hall : ∀ escape marker, "null_string".toList ∉ entryKeys escape false marker := by decide
      apply Table.get?_eq_none_iff.mpr
      rw [keys_entries, h]
      exact hall _ _
  | some t =>
      apply Table.get?_of_mem (nodup_keys_entries g)
      simp only [entries, h, Option.toList_some, List.map_cons, List.mem_append, List.mem_cons,
        true_or, or_true]

theorem get?_entries_commentMarker :
    Table.get? g.entries "comment_line_marker".toList = g.skipPlan.commentMarker.map .text := by
  cases h : g.skipPlan.commentMarker with
  | none =>
      have hall : ∀ escape null, "comment_line_marker".toList ∉ entryKeys escape null false := by
        decide
      apply Table.get?_eq_none_iff.mpr
      rw [keys_entries, h]
      exact hall _ _
  | some t =>
      apply Table.get?_of_mem (nodup_keys_entries g)
      simp only [entries, h, Option.toList_some, List.map_cons, List.mem_append, List.mem_cons,
        true_or, or_true]

theorem parserSection_fragment : Overrides.parserSection g.fragment = .ok g.parserTable := rfl

end Entries

/-! ### The entries one by one -/

theorem typeOf_parserTable (g : Guess) : Overrides.typeOf g.parserTable = .ok "csv".toList := by
  have hget : Table.get? g.parserTable "type".toList = some (.text "csv".toList) := by
    apply get?_parserTable_set
    simp only [entries, List.mem_append, List.mem_cons, true_or]
  unfold Overrides.typeOf
  rw [hget]

theorem escapeOf_parserTable {old : Override (Option Text)} (hd : g.dialect.IsSettable)
    (hold : escapeOf g.base = .ok old) (hunset : g.escapeResolved = false → old = .unset) :
    escapeOf g.parserTable =
      .ok (if g.escapeResolved then .given g.dialect.escape else .unset) := by
  have hget := get?_parserTable g "escape".toList
  rw [get?_entries_escape] at hget
  cases h : g.escapeResolved with
  | true =>
      rw [h] at hget
      exact Overrides.escapeOf_ofText? hget hd.escape
  | false =>
      rw [h] at hget
      rw [Overrides.escapeOf_congr hget, hold, hunset h]
      rfl

/-- An optional text that is set only where there is one. Where there is none, the section that the
guess extends has none either. -/
theorem textOf_parserTable {key : String} {emptyAllowed : Bool} {t : Option Text}
    {old : Override (Option Text)} (hold : textOf g.base key emptyAllowed = .ok old)
    (hset : Table.get? g.entries key.toList = t.map .text)
    (hallowed : t = some [] → emptyAllowed = true) (hnone : t = none → old.getD none = none) :
    ∃ new, textOf g.parserTable key emptyAllowed = .ok new ∧ new.getD none = t := by
  have hget := get?_parserTable g key.toList
  rw [hset] at hget
  cases t with
  | none =>
      refine ⟨old, ?_, hnone rfl⟩
      rw [← hold]
      exact Overrides.textOf_congr hget
  | some t =>
      refine ⟨.given (some t), Overrides.textOf_text hget ?_, rfl⟩
      intro hempty
      exact hallowed (congrArg some hempty)

theorem flagOf_parserTable {key : String} {b : Bool}
    (h : (key.toList, Value.boolean b) ∈ g.entries) : flagOf g.parserTable key = .ok (.given b) :=
  Overrides.flagOf_boolean (g.get?_parserTable_set h)

/-! ### What the overrides of a guess leave open -/

theorem getD_none_eq_none {α : Type} {o : Override (Option α)} {found : Option α}
    (h : o.getD found = none) : o.getD none = none := by
  cases o with
  | unset => rfl
  | given value => exact h

theorem unset_of_chooseEscape {texts : List Text} {delimiter : Text} {quote escape : Option Text}
    (h : chooseEscape c o texts delimiter quote = (escape, false)) : o.escape = .unset := by
  unfold chooseEscape at h
  split at h
  · cases h
  · cases h
  · assumption

theorem Stages.escape_unset (st : Stages c o lines g) (h : g.escapeResolved = false) :
    o.escape = .unset := by
  have hescape := (chooseDialect_eq_ok_iff.mp st.chosen).2.2.1
  rw [h] at hescape
  exact unset_of_chooseEscape hescape

theorem Stages.nullString_open (st : Stages c o lines g) (h : g.dialect.nullString = none) :
    o.nullString.getD none = none := by
  have hnull := (chooseDialect_eq_ok_iff.mp st.chosen).2.2.2.1
  rw [st.read.1] at hnull
  exact getD_none_eq_none (hnull.trans h)

theorem Stages.commentMarker_open (st : Stages c o lines g) (h : g.skipPlan.commentMarker = none) :
    o.commentMarker.getD none = none :=
  getD_none_eq_none ((marker_of_planSkip st.planned).symm.trans h)

/-- A marker of comments is not empty, if no candidate is: one that was set is not. -/
theorem Stages.commentMarker_ne_empty (st : Stages c o lines g)
    (hmarkers : ∀ m ∈ c.commentMarkers, m ≠ []) (ho : OfSection g.base o) :
    g.skipPlan.commentMarker ≠ some [] := by
  intro hempty
  have hmarker := (marker_of_planSkip st.planned).symm.trans hempty
  have hread := ho.commentMarker
  cases hgiven : o.commentMarker with
  | given marker =>
      rw [hgiven] at hmarker hread
      obtain rfl : marker = some [] := hmarker
      exact Overrides.ne_nil_of_textOf hread rfl
  | unset =>
      rw [hgiven, Override.getD] at hmarker
      obtain hnone | ⟨m, hm, hsome⟩ := Evidence.commentMarker_cases c st.dialect.delimiter
        st.dialect.quote st.dialect.nullString (lines.drop g.skipPlan.skipped)
      · rw [hnone] at hmarker
        contradiction
      · rw [hsome] at hmarker
        exact hmarkers m hm (Option.some.inj hmarker)

/-! ### The whole fragment -/

theorem Stages.readsBack (st : Stages c o lines g) (hd : g.dialect.IsSettable)
    (hmarkers : ∀ m ∈ c.commentMarkers, m ≠ []) (ho : OfSection g.base o) :
    ∃ o', OfSection g.parserTable o' ∧ ReadsBack g o' ∧ o'.base = g.parserTable := by
  obtain ⟨nullString, hreadNull, hnull⟩ := textOf_parserTable ho.nullString
    (get?_entries_nullString g) (fun _ => rfl) st.nullString_open
  obtain ⟨marker, hreadMarker, hmarker⟩ := textOf_parserTable ho.commentMarker
    (get?_entries_commentMarker g) (fun hempty =>
      absurd hempty (st.commentMarker_ne_empty hmarkers ho)) st.commentMarker_open
  refine ⟨{
    type := "csv".toList
    delimiter := .given g.dialect.delimiter
    quote := .given g.dialect.quote
    escape := if g.escapeResolved then .given g.dialect.escape else .unset
    nullString := nullString
    commentMarker := marker
    trim := .given g.dialect.trim
    allowExtraColumns := .given g.allowExtraColumns
    allowOptionalColumns := .given g.allowOptionalColumns
    base := g.parserTable }, ?_, ⟨rfl, rfl, rfl, rfl, hnull, hmarker, rfl, rfl, rfl⟩, rfl⟩
  have hdelimiter : ("delimiter".toList, .text g.dialect.delimiter) ∈ g.entries := by
    simp only [entries, List.mem_append, List.mem_cons, true_or, or_true]
  have hquote : ("quote".toList, ofText? g.dialect.quote) ∈ g.entries := by
    simp only [entries, List.mem_append, List.mem_cons, true_or, or_true]
  have hflags : ("trim_if_not_quoted".toList, .boolean g.dialect.trim) ∈ g.entries ∧
      ("allow_extra_columns".toList, .boolean g.allowExtraColumns) ∈ g.entries ∧
      ("allow_optional_columns".toList, .boolean g.allowOptionalColumns) ∈ g.entries := by
    simp only [entries, List.mem_append, List.mem_cons, true_or, or_true, and_true]
  exact {
    type := typeOf_parserTable g
    escape := escapeOf_parserTable hd ho.escape st.escape_unset
    delimiter := Overrides.delimiterOf_text (g.get?_parserTable_set hdelimiter) hd.delimiter
    quote := Overrides.markOf_ofText? (g.get?_parserTable_set hquote) hd.quote
    nullString := hreadNull
    commentMarker := hreadMarker
    trim := flagOf_parserTable hflags.1
    allowExtraColumns := flagOf_parserTable hflags.2.1
    allowOptionalColumns := flagOf_parserTable hflags.2.2 }

/-- The fragment of a guess can be read as settings, and they say what the guess says. An entry that
the guess does not set is that of the settings it was made from. -/
theorem read_fragment {settings : Value} {sample : List SampleItem} (hc : c.Admissible)
    (hmarkers : ∀ m ∈ c.commentMarkers, m ≠ []) (h : ofSample c settings sample = .ok (some g)) :
    ∃ o entries, Overrides.read g.fragment = .ok o ∧ ReadsBack g o ∧
      Overrides.parserSection settings = .ok entries ∧
      ∀ key ∉ Table.keys g.entries, Table.get? o.base key = Table.get? entries key := by
  obtain ⟨o, hread, ⟨st⟩⟩ := stages_of_ofSample h
  obtain ⟨hbase, ho⟩ := Overrides.read_eq_ok_iff.mp hread
  rw [← st.based] at hbase ho
  obtain ⟨o', ho', hback, hsection⟩ := st.readsBack (st.isSettable hc ho) hmarkers ho
  rw [← hsection] at ho'
  refine ⟨o', g.base, ?_, hback, hbase, ?_⟩
  · rw [Overrides.read_eq_ok_iff, parserSection_fragment, hsection]
    exact ⟨rfl, hsection ▸ ho'⟩
  · intro key hkey
    rw [hsection, g.get?_parserTable_kept hkey]

/-- An empty quote in the settings is read back as the double quote it stands for, and an entry for
another use stays. -/
theorem read_fragment_stale :
    Tunables.Admissible {} ∧ (∀ m ∈ ({} : Tunables).commentMarkers, m ≠ []) ∧
      ∃ g, ofSample {} (.table [("parser".toList, .table [("charset".toList, .text ['x']),
          ("quote".toList, .text []), ("null_string".toList, .null)])])
          (plainSample [['a', ';', 'b'], ['1', ';', '2'], ['3', ';', '4']]) = .ok (some g) ∧
        ∃ o, Overrides.read g.fragment = .ok o ∧ ReadsBack g o ∧
          o.quote = .given (some ['"']) ∧
          Table.get? o.base "charset".toList = some (.text ['x']) := by
  have hmarkers : ∀ m ∈ ({} : Tunables).commentMarkers, m ≠ [] := by decide
  obtain ⟨g, hg, hfound⟩ : ∃ g, ofSample {} (.table [("parser".toList,
      .table [("charset".toList, .text ['x']), ("quote".toList, .text []),
        ("null_string".toList, .null)])])
      (plainSample [['a', ';', 'b'], ['1', ';', '2'], ['3', ';', '4']]) = .ok (some g) ∧
        decide (g.dialect.quote = some ['"'] ∧ "charset".toList ∉ Table.keys g.entries) = true :=
    exists_of_made _ (by decide +kernel)
  obtain ⟨hquote, hkept⟩ := of_decide_eq_true hfound
  obtain ⟨o, entries, hread, hback, hsection, hbase⟩ :=
    read_fragment Tunables.admissible_default hmarkers hg
  refine ⟨Tunables.admissible_default, hmarkers, g, hg, o, hread, hback, ?_, ?_⟩
  · rw [hback.quote, hquote]
  · cases hsection
    exact hbase _ hkept

end Delimited.Guess
