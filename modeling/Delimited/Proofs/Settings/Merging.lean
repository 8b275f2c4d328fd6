/- Entries set over others: each key has the value that was set last, and the other keys keep theirs
(`get?_foldl_set`). With them, settings in which one entry of the section is set. -/
import Delimited.Proofs.Settings.Section

namespace Delimited

namespace Table

variable {table entries : Table} {key : Text} {value : Value}

theorem set_ne_nil (key : Text) (value : Value) (table : Table) : set key value table ≠ [] := by
  cases table with
  | nil => exact List.cons_ne_nil _ _
  | cons entry rest =>
      simp only [set]
      split <;> exact List.cons_ne_nil _ _

theorem get?_set_other {other : Text} (h : other ≠ key) :
    get? (set key value table) other = get? table other := by
  rw [get?_set, if_neg h]

theorem get?_eq_none_iff : get? table key = none ↔ key ∉ keys table := by
  induction table with
  | nil => simp [get?, keys]
  | cons entry table ih =>
      obtain ⟨k, v⟩ := entry
      by_cases hk : k = key
      · simp [get?, keys, hk]
      · simpa [get?, keys, hk, Ne.symm hk] using ih

theorem get?_of_mem (hkeys : (keys table).Nodup) (h : (key, value) ∈ table) :
    get? table key = some value := by
  induction table with
  | nil => cases h
  | cons entry table ih =>
      obtain ⟨hfirst, hkeys⟩ := List.nodup_cons.mp hkeys
      cases h with
      | head => simp [get?]
      | tail _ h =>
          have hne : entry.1 ≠ key := by
            intro he
            apply hfirst
            simpa only [he] using List.mem_map_of_mem (f := Prod.fst) h
          rw [get?, if_neg hne, ih hkeys h]

theorem get?_foldl_set (hkeys : (keys entries).Nodup) (table : Table) (key : Text) :
    get? (entries.foldl (fun table (key, value) => set key value table) table) key =
      (get? entries key).or (get? table key) := by
  induction entries generalizing table with
  | nil => simp [get?]
  | cons entry entries ih =>
      obtain ⟨k, v⟩ := entry
      obtain ⟨hfirst, hkeys⟩ := List.nodup_cons.mp hkeys
      rw [List.foldl_cons, ih hkeys, get?_set, get?]
      by_cases hk : k = key
      · subst hk
        rw [get?_eq_none_iff.mpr hfirst]
        simp
      · rw [if_neg (Ne.symm hk), if_neg hk]

end Table

namespace Overrides

variable {settings : Value} {entries : Table} {o : Overrides}

/-- Settings with these entries for their section; it is put in where there is none. -/
def withSection (entries : Table) (settings : Value) : Value :=
  let sections := match settings with
    | .table sections => sections
    | _ => []
  .table (Table.set "parser".toList (.table entries) sections)

def withEntry (key : Text) (value : Value) (settings : Value) : Value :=
  withSection (Table.set key value ((parserSection settings).toOption.getD [])) settings

theorem parserSection_withSection (entries : Table) (settings : Value) :
    parserSection (withSection entries settings) = .ok entries := by
  simp only [withSection]
  generalize (match settings with | .table sections => sections | _ => []) = sections
  have hsome : Table.get? (Table.set "parser".toList (.table entries) sections)
      "parser".toList = some (.table entries) := by
    rw [Table.get?_set, if_pos rfl]
  cases hset : Table.set "parser".toList (.table entries) sections with
  | nil => exact absurd hset (Table.set_ne_nil _ _ _)
  | cons entry rest =>
      rw [hset] at hsome
      simp only [parserSection, Value.isEmpty, Bool.false_eq_true, if_false, hsome]

theorem parserSection_withEntry (h : parserSection settings = .ok entries) (key : Text)
    (value : Value) :
    parserSection (withEntry key value settings) = .ok (Table.set key value entries) := by
  rw [withEntry, h]
  exact parserSection_withSection _ settings

/-- Setting the trimming where it was not set changes no other override. -/
theorem read_withEntry_trim (hsection : parserSection settings = .ok entries)
    (hunset : Table.get? entries "trim_if_not_quoted".toList = none) {trim : Bool}
    (h : read (withEntry "trim_if_not_quoted".toList (.boolean trim) settings) = .ok o) :
    o.trim = .given trim ∧ read settings = .ok { o with trim := .unset, base := entries } := by
  obtain ⟨hbase, ho⟩ := read_eq_ok_iff.mp h
  rw [parserSection_withEntry hsection] at hbase
  rw [← Except.ok.inj hbase] at ho
  constructor
  · have hget : Table.get? (Table.set "trim_if_not_quoted".toList (.boolean trim) entries)
        "trim_if_not_quoted".toList = some (.boolean trim) := by
      rw [Table.get?_set, if_pos rfl]
    exact Except.ok.inj (ho.trim.symm.trans (flagOf_boolean hget))
  · refine read_eq_ok_iff.mpr ⟨hsection, ?_⟩
    exact {
      type := (typeOf_congr (Table.get?_set_other (by decide))).symm.trans ho.type
      escape := (escapeOf_congr (Table.get?_set_other (by decide))).symm.trans ho.escape
      delimiter := (delimiterOf_congr (Table.get?_set_other (by decide))).symm.trans ho.delimiter
      quote := (markOf_congr (Table.get?_set_other (by decide))).symm.trans ho.quote
      nullString := (textOf_congr (Table.get?_set_other (by decide))).symm.trans ho.nullString
      commentMarker :=
        (textOf_congr (Table.get?_set_other (by decide))).symm.trans ho.commentMarker
      trim := by
        unfold flagOf
        rw [hunset]
      allowExtraColumns :=
        (flagOf_congr (Table.get?_set_other (by decide))).symm.trans ho.allowExtraColumns
      allowOptionalColumns :=
        (flagOf_congr (Table.get?_set_other (by decide))).symm.trans ho.allowOptionalColumns }

/-- The marker of comments is read as it is set, and no other override changes. -/
theorem read_withEntry_marker (h : read settings = .ok o) {marker : Text} (hne : marker ≠ []) :
    read (withEntry "comment_line_marker".toList (.text marker) settings) =
      .ok { o with
        commentMarker := .given (some marker)
        base := Table.set "comment_line_marker".toList (.text marker) o.base } := by
  obtain ⟨hbase, ho⟩ := read_eq_ok_iff.mp h
  refine read_eq_ok_iff.mpr ⟨parserSection_withEntry hbase _ _, ?_⟩
  exact {
    type := (typeOf_congr (Table.get?_set_other (by decide))).trans ho.type
    escape := (escapeOf_congr (Table.get?_set_other (by decide))).trans ho.escape
    delimiter := (delimiterOf_congr (Table.get?_set_other (by decide))).trans ho.delimiter
    quote := (markOf_congr (Table.get?_set_other (by decide))).trans ho.quote
    nullString := (textOf_congr (Table.get?_set_other (by decide))).trans ho.nullString
    commentMarker := by
      refine textOf_text ((Table.get?_set ..).trans (if_pos rfl)) ?_
      exact fun hempty => absurd hempty hne
    trim := (flagOf_congr (Table.get?_set_other (by decide))).trans ho.trim
    allowExtraColumns :=
      (flagOf_congr (Table.get?_set_other (by decide))).trans ho.allowExtraColumns
    allowOptionalColumns :=
      (flagOf_congr (Table.get?_set_other (by decide))).trans ho.allowOptionalColumns }

end Overrides

end Delimited
