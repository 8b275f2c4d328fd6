/- Settings that restate a dialect: some of its entries are set to what the dialect says. Reading
them gives back the dialect's own values for these entries, and for the others what was read
before (`read_restateIn`). -/
import Delimited.Proofs.Settings.Merging

namespace Delimited

/-- An entry of the section that settles one mark of the dialect. -/
inductive DialectEntry
  | delimiter | quote | escape | nullString
  deriving DecidableEq

namespace DialectEntry

def key : DialectEntry → Text
  | delimiter => "delimiter".toList
  | quote => "quote".toList
  | escape => "escape".toList
  | nullString => "null_string".toList

theorem key_injective {e e' : DialectEntry} (h : e.key = e'.key) : e = e' := by
  cases e <;> cases e' <;> first | rfl | exact absurd h (by decide)

def all : List DialectEntry := [delimiter, quote, escape, nullString]

theorem mem_all (e : DialectEntry) : e ∈ all := by
  cases e <;> decide

def value (d : Dialect) : DialectEntry → Value
  | delimiter => .text d.delimiter
  | quote => Guess.ofText? d.quote
  | escape => Guess.ofText? d.escape
  | nullString => Guess.ofText? d.nullString

end DialectEntry

namespace Dialect

/-- Every mark can be set as it is: the delimiter is not empty, the quote and the escape are one
code point. -/
structure IsSettable (d : Dialect) : Prop where
  delimiter : d.delimiter ≠ []
  quote : ∀ mark ∈ d.quote, mark.length = 1
  escape : ∀ mark ∈ d.escape, mark.length = 1

/-- Sets the chosen entries to the marks of the dialect. -/
def restate (d : Dialect) (chosen : List DialectEntry) (entries : Table) : Table :=
  chosen.foldl (fun entries e => Table.set e.key (e.value d) entries) entries

/-- Settings with the chosen entries set in their section; it is put in where there is none. -/
def restateIn (d : Dialect) (chosen : List DialectEntry) (settings : Value) : Value :=
  let entries := (Overrides.parserSection settings).toOption.getD []
  let sections := match settings with
    | .table sections => sections
    | _ => []
  .table (Table.set "parser".toList (.table (d.restate chosen entries)) sections)

variable (d : Dialect) (chosen : List DialectEntry) (entries : Table)

theorem get?_restate_kept {key : Text} (h : ∀ e ∈ chosen, key ≠ e.key) :
    Table.get? (d.restate chosen entries) key = Table.get? entries key := by
  induction chosen generalizing entries with
  | nil => rfl
  | cons e chosen ih =>
      have hrest := ih (Table.set e.key (e.value d) entries) fun e' he' => h e' (.tail e he')
      rw [Table.get?_set, if_neg (h e (.head chosen))] at hrest
      exact hrest

theorem get?_restate_other {key : Text} (h : key ∉ DialectEntry.all.map DialectEntry.key) :
    Table.get? (d.restate chosen entries) key = Table.get? entries key := by
  apply d.get?_restate_kept
  intro e _ hkey
  exact h (hkey ▸ List.mem_map_of_mem e.mem_all)

variable {chosen} {e : DialectEntry}

theorem get?_restate_unchosen (he : e ∉ chosen) :
    Table.get? (d.restate chosen entries) e.key = Table.get? entries e.key := by
  apply d.get?_restate_kept
  intro e' he' hkey
  exact he (DialectEntry.key_injective hkey ▸ he')

theorem get?_restate_chosen (he : e ∈ chosen) :
    Table.get? (d.restate chosen entries) e.key = some (e.value d) := by
  induction chosen generalizing entries with
  | nil => exact absurd he List.not_mem_nil
  | cons e' chosen ih =>
      by_cases hlater : e ∈ chosen
      · exact ih _ hlater
      · obtain rfl : e = e' := by simpa [hlater] using he
        have hset := d.get?_restate_unchosen (Table.set e.key (e.value d) entries) hlater
        rw [Table.get?_set, if_pos rfl] at hset
        exact hset

end Dialect

namespace Overrides

variable {settings : Value} {entries : Table} {o : Overrides} {d : Dialect}
  {chosen : List DialectEntry}

/-- The overrides with the marks of the dialect in the place of the chosen ones. -/
def restate (o : Overrides) (d : Dialect) (chosen : List DialectEntry) : Overrides :=
  { o with
    delimiter := if .delimiter ∈ chosen then .given d.delimiter else o.delimiter
    quote := if .quote ∈ chosen then .given d.quote else o.quote
    escape := if .escape ∈ chosen then .given d.escape else o.escape
    nullString := if .nullString ∈ chosen then .given d.nullString else o.nullString
    base := d.restate chosen o.base }

theorem parserSection_restateIn (h : parserSection settings = .ok entries) :
    parserSection (d.restateIn chosen settings) = .ok (d.restate chosen entries) := by
  simp only [Dialect.restateIn, h]
  exact parserSection_withSection (d.restate chosen entries) settings

/-- Where the reader of one entry looks at nothing else, a chosen entry is read as the dialect's
mark and another one as before. -/
theorem entryOf_restate {α : Type} {read : Table → Except SettingsFault (Override α)}
    {e : DialectEntry} {mark : α} {old : Override α}
    (hcongr : ∀ {t t'}, Table.get? t e.key = Table.get? t' e.key → read t = read t')
    (hmark : ∀ {t}, Table.get? t e.key = some (e.value d) → read t = .ok (.given mark))
    (h : read entries = .ok old) :
    read (d.restate chosen entries) = .ok (if e ∈ chosen then .given mark else old) := by
  by_cases he : e ∈ chosen
  · rw [if_pos he]
    exact hmark (d.get?_restate_chosen entries he)
  · rw [if_neg he, ← h]
    exact hcongr (d.get?_restate_unchosen entries he)

theorem ofSection_restate (hd : d.IsSettable) (h : OfSection o.base o) :
    OfSection (d.restate chosen o.base) (o.restate d chosen) where
  delimiter := entryOf_restate (e := .delimiter) delimiterOf_congr
    (fun hget => delimiterOf_text hget hd.delimiter) h.delimiter
  quote := entryOf_restate (e := .quote) markOf_congr
    (fun hget => markOf_ofText? hget hd.quote) h.quote
  escape := entryOf_restate (e := .escape) escapeOf_congr
    (fun hget => escapeOf_ofText? hget hd.escape) h.escape
  nullString := entryOf_restate (e := .nullString) textOf_congr textOf_ofText? h.nullString
  type := (typeOf_congr (d.get?_restate_other chosen o.base (by decide))).trans h.type
  commentMarker :=
    (textOf_congr (d.get?_restate_other chosen o.base (by decide))).trans h.commentMarker
  trim := (flagOf_congr (d.get?_restate_other chosen o.base (by decide))).trans h.trim
  allowExtraColumns :=
    (flagOf_congr (d.get?_restate_other chosen o.base (by decide))).trans h.allowExtraColumns
  allowOptionalColumns :=
    (flagOf_congr (d.get?_restate_other chosen o.base (by decide))).trans h.allowOptionalColumns

theorem read_restateIn (hd : d.IsSettable) (h : read settings = .ok o) :
    read (d.restateIn chosen settings) = .ok (o.restate d chosen) := by
  obtain ⟨hbase, hsection⟩ := read_eq_ok_iff.mp h
  exact read_eq_ok_iff.mpr ⟨parserSection_restateIn hbase, ofSection_restate hd hsection⟩

end Overrides

end Delimited
