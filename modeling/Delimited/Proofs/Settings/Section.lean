/- The section of settings that overrides are read from: overrides are read just when each entry of
the section can be (`read_eq_ok_iff`), and each override looks at its own entry alone. -/
import Delimited.Fragment
import Delimited.Proofs.Outcome
import Delimited.Settings.Overrides

namespace Delimited

namespace Overrides

/-- Each override is what its entry in the section says. -/
structure OfSection (entries : Table) (o : Overrides) : Prop where
  type : typeOf entries = .ok o.type
  escape : escapeOf entries = .ok o.escape
  delimiter : delimiterOf entries = .ok o.delimiter
  quote : markOf entries "quote" = .ok o.quote
  nullString : textOf entries "null_string" true = .ok o.nullString
  commentMarker : textOf entries "comment_line_marker" false = .ok o.commentMarker
  trim : flagOf entries "trim_if_not_quoted" = .ok o.trim
  allowExtraColumns : flagOf entries "allow_extra_columns" = .ok o.allowExtraColumns
  allowOptionalColumns : flagOf entries "allow_optional_columns" = .ok o.allowOptionalColumns

theorem read_eq_ok_iff {settings : Value} {o : Overrides} :
    read settings = .ok o ↔ parserSection settings = .ok o.base ∧ OfSection o.base o := by
  simp only [read, bind_eq_ok, pure, Except.pure, Except.ok.injEq]
  constructor
  · rintro ⟨base, hbase, type, htype, escape, hescape, delimiter, hdelimiter, quote, hquote,
      nullString, hnull, marker, hmarker, trim, htrim, extra, hextra, optional, hoptional, rfl⟩
    exact ⟨hbase, htype, hescape, hdelimiter, hquote, hnull, hmarker, htrim, hextra, hoptional⟩
  · rintro ⟨hbase, h⟩
    exact ⟨_, hbase, _, h.type, _, h.escape, _, h.delimiter, _, h.quote, _, h.nullString, _,
      h.commentMarker, _, h.trim, _, h.allowExtraColumns, _, h.allowOptionalColumns, rfl⟩

theorem readerType_of_read {settings : Value} {o : Overrides} (h : read settings = .ok o) :
    readerType settings = .ok o.type := by
  obtain ⟨hbase, hsection⟩ := read_eq_ok_iff.mp h
  exact bind_eq_ok.mpr ⟨o.base, hbase, hsection.type⟩

section Entries

variable {entries entries' : Table}

theorem typeOf_congr
    (h : Table.get? entries "type".toList = Table.get? entries' "type".toList) :
    typeOf entries = typeOf entries' := by
  unfold typeOf
  rw [h]

theorem delimiterOf_congr
    (h : Table.get? entries "delimiter".toList = Table.get? entries' "delimiter".toList) :
    delimiterOf entries = delimiterOf entries' := by
  unfold delimiterOf
  rw [h]

variable {key : String}

theorem markOf_congr (h : Table.get? entries key.toList = Table.get? entries' key.toList) :
    markOf entries key = markOf entries' key := by
  unfold markOf
  rw [h]

theorem escapeOf_congr
    (h : Table.get? entries "escape".toList = Table.get? entries' "escape".toList) :
    escapeOf entries = escapeOf entries' := by
  unfold escapeOf
  rw [markOf_congr h]

theorem textOf_congr {emptyAllowed : Bool}
    (h : Table.get? entries key.toList = Table.get? entries' key.toList) :
    textOf entries key emptyAllowed = textOf entries' key emptyAllowed := by
  unfold textOf
  rw [h]

theorem flagOf_congr (h : Table.get? entries key.toList = Table.get? entries' key.toList) :
    flagOf entries key = flagOf entries' key := by
  unfold flagOf
  rw [h]

theorem delimiterOf_text {t : Text}
    (h : Table.get? entries "delimiter".toList = some (.text t)) (ht : t ≠ []) :
    delimiterOf entries = .ok (.given t) := by
  unfold delimiterOf
  rw [h]
  cases t with
  | nil => exact absurd rfl ht
  | cons c t => rfl

theorem markOf_ofText? {mark : Option Text}
    (h : Table.get? entries key.toList = some (Guess.ofText? mark))
    (hmark : ∀ t ∈ mark, t.length = 1) : markOf entries key = .ok (.given mark) := by
  unfold markOf
  rw [h]
  cases mark with
  | none => rfl
  | some t =>
      obtain ⟨c, rfl⟩ := List.length_eq_one_iff.mp (hmark t rfl)
      rfl

theorem textOf_ofText? {t : Option Text}
    (h : Table.get? entries key.toList = some (Guess.ofText? t)) :
    textOf entries key true = .ok (.given t) := by
  unfold textOf
  rw [h]
  cases t with
  | none => rfl
  | some t => simp [Guess.ofText?]

theorem textOf_text {emptyAllowed : Bool} {t : Text}
    (h : Table.get? entries key.toList = some (.text t)) (ht : t = [] → emptyAllowed = true) :
    textOf entries key emptyAllowed = .ok (.given (some t)) := by
  unfold textOf
  rw [h]
  cases t with
  | nil => simp [ht rfl]
  | cons c t => rfl

theorem flagOf_boolean {b : Bool} (h : Table.get? entries key.toList = some (.boolean b)) :
    flagOf entries key = .ok (.given b) := by
  unfold flagOf
  rw [h]

theorem escapeOf_eq_ok_iff {escape : Override (Option Text)} :
    escapeOf entries = .ok escape ↔ ∃ mark, markOf entries "escape" = .ok mark ∧
      mark.map (fun mark => if mark = some [] then none else mark) = escape := by
  simp only [escapeOf, bind_eq_ok, pure, Except.pure, Except.ok.injEq]

theorem escapeOf_ofText? {mark : Option Text}
    (h : Table.get? entries "escape".toList = some (Guess.ofText? mark))
    (hmark : ∀ t ∈ mark, t.length = 1) : escapeOf entries = .ok (.given mark) := by
  have hne : mark ≠ some [] := by
    intro hempty
    exact absurd (hmark [] hempty) (by decide)
  exact escapeOf_eq_ok_iff.mpr ⟨_, markOf_ofText? h hmark, by simp [Override.map, hne]⟩

theorem length_of_markOf {t : Text} (h : markOf entries key = .ok (.given (some t))) :
    t.length ≤ 1 := by
  unfold markOf at h
  split at h
  · cases h
  · cases h
  · cases h
    exact Nat.zero_le 1
  · cases h
    exact Nat.le_refl 1
  · cases h

theorem ne_nil_of_delimiterOf {t : Text} (h : delimiterOf entries = .ok (.given t)) : t ≠ [] := by
  unfold delimiterOf at h
  split at h
  · cases h
  · cases h
    exact List.cons_ne_nil _ _
  · cases h

theorem ne_nil_of_textOf {t : Text} (h : textOf entries key false = .ok (.given (some t))) :
    t ≠ [] := by
  unfold textOf at h
  split at h
  · cases h
  · cases h
  · next t' _ =>
    cases t' with
    | nil => cases h
    | cons c t' =>
        cases h
        exact List.cons_ne_nil _ _
  · cases h

theorem length_of_escapeOf {t : Text} (h : escapeOf entries = .ok (.given (some t))) :
    t.length = 1 := by
  obtain ⟨mark, hmark, hmap⟩ := escapeOf_eq_ok_iff.mp h
  cases mark with
  | unset => simp [Override.map] at hmap
  | given mark =>
      simp only [Override.map, Override.given.injEq] at hmap
      by_cases hempty : mark = some []
      · simp [hempty] at hmap
      · rw [if_neg hempty] at hmap
        subst hmap
        have hle := length_of_markOf hmark
        have hne : t ≠ [] := fun ht => hempty (ht ▸ rfl)
        have hpos := List.length_pos_iff.mpr hne
        omega

end Entries

end Overrides

end Delimited
