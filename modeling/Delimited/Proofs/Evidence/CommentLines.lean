/- Comment lines and records. A marker is looked for at the start of each line, also where a quoted
value goes on in it, so comments are left out by whole records only where no record loses some of its
lines and keeps others (`records_without_comments`). So it is where no comment stands inside quotes or
opens them (`CommentsApart`). -/
import Delimited.Proofs.Evidence.Candidates
import Delimited.Proofs.Record.Readings

namespace Delimited.Evidence

/-- Once the marker is chosen, each line is kept or not by its own text. -/
theorem kept_commentMarker_eq_filter (c : Tunables) (delimiter : Text)
    (quote nullString : Option Text) (lines : List Line) :
    ∃ keep, (commentMarker c delimiter quote nullString lines).2 = lines.filter keep := by
  rcases commentMarker_cases c delimiter quote nullString lines with hnone | ⟨marker, -, hmarker⟩
  · refine ⟨fun _ => true, ?_⟩
    rw [hnone, List.filter_eq_self.mpr (fun _ _ => rfl)]
  · rw [hmarker]
    exact ⟨_, rfl⟩

section Records

variable {d : Dialect} {limit : Int} {marker : Text} {lines kept : List Line} {whole : Division}

theorem records_of_filter (hd : d.delimiter ≠ [])
    (hsplit : split d true limit lines = some whole) (hwarnings : whole.warnings = [])
    (hfilter : ∃ keep, kept = lines.filter keep) (hwhole : WholeRecords d true limit lines kept) :
    ∃ rest, split d true limit kept = some rest ∧ rest.records.Sublist whole.records := by
  obtain ⟨keep, rfl⟩ := hfilter
  obtain rfl : division d true limit lines = whole := by
    rwa [split_eq_division hd, Option.some_inj] at hsplit
  exact ⟨_, split_eq_division hd true limit _, records_filter_sublist hd hwarnings hwhole⟩

/-- Without the lines of comments, be their marker set or found, some of the records are left, in
order, as long as no record loses only some of its lines. -/
theorem records_without_comments {d : Dialect} (hd : d.delimiter ≠ []) (c : Tunables) (limit : Int)
    (marker : Text) {lines kept : List Line} {whole : Division}
    (hsplit : split d true limit lines = some whole) (hwarnings : whole.warnings = [])
    (hkept : kept = dropComments marker lines ∨
      kept = (commentMarker c d.delimiter d.quote d.nullString lines).2)
    (hwhole : WholeRecords d true limit lines kept) :
    ∃ rest, split d true limit kept = some rest ∧ rest.records.Sublist whole.records := by
  have hfilter : ∃ keep, kept = lines.filter keep := by
    cases hkept with
    | inl hset => exact ⟨_, hset⟩
    | inr hfound =>
        rw [hfound]
        exact kept_commentMarker_eq_filter c d.delimiter d.quote d.nullString lines
  exact records_of_filter hd hsplit hwarnings hfilter hwhole

/-- A comment is left out, and the record of two lines after it is not. -/
theorem records_without_comments_two_lines :
    WholeRecords ⟨[','], some ['"'], none, none, false⟩ true 8
        [⟨1, ['#', 'x']⟩, ⟨2, ['"', 'a']⟩, ⟨3, ['b', '"']⟩] [⟨2, ['"', 'a']⟩, ⟨3, ['b', '"']⟩] ∧
      ∃ rest, split ⟨[','], some ['"'], none, none, false⟩ true 8
          [⟨2, ['"', 'a']⟩, ⟨3, ['b', '"']⟩] = some rest ∧
        rest.records.Sublist [[⟨some ['#', 'x'], false⟩], [⟨some ['a', '\n', 'b'], true⟩]] := by
  have hsplit : split ⟨[','], some ['"'], none, none, false⟩ true 8
      [⟨1, ['#', 'x']⟩, ⟨2, ['"', 'a']⟩, ⟨3, ['b', '"']⟩] =
        some { records := [[⟨some ['#', 'x'], false⟩], [⟨some ['a', '\n', 'b'], true⟩]] } := by
    decide +kernel
  have hwhole : WholeRecords ⟨[','], some ['"'], none, none, false⟩ true 8
      [⟨1, ['#', 'x']⟩, ⟨2, ['"', 'a']⟩, ⟨3, ['b', '"']⟩]
      [⟨2, ['"', 'a']⟩, ⟨3, ['b', '"']⟩] := by
    unfold WholeRecords
    decide +kernel
  exact ⟨hwhole, records_without_comments (by decide) {} 8 ['#'] hsplit rfl
    (.inl (by decide)) hwhole⟩

/-- The marker starts the second line of a record: the lines left are read as another record, though
nothing is wrong with any of them. -/
theorem record_changed_without_comments :
    ∃ whole rest, split ⟨[','], some ['"'], none, none, false⟩ true 8
        [⟨1, ['"', 'a']⟩, ⟨2, ['#', 'b']⟩, ⟨3, ['c', '"']⟩] = some whole ∧
      whole.warnings = [] ∧ whole.openEnd = false ∧
      split ⟨[','], some ['"'], none, none, false⟩ true 8
        (dropComments ['#'] [⟨1, ['"', 'a']⟩, ⟨2, ['#', 'b']⟩, ⟨3, ['c', '"']⟩]) = some rest ∧
      split ⟨[','], some ['"'], none, none, false⟩ true 8
        (commentMarker {} [','] (some ['"']) none
          [⟨1, ['"', 'a']⟩, ⟨2, ['#', 'b']⟩, ⟨3, ['c', '"']⟩]).2 = some rest ∧
      ¬ rest.records.Sublist whole.records := by
  refine ⟨{ records := [[⟨some ['a', '\n', '#', 'b', '\n', 'c'], true⟩]] },
    { records := [[⟨some ['a', '\n', 'c'], true⟩]] }, ?_⟩
  decide +kernel

/-- No line that is read inside quotes starts with the marker, and none that starts with it opens a
quote. -/
structure CommentsApart (d : Dialect) (limit : Int) (marker : Text) (lines : List Line) : Prop where
  inside : ∀ reading ∈ readings d true limit lines, ∀ line ∈ reading.1.tail, ¬ marker <+: line.text
  opens : ∀ line ∈ lines, marker <+: line.text →
    (scanRecord d limit ⟨line, line.text, []⟩).isUnclosed = false

/-- The lines left out are some of those that start with the marker. -/
theorem exists_filter_of_marker {c : Tunables}
    (hkept : kept = dropComments marker lines ∨
      commentMarker c d.delimiter d.quote d.nullString lines = (some marker, kept)) :
    ∃ keep : Line → Bool, kept = lines.filter keep ∧
      ∀ line, keep line = false → marker <+: line.text := by
  cases hkept with
  | inl hset =>
      refine ⟨_, hset, fun line hline => ?_⟩
      simpa [Text.startsWith_iff] using hline
  | inr hfound =>
      rcases commentMarker_cases c d.delimiter d.quote d.nullString lines with
        hnone | ⟨found, -, hmarker⟩
      · simp [hnone] at hfound
      · obtain ⟨rfl, rfl⟩ : found = marker ∧ _ = kept := by
          simpa using hmarker.symm.trans hfound
        refine ⟨_, rfl, fun line hline => ?_⟩
        rw [Bool.not_eq_false', Bool.and_eq_true, Text.startsWith_iff] at hline
        exact hline.1

theorem CommentsApart.wholeRecords (h : CommentsApart d limit marker lines) (hd : d.delimiter ≠ [])
    {keep : Line → Bool} (hkeep : ∀ line, keep line = false → marker <+: line.text) :
    WholeRecords d true limit lines (lines.filter keep) := by
  apply wholeRecords_filter hd
  · intro reading hreading line hline
    rw [← Bool.not_eq_false]
    exact fun hleft => h.inside reading hreading line hline (hkeep line hleft)
  · exact fun line hline hleft => h.opens line hline (hkeep line hleft)

/-- Where comments stand apart from quoted values, the lines that are left are read as some of the
records, in order. -/
theorem records_without_comments_apart (hd : d.delimiter ≠ []) {c : Tunables}
    (hsplit : split d true limit lines = some whole) (hwarnings : whole.warnings = [])
    (hkept : kept = dropComments marker lines ∨
      commentMarker c d.delimiter d.quote d.nullString lines = (some marker, kept))
    (hapart : CommentsApart d limit marker lines) :
    ∃ rest, split d true limit kept = some rest ∧ rest.records.Sublist whole.records := by
  obtain ⟨keep, rfl, hkeep⟩ := exists_filter_of_marker hkept
  exact records_of_filter hd hsplit hwarnings ⟨keep, rfl⟩ (hapart.wholeRecords hd hkeep)

/-- A quote inside a comment does not open anything. -/
example : CommentsApart ⟨[','], some ['"'], none, none, false⟩ 8 ['#']
    [⟨1, ['#', '"']⟩, ⟨2, ['"', 'a']⟩, ⟨3, ['b', '"']⟩] :=
  ⟨by decide +kernel, by decide +kernel⟩

end Records

end Delimited.Evidence
