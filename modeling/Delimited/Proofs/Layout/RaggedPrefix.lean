/- The ragged records before a table, and the lines that are dropped for them. The number of records
is taken for a number of lines; where a record fills more lines, or a line is dropped among them, the
lines after the cut need not make the records after the ragged ones (`records_after_raggedPrefix`). -/
import Delimited.Proofs.Layout.NarrowRecords
import Delimited.Proofs.Record.Concatenation
import Delimited.Proofs.Record.Extent
import Mathlib.Algebra.BigOperators.Group.List.Basic

namespace Delimited

/-- Each of the lines is a record. -/
structure OneRecordPerLine (d : Dialect) (limit : Int) (lines : List Line) : Prop where
  records : (division d false limit lines).records.length = lines.length
  closed : (division d false limit lines).openEnd = false

/-- How many ragged records a division starts with. -/
def Division.raggedPrefix (c : Tunables) (s : Division) : Nat :=
  Layout.raggedPrefix c (s.records.map List.length)

theorem Layout.raggedPrefix_le (c : Tunables) (widths : List Nat) :
    Layout.raggedPrefix c widths ≤ widths.length - 1 := by
  rcases raggedPrefix_cases c widths with hzero | ⟨-, -, hmore⟩
  · rw [hzero]
    exact Nat.zero_le _
  · omega

theorem Division.raggedPrefix_le (c : Tunables) (s : Division) :
    s.raggedPrefix c ≤ s.records.length - 1 := by
  have hle := Layout.raggedPrefix_le c (s.records.map List.length)
  rwa [List.length_map] at hle

section Cut

variable {d : Dialect} {limit : Int} {lines : List Line} {n : Nat}

/-- Lines that are a record each can be left out with their records. -/
theorem records_drop_of_oneRecordPerLine (hd : d.delimiter ≠ []) (hn : n ≤ lines.length)
    (h : OneRecordPerLine d limit (lines.take n)) :
    (division d false limit (lines.drop n)).records =
      (division d false limit lines).records.drop n := by
  have happend := division_append hd h.closed (lines.drop n)
  have hlength : (division d false limit (lines.take n)).records.length = n := by
    rw [h.records, List.length_take, Nat.min_eq_left hn]
  rw [List.take_append_drop] at happend
  rw [happend, List.drop_left' hlength]

/-- The lines divide before any of the records, and no sooner than after as many lines. -/
theorem exists_lines_of_records_drop (hd : d.delimiter ≠ [])
    (hn : n ≤ (division d false limit lines).records.length) :
    ∃ passed left, lines = passed ++ left ∧ n ≤ passed.length ∧
      (division d false limit left).records = (division d false limit lines).records.drop n := by
  induction course hd false limit lines generalizing n with
  | done =>
      obtain rfl : n = 0 := by simpa using hn
      exact ⟨[], [], rfl, Nat.le_refl 0, rfl⟩
  | blank h => simp at h
  | @record line passed rest fields h hlater _ ih =>
      cases n with
      | zero => exact ⟨[], _, rfl, Nat.le_refl 0, rfl⟩
      | succ n =>
          rw [division_record hd h (hlater _)] at hn ⊢
          obtain ⟨passed', left, rfl, hle, hrecords⟩ := ih (Nat.le_of_succ_le_succ hn)
          refine ⟨line :: (passed ++ passed'), left, by simp, ?_, ?_⟩
          · simp only [List.length_cons, List.length_append]
            omega
          · rw [hrecords, List.drop_succ_cons]
  | @unclosed line pending fields h hscan =>
      cases n with
      | zero => exact ⟨[], _, rfl, Nat.le_refl 0, rfl⟩
      | succ n =>
          rw [division_unclosed h hscan] at hn ⊢
          obtain rfl : n = 0 := by simpa using hn
          exact ⟨line :: pending, [], by simp, by simp, by simp⟩
  | @malformed line pending lost rest warning h hscan hlines _ ih =>
      rw [division_malformed hd h hscan] at hn ⊢
      obtain ⟨passed, left, rfl, hle, hrecords⟩ := ih hn
      refine ⟨lost ++ warning.dropped :: passed, left, by simp [hlines], ?_, hrecords⟩
      simp only [List.length_append, List.length_cons]
      omega

/-- Each record fills a line. -/
theorem le_sum_extent_take {records : List Record} (hn : n ≤ records.length) :
    n ≤ ((records.take n).map (Record.extent false)).sum := by
  have hle : ((records.take n).map (Record.extent false)).length ≤
      ((records.take n).map (Record.extent false)).sum := by
    apply List.length_le_sum_of_one_le
    intro i hi
    obtain ⟨r, -, rfl⟩ := List.mem_map.mp hi
    exact Nat.le_add_right 1 _
  rwa [List.length_map, List.length_take, Nat.min_eq_left hn] at hle

/-- Records of one line each are those of the first lines, if no line is dropped. -/
theorem oneRecordPerLine_take (hd : d.delimiter ≠ []) (hlines : NoLineFeed lines)
    (hwarnings : (division d false limit lines).warnings = [])
    (hn : n ≤ (division d false limit lines).records.length - 1)
    (hextent : (((division d false limit lines).records.take n).map (Record.extent false)).sum ≤ n) :
    OneRecordPerLine d limit (lines.take n) := by
  induction course hd false limit lines generalizing n with
  | done =>
      rw [List.take_nil]
      exact ⟨by simp, by simp⟩
  | blank h => simp at h
  | @record line passed rest fields h hlater _ ih =>
      cases n with
      | zero => exact ⟨by simp, by simp⟩
      | succ n =>
          obtain ⟨hline, hpending⟩ := NoLineFeed.cons.mp hlines
          obtain ⟨passed', hpassed', hfurther, -⟩ :=
            scanRecord_extent false hd hline hpending (hlater rest)
          obtain rfl : passed = passed' := List.append_cancel_right hpassed'
          rw [division_record hd h (hlater _)] at hwarnings hn hextent
          simp only [List.length_cons, Nat.add_sub_cancel, List.take_succ_cons, List.map_cons,
            List.sum_cons, Record.extent, hfurther, weight_false] at hn hextent
          have hle := le_sum_extent_take
            (Nat.le_of_succ_le hn : n ≤ (division d false limit rest).records.length)
          obtain rfl : passed = [] := List.length_eq_zero_iff.mp (by omega)
          have hone : OneRecordPerLine d limit (rest.take n) :=
            ih (NoLineFeed.append.mp hpending).2 hwarnings (by omega) (by omega)
          have hfirst := division_record hd h (hlater (rest.take n))
          rw [List.nil_append] at hfirst
          rw [List.nil_append, List.take_succ_cons]
          exact ⟨by rw [hfirst, List.length_cons, List.length_cons, hone.records],
            by rw [hfirst, hone.closed]⟩
  | @unclosed line pending fields h hscan =>
      rw [division_unclosed h hscan] at hn
      obtain rfl : n = 0 := by simpa using hn
      exact ⟨by simp, by simp⟩
  | malformed h hscan _ _ _ => simp [division_malformed hd h hscan] at hwarnings

/-- Where the lines left after a cut make the records left, the lines before it are a record each:
there are no more lines than the records fill. -/
theorem oneRecordPerLine_of_records_eq_drop (hd : d.delimiter ≠ []) (hlines : NoLineFeed lines)
    (hn : n ≤ (division d false limit lines).records.length - 1)
    (hwarnings : (division d false limit (lines.drop n)).warnings = [])
    (hclosed : (division d false limit (lines.drop n)).openEnd = false)
    (hrecords : (division d false limit (lines.drop n)).records =
      (division d false limit lines).records.drop n) :
    OneRecordPerLine d limit (lines.take n) := by
  have hn' : n ≤ (division d false limit lines).records.length := by omega
  have hlength := length_division_le hd false limit lines
  have hleft := weight_keptLines hd
    (fun line hline => hlines line (List.mem_of_mem_drop hline)) hclosed
  rw [keptLines_of_warnings_eq_nil hd hwarnings, hrecords, weight_false, List.length_drop] at hleft
  have hall : ((division d false limit lines).records.map (Record.extent false)).sum ≤
      weight false (keptLines d false limit lines) := sum_extent_le hd hlines
  rw [weight_false, ← List.take_append_drop n (division d false limit lines).records,
    List.map_append, List.sum_append, ← hleft] at hall
  have hfirst := le_sum_extent_take hn'
  have hsublist := keptLines_sublist hd false limit lines
  have hle := hsublist.length_le
  have hkept : keptLines d false limit lines = lines := hsublist.eq_of_length (by omega)
  have hunwarned := division_keptLines hd false limit lines
  rw [hkept] at hunwarned
  exact oneRecordPerLine_take hd hlines (by rw [hunwarned]) hn (by omega)

end Cut

/-- The lines after the ragged ones make the records after the ragged ones, if each of the lines cut
off is a record. The right cut is never sooner. Among lines of a file no other prefix is cut off
well, unless what is left is read with a warning or ends inside quotes. -/
theorem records_after_raggedPrefix {d : Dialect} (hd : d.delimiter ≠ []) (c : Tunables)
    (lines : List Line) :
    ∃ whole rest, split d false c.maxQuotedSize lines = some whole ∧
      split d false c.maxQuotedSize (lines.drop (whole.raggedPrefix c)) = some rest ∧
      (OneRecordPerLine d c.maxQuotedSize (lines.take (whole.raggedPrefix c)) →
        rest.records = whole.records.drop (whole.raggedPrefix c)) ∧
      (∃ passed left after, lines = passed ++ left ∧ whole.raggedPrefix c ≤ passed.length ∧
        split d false c.maxQuotedSize left = some after ∧
        after.records = whole.records.drop (whole.raggedPrefix c)) ∧
      (NoLineFeed lines → rest.warnings = [] → rest.openEnd = false →
        (rest.records = whole.records.drop (whole.raggedPrefix c) ↔
          OneRecordPerLine d c.maxQuotedSize (lines.take (whole.raggedPrefix c)))) := by
  have hle := Division.raggedPrefix_le c (division d false c.maxQuotedSize lines)
  have hlength := length_division_le hd false c.maxQuotedSize lines
  have henough : OneRecordPerLine d c.maxQuotedSize
      (lines.take ((division d false c.maxQuotedSize lines).raggedPrefix c)) → _ :=
    records_drop_of_oneRecordPerLine hd (by omega)
  refine ⟨_, _, split_eq_division hd false _ _, split_eq_division hd false _ _, henough, ?_, ?_⟩
  · have hrecords : (division d false c.maxQuotedSize lines).raggedPrefix c ≤
        (division d false c.maxQuotedSize lines).records.length := by omega
    obtain ⟨passed, left, hlines, hpassed, hrecords⟩ := exists_lines_of_records_drop hd hrecords
    exact ⟨passed, left, _, hlines, hpassed, split_eq_division hd false _ _, hrecords⟩
  · intro hlines hwarnings hclosed
    constructor
    · exact oneRecordPerLine_of_records_eq_drop hd hlines hle hwarnings hclosed
    · exact henough

theorem records_after_raggedPrefix_title :
    (⟨[','], some ['"'], none, none, false⟩ : Dialect).delimiter ≠ [] ∧
      ∃ whole rest, split ⟨[','], some ['"'], none, none, false⟩ false 131072
          [⟨1, ['t']⟩, ⟨2, ['1', ',', 'a']⟩, ⟨3, ['2', ',', 'b']⟩] = some whole ∧
        whole.raggedPrefix {} = 1 ∧
        split ⟨[','], some ['"'], none, none, false⟩ false 131072
          [⟨2, ['1', ',', 'a']⟩, ⟨3, ['2', ',', 'b']⟩] = some rest ∧
        rest.records = whole.records.drop 1 := by
  have hd : (⟨[','], some ['"'], none, none, false⟩ : Dialect).delimiter ≠ [] := by decide
  obtain ⟨whole, rest, hwhole, hrest, henough, -, -⟩ :=
    records_after_raggedPrefix hd {} [⟨1, ['t']⟩, ⟨2, ['1', ',', 'a']⟩, ⟨3, ['2', ',', 'b']⟩]
  have hragged : whole.raggedPrefix {} = 1 := by
    have hsplit : (split ⟨[','], some ['"'], none, none, false⟩ false 131072
        [⟨1, ['t']⟩, ⟨2, ['1', ',', 'a']⟩, ⟨3, ['2', ',', 'b']⟩]).map
          (Division.raggedPrefix {}) = some 1 := by decide +kernel
    rw [hwhole] at hsplit
    exact Option.some.inj hsplit
  rw [hragged] at hrest henough
  exact ⟨hd, whole, rest, hwhole, hragged, hrest,
    henough ⟨by decide +kernel, by decide +kernel⟩⟩

/-- A title on two lines is one ragged record, and its second line opens a quote. -/
theorem records_after_raggedPrefix_two_lines :
    ¬ ∃ whole rest, split ⟨[','], some ['"'], none, none, false⟩ false 131072
        [⟨1, ['"', 't']⟩, ⟨2, ['"']⟩, ⟨3, ['1', ',', 'a']⟩, ⟨4, ['2', ',', 'b']⟩] = some whole ∧
      split ⟨[','], some ['"'], none, none, false⟩ false 131072
        ([⟨1, ['"', 't']⟩, ⟨2, ['"']⟩, ⟨3, ['1', ',', 'a']⟩, ⟨4, ['2', ',', 'b']⟩].drop
          (whole.raggedPrefix {})) = some rest ∧
      rest.records = whole.records.drop (whole.raggedPrefix {}) := by
  rintro ⟨whole, rest, hwhole, hrest, hrecords⟩
  have hsplit : split ⟨[','], some ['"'], none, none, false⟩ false 131072
      [⟨1, ['"', 't']⟩, ⟨2, ['"']⟩, ⟨3, ['1', ',', 'a']⟩, ⟨4, ['2', ',', 'b']⟩] =
        some { records := [[⟨some ['t', '\n'], true⟩], [⟨some ['1'], false⟩, ⟨some ['a'], false⟩],
                 [⟨some ['2'], false⟩, ⟨some ['b'], false⟩]] } := by decide +kernel
  obtain rfl := Option.some.inj (hsplit.symm.trans hwhole)
  have hcut : split ⟨[','], some ['"'], none, none, false⟩ false 131072
      [⟨2, ['"']⟩, ⟨3, ['1', ',', 'a']⟩, ⟨4, ['2', ',', 'b']⟩] =
        some { records := [[]], openEnd := true } := by decide +kernel
  obtain rfl := Option.some.inj (hcut.symm.trans hrest)
  exact absurd hrecords (by decide +kernel)

end Delimited
