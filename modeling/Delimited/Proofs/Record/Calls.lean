/- Calls to a reader in any order. A record that has ended leaves the lines kept that its last column
passed over, and a line dropped after a further record was asked for is one of those. Where this does
not happen, what is still to be read is always a suffix of the lines, and a line dropped as soon as a
record is found is the line of that record (`calls_in_order`). -/
import Delimited.Record.Driver
import Mathlib.Data.List.Induction
import Mathlib.Data.List.Infix

namespace Delimited.Reader

variable {d : Dialect} {limit : Int} {lines gap : List Line} {r : Reader} {calls : List Call}

/-! ### What a call does to the lines -/

theorem after_concat (d : Dialect) (limit : Int) (r : Reader) (calls : List Call) (call : Call) :
    r.after d limit (calls ++ [call]) = ((r.after d limit calls).perform d limit call).2 := by
  simp only [after, List.foldl_append, List.foldl_cons, List.foldl_nil]

theorem perform_nextRecord (skipEmpty : Bool) :
    (r.perform d limit (.nextRecord skipEmpty)).2 = (r.nextRecord skipEmpty).2 := by
  rcases h : r.nextRecord skipEmpty with ⟨_ | _, r'⟩ <;> simp only [perform, h]

theorem perform_nextColumn : (r.perform d limit .nextColumn).2 = (r.nextColumn d limit).2 := by
  rcases h : r.nextColumn d limit with ⟨_ | _, r'⟩ <;> simp only [perform, h]

/-- Between records a call for the next one passes over lines up to that of the record, or over all of
them. What is kept from the last column stays. -/
theorem nextRecord_cases {at_ : Option Line} (hr : r.position = .between at_) (skipEmpty : Bool) :
    (∃ blanks line found, r.nextRecord skipEmpty = (.ok true, found) ∧
        r.pending = blanks ++ line :: found.pending ∧
        found.position = .within line line.text ∧ found.earlier = r.earlier) ∨
      (∃ ended, r.nextRecord skipEmpty = (.ok false, ended) ∧ ended.pending = [] ∧
        ended.position = .between none ∧ ended.earlier = r.earlier) := by
  have hlines : ∀ number lines, (∃ blanks line number' pending,
      nextLine skipEmpty number lines = (some line, number', pending) ∧
        lines = blanks ++ line :: pending) ∨
      ∃ number', nextLine skipEmpty number lines = (none, number', []) := by
    intro number lines
    fun_induction nextLine skipEmpty number lines with
    | case1 number => exact .inr ⟨number, rfl⟩
    | case2 number line pending hblank ih =>
        rcases ih with ⟨blanks, found, number', pending', hnext, hpending⟩ | hnone
        · exact .inl ⟨line :: blanks, found, number', pending', hnext, by simp [hpending]⟩
        · exact .inr hnone
    | case3 number line pending hblank => exact .inl ⟨[], line, line.number, pending, rfl, rfl⟩
  rcases hlines r.number r.pending with ⟨blanks, line, number, pending, hnext, hpending⟩ |
    ⟨number, hnext⟩
  · refine .inl ⟨blanks, line, { r with pending, number, position := .within line line.text }, ?_,
      hpending, rfl, rfl⟩
    simp only [Reader.nextRecord, hr, hnext]
  · refine .inr ⟨{ r with pending := [], number, position := .between none }, ?_, rfl, rfl, rfl⟩
    simp only [Reader.nextRecord, hr, hnext]

theorem nextRecord_open {line : Line} {rest : Text} (hr : r.position = .within line rest)
    (skipEmpty : Bool) : r.nextRecord skipEmpty = (.error .recordOpen, r) := by
  simp only [Reader.nextRecord, hr]

theorem of_nextRecord_found {skipEmpty : Bool} {found : Reader}
    (h : r.nextRecord skipEmpty = (.ok true, found)) :
    (∃ at_, r.position = .between at_) ∧ r.pending ≠ [] ∧
      ∃ line, found.position = .within line line.text := by
  cases hr : r.position with
  | within line rest =>
      rw [nextRecord_open hr] at h
      cases h
  | between at_ =>
      rcases nextRecord_cases hr skipEmpty with
        ⟨blanks, line, found', hfound, hpending, hposition, -⟩ | ⟨ended, hended, -⟩
      · cases hfound.symm.trans h
        exact ⟨⟨at_, rfl⟩, by simp [hpending], line, hposition⟩
      · cases hended.symm.trans h

theorem earlier_nextRecord (r : Reader) (skipEmpty : Bool) :
    (r.nextRecord skipEmpty).2.earlier = r.earlier := by
  cases hr : r.position with
  | within line rest => rw [nextRecord_open hr]
  | between at_ =>
      rcases nextRecord_cases hr skipEmpty with
        ⟨_, _, found, hnext, -, -, hearlier⟩ | ⟨ended, hnext, -, -, hearlier⟩
      · rw [hnext, hearlier]
      · rw [hnext, hearlier]

/-- The lines that a column passes over, the line it stops in and the ones after that are those it
began with. -/
theorem lines_nextColumn (d : Dialect) (limit : Int) {line : Line} {rest : Text} (hr : r.position = .within line rest) :
    (r.nextColumn d limit).2.earlier ++ (r.nextColumn d limit).2.current.toList ++
      (r.nextColumn d limit).2.pending = line :: r.pending := by
  have hlines := lines_scanColumn d limit ⟨line, rest, r.pending⟩
  cases hscan : scanColumn d limit ⟨line, rest, r.pending⟩ <;>
    rw [hscan, Scan.lines] at hlines <;>
    simpa [nextColumn, hr, hscan, current] using hlines

/-- A line is dropped for the lines that the last column passed over, if it did, and the others of
them are read again. -/
theorem skipLine_kept {first : Line} {later : List Line} (hr : r.earlier = first :: later) :
    r.skipLine = (some first, ⟨later ++ r.current.toList ++ r.pending, .between r.current, [],
      r.number, r.quoted⟩) := by
  simp only [skipLine, hr]

theorem skipLine_at_hand (hr : r.earlier = []) :
    r.skipLine = (r.current, { r with position := .between r.current }) := by
  simp only [skipLine, hr]

/-! ### Where a reader stands in its lines -/

/-- What is still to be read is a suffix of the lines, and the lines that a reader keeps stand before
it, with a gap between them and the line at hand. -/
structure Stands (lines gap : List Line) (r : Reader) : Prop where
  pending : r.pending <:+ lines
  within : ∀ line rest, r.position = .within line rest → line :: r.pending <:+ lines
  kept : r.earlier ≠ [] → r.earlier ++ gap ++ r.current.toList ++ r.pending <:+ lines
  ended : r.earlier ≠ [] → r.position = .between none → r.pending = []

theorem stands_ofLines (lines : List Line) : Stands lines [] (ofLines lines) where
  pending := List.suffix_refl lines
  within := nofun
  kept := fun hkept => absurd rfl hkept
  ended := fun hkept => absurd rfl hkept

/-- Where nothing is kept any gap will do. -/
theorem Stands.of_nothing_kept (h : Stands lines gap r) (hr : r.earlier = []) :
    Stands lines [] r where
  pending := h.pending
  within := h.within
  kept := fun hkept => absurd hr hkept
  ended := fun hkept => absurd hr hkept

theorem Stands.nextColumn (h : Stands lines gap r) {line : Line} {rest : Text}
    (hr : r.position = .within line rest) : Stands lines [] (r.nextColumn d limit).2 := by
  have hlines := lines_nextColumn d limit hr
  have hsuffix := h.within line rest hr
  rw [← hlines] at hsuffix
  constructor
  · exact (List.suffix_append _ _).trans hsuffix
  · intro line' rest' hr'
    rw [current, hr', List.append_assoc] at hsuffix
    exact (List.suffix_append _ _).trans hsuffix
  · intro _
    rw [List.append_nil]
    exact hsuffix
  · intro _ hr'
    cases hscan : scanColumn d limit ⟨line, rest, r.pending⟩ with
    | unclosed => simp [Reader.nextColumn, hr, hscan]
    | more | last | malformed | undivided => simp [Reader.nextColumn, hr, hscan] at hr'

theorem Stands.nextRecord (h : Stands lines gap r) {at_ : Option Line}
    (hr : r.position = .between at_) (skipEmpty : Bool) :
    ∃ blanks, blanks <+: r.pending ∧
      Stands lines (gap ++ at_.toList ++ blanks) (r.nextRecord skipEmpty).2 := by
  rcases nextRecord_cases hr skipEmpty with
    ⟨blanks, line, found, hnext, hpending, hposition, hearlier⟩ |
    ⟨ended, hnext, hpending, hposition, hearlier⟩
  · refine ⟨blanks, hpending ▸ List.prefix_append _ _, ?_⟩
    have hline : line :: found.pending <:+ lines := by
      refine List.IsSuffix.trans ?_ h.pending
      rw [hpending]
      exact List.suffix_append _ _
    rw [hnext]
    constructor
    · exact (List.suffix_cons _ _).trans hline
    · intro line' rest hwithin
      obtain ⟨rfl, -⟩ := Position.within.inj (hposition.symm.trans hwithin)
      exact hline
    · intro hkept
      have hsuffix := h.kept (hearlier ▸ hkept)
      rw [current, hr, hpending] at hsuffix
      rw [hearlier, current, hposition]
      simpa using hsuffix
    · intro _ hended
      rw [hposition] at hended
      contradiction
  · refine ⟨r.pending, List.prefix_refl _, ?_⟩
    rw [hnext]
    constructor
    · rw [hpending]
      exact List.nil_suffix
    · intro line rest hwithin
      rw [hposition] at hwithin
      contradiction
    · intro hkept
      have hsuffix := h.kept (hearlier ▸ hkept)
      rw [current, hr] at hsuffix
      rw [hearlier, current, hposition, hpending]
      simpa using hsuffix
    · exact fun _ _ => hpending

/-- Dropping a line puts back lines that belong there, if no gap is left after them or none is put
back. -/
theorem Stands.skipLine (h : Stands lines gap r) (hgap : gap = [] ∨ r.earlier.length ≤ 1) :
    Stands lines [] r.skipLine.2 := by
  have hpending : r.skipLine.2.pending <:+ lines ∧ r.skipLine.2.earlier = [] := by
    cases hr : r.earlier with
    | nil =>
        rw [skipLine_at_hand hr]
        exact ⟨h.pending, hr⟩
    | cons first later =>
        rw [skipLine_kept hr]
        have hsuffix := h.kept (by simp [hr])
        refine ⟨List.IsSuffix.trans ?_ hsuffix, rfl⟩
        rcases hgap with rfl | hone
        · rw [hr, List.append_nil, List.cons_append, List.cons_append]
          exact List.suffix_cons _ _
        · obtain rfl : later = [] := by simpa [hr] using hone
          rw [List.nil_append, List.append_assoc _ r.current.toList]
          exact List.suffix_append _ _
  constructor
  · exact hpending.1
  · intro line rest hwithin
    cases hr : r.earlier with
    | nil => simp [skipLine_at_hand hr] at hwithin
    | cons first later => simp [skipLine_kept hr] at hwithin
  · exact fun hkept => absurd hpending.2 hkept
  · exact fun hkept => absurd hpending.2 hkept

/-! ### Calls that leave kept lines behind -/

/-- After these calls a reader keeps lines that a column passed over, though its record has ended and
another one was asked for since. -/
inductive Behind (d : Dialect) (limit : Int) (lines : List Line) : List Call → Prop
  | asked {calls : List Call} {line : Line} (skipEmpty : Bool) :
      ((ofLines lines).after d limit calls).position = .between (some line) →
      ((ofLines lines).after d limit calls).earlier ≠ [] →
      Behind d limit lines (calls ++ [.nextRecord skipEmpty])
  | again {calls : List Call} (skipEmpty : Bool) :
      Behind d limit lines calls → Behind d limit lines (calls ++ [.nextRecord skipEmpty])
  /-- Between records no column is read. -/
  | refused {calls : List Call} {at_ : Option Line} :
      ((ofLines lines).after d limit calls).position = .between at_ →
      Behind d limit lines calls → Behind d limit lines (calls ++ [.nextColumn])

theorem behind_concat_iff (calls : List Call) (call : Call) :
    Behind d limit lines (calls ++ [call]) ↔ match call with
      | .nextRecord _ => ((∃ line, ((ofLines lines).after d limit calls).position =
            .between (some line)) ∧ ((ofLines lines).after d limit calls).earlier ≠ []) ∨
          Behind d limit lines calls
      | .nextColumn => (∃ at_, ((ofLines lines).after d limit calls).position = .between at_) ∧
          Behind d limit lines calls
      | .skipLine => False := by
  constructor
  · intro h
    generalize hall : calls ++ [call] = all at h
    cases h with
    | asked skipEmpty hposition hkept =>
        obtain ⟨rfl, hcall⟩ := List.append_inj' hall rfl
        obtain rfl := List.singleton_inj.mp hcall
        exact .inl ⟨⟨_, hposition⟩, hkept⟩
    | again skipEmpty h =>
        obtain ⟨rfl, hcall⟩ := List.append_inj' hall rfl
        obtain rfl := List.singleton_inj.mp hcall
        exact .inr h
    | refused hposition h =>
        obtain ⟨rfl, hcall⟩ := List.append_inj' hall rfl
        obtain rfl := List.singleton_inj.mp hcall
        exact ⟨⟨_, hposition⟩, h⟩
  · intro h
    cases call with
    | nextRecord skipEmpty =>
        rcases h with ⟨⟨line, hposition⟩, hkept⟩ | h
        · exact .asked skipEmpty hposition hkept
        · exact .again skipEmpty h
    | nextColumn => exact .refused h.1.choose_spec h.2
    | skipLine => exact h.elim

theorem Behind.kept (h : Behind d limit lines calls) :
    ((ofLines lines).after d limit calls).earlier ≠ [] := by
  induction h with
  | asked skipEmpty hposition hkept => rwa [after_concat, perform_nextRecord, earlier_nextRecord]
  | again skipEmpty h ih => rwa [after_concat, perform_nextRecord, earlier_nextRecord]
  | refused hposition h ih =>
      rw [after_concat, perform_nextColumn, nextColumn_between hposition]
      exact ih

/-- The last of these calls found a record. -/
def FindsRecord (d : Dialect) (limit : Int) (lines : List Line) (calls : List Call) : Prop :=
  ∃ before skipEmpty found, calls = before ++ [.nextRecord skipEmpty] ∧
    ((ofLines lines).after d limit before).nextRecord skipEmpty = (.ok true, found)

/-- No line is dropped while kept lines are left behind, unless it is the only one kept and the call
just before did not find a record. -/
def DropsInTime (d : Dialect) (limit : Int) (lines : List Line) (calls : List Call) : Prop :=
  ∀ before, before ++ [.skipLine] <+: calls → Behind d limit lines before →
    ((ofLines lines).after d limit before).earlier.length ≤ 1 ∧ ¬ FindsRecord d limit lines before

/-- After each call what is still to be read is a suffix of the lines, and a line dropped as soon as a
record is found is the line of that record, and nothing is put back. -/
structure InOrder (d : Dialect) (limit : Int) (lines : List Line) (calls : List Call) : Prop where
  pending : ∀ before, before <+: calls → ((ofLines lines).after d limit before).pending <:+ lines
  dropped : ∀ before, before ++ [.skipLine] <+: calls → FindsRecord d limit lines before →
    ∃ line, ((ofLines lines).after d limit before).position = .within line line.text ∧
      ((ofLines lines).after d limit before).skipLine.1 = some line ∧
      ((ofLines lines).after d limit before).skipLine.2.pending =
        ((ofLines lines).after d limit before).pending

theorem dropsInTime_concat_iff (calls : List Call) (call : Call) :
    DropsInTime d limit lines (calls ++ [call]) ↔ DropsInTime d limit lines calls ∧
      (call = .skipLine → Behind d limit lines calls →
        ((ofLines lines).after d limit calls).earlier.length ≤ 1 ∧
          ¬ FindsRecord d limit lines calls) := by
  constructor
  · intro h
    refine ⟨fun before hskip => h before (hskip.trans (List.prefix_append _ _)), ?_⟩
    rintro rfl
    exact h calls (List.prefix_refl _)
  · rintro ⟨h, hlast⟩ before hskip
    rcases List.prefix_concat_iff.mp hskip with heq | hshorter
    · obtain ⟨rfl, hcall⟩ := List.append_inj' heq rfl
      exact hlast (List.singleton_inj.mp hcall).symm
    · exact h before hshorter

theorem dropsInTime_of_notMem (h : .skipLine ∉ calls) : DropsInTime d limit lines calls := by
  intro before hskip
  exact absurd (hskip.subset (by simp)) h

theorem DropsInTime.of_prefix {before : List Call} (h : DropsInTime d limit lines calls)
    (hbefore : before <+: calls) : DropsInTime d limit lines before :=
  fun _ hskip => h _ (hskip.trans hbefore)

theorem InOrder.of_prefix {before : List Call} (h : InOrder d limit lines calls)
    (hbefore : before <+: calls) : InOrder d limit lines before where
  pending := fun _ hshorter => h.pending _ (hshorter.trans hbefore)
  dropped := fun _ hshorter => h.dropped _ (hshorter.trans hbefore)

/-- There is a gap after the kept lines just where they are left behind. -/
theorem exists_stands (h : DropsInTime d limit lines calls) :
    ∃ gap, Stands lines gap ((ofLines lines).after d limit calls) ∧
      (Behind d limit lines calls ↔ gap ≠ []) := by
  induction calls using List.reverseRecOn with
  | nil =>
      refine ⟨[], stands_ofLines lines, ?_⟩
      refine iff_of_false ?_ (fun hne => hne rfl)
      intro hbehind
      exact hbehind.kept rfl
  | append_singleton calls call ih =>
      obtain ⟨hcalls, hlast⟩ := (dropsInTime_concat_iff calls call).mp h
      obtain ⟨gap, hstands, hbehind⟩ := ih hcalls
      rw [after_concat, behind_concat_iff]
      cases call with
      | nextRecord skipEmpty =>
          rw [perform_nextRecord]
          cases hr : ((ofLines lines).after d limit calls).position with
          | within line rest =>
              rw [nextRecord_open hr]
              exact ⟨gap, hstands, by simpa using hbehind⟩
          | between at_ =>
              obtain ⟨blanks, hblanks, hnext⟩ := hstands.nextRecord hr skipEmpty
              by_cases hkept : ((ofLines lines).after d limit calls).earlier = []
              · refine ⟨[], hnext.of_nothing_kept ((earlier_nextRecord _ _).trans hkept), ?_⟩
                refine iff_of_false ?_ (fun hne => hne rfl)
                rintro (⟨-, hne⟩ | hb)
                · exact hne hkept
                · exact hb.kept hkept
              · refine ⟨_, hnext, ?_⟩
                cases at_ with
                | some line => exact iff_of_true (.inl ⟨⟨line, rfl⟩, hkept⟩) (by simp)
                | none =>
                    -- The lines have run out, so none can come between.
                    obtain rfl := List.prefix_nil.mp (hstands.ended hkept hr ▸ hblanks)
                    simpa using hbehind
      | nextColumn =>
          rw [perform_nextColumn]
          cases hr : ((ofLines lines).after d limit calls).position with
          | within line rest => exact ⟨[], hstands.nextColumn hr, by simp⟩
          | between at_ =>
              rw [nextColumn_between hr]
              exact ⟨gap, hstands, by simpa using hbehind⟩
      | skipLine =>
          refine ⟨[], hstands.skipLine ?_, by simp⟩
          by_cases hgap : gap = []
          · exact .inl hgap
          · exact .inr (hlast rfl (hbehind.mpr hgap)).1

theorem FindsRecord.position (hfinds : FindsRecord d limit lines calls) :
    ∃ line, ((ofLines lines).after d limit calls).position = .within line line.text := by
  obtain ⟨before, skipEmpty, found, rfl, hnext⟩ := hfinds
  rw [after_concat, perform_nextRecord, hnext]
  exact (of_nextRecord_found hnext).2.2

/-- Where a record is found while lines are kept they are left behind. -/
theorem FindsRecord.behind (hfinds : FindsRecord d limit lines calls)
    (hdrops : DropsInTime d limit lines calls)
    (hkept : ((ofLines lines).after d limit calls).earlier ≠ []) : Behind d limit lines calls := by
  obtain ⟨before, skipEmpty, found, rfl, hnext⟩ := hfinds
  obtain ⟨⟨at_, hr⟩, hpending, -⟩ := of_nextRecord_found hnext
  rw [after_concat, perform_nextRecord, earlier_nextRecord] at hkept
  cases at_ with
  | some line => exact .asked skipEmpty hr hkept
  | none =>
      obtain ⟨gap, hstands, -⟩ := exists_stands (hdrops.of_prefix (List.prefix_append _ _))
      exact absurd (hstands.ended hkept hr) hpending

theorem inOrder_of_dropsInTime (h : DropsInTime d limit lines calls) :
    InOrder d limit lines calls where
  pending := by
    intro before hbefore
    obtain ⟨gap, hstands, -⟩ := exists_stands (h.of_prefix hbefore)
    exact hstands.pending
  dropped := by
    intro before hskip hfinds
    have hbefore : before <+: calls := (List.prefix_append _ _).trans hskip
    by_cases hkept : ((ofLines lines).after d limit before).earlier = []
    · obtain ⟨line, hposition⟩ := hfinds.position
      refine ⟨line, hposition, ?_, ?_⟩
      · rw [skipLine_at_hand hkept, current, hposition]
      · rw [skipLine_at_hand hkept]
    · exact absurd hfinds (h before hskip (hfinds.behind (h.of_prefix hbefore) hkept)).2

/-- Lines that differ from each other cannot be put back over a gap. -/
theorem Stands.length_earlier_le_one (h : Stands lines gap r) (hlines : lines.Nodup)
    (hgap : gap ≠ []) (hsuffix : r.skipLine.2.pending <:+ lines) : r.earlier.length ≤ 1 := by
  cases hr : r.earlier with
  | nil => exact Nat.zero_le 1
  | cons first later =>
      have hkept := h.kept (by simp [hr])
      rw [hr, List.append_assoc _ r.current.toList] at hkept
      simp only [skipLine_kept hr, List.append_assoc] at hsuffix
      rcases List.eq_nil_or_concat later with rfl | ⟨later', last, rfl⟩
      · exact Nat.le_refl 1
      · obtain ⟨gap', end_, rfl⟩ := (List.eq_nil_or_concat gap).resolve_left hgap
        obtain ⟨passed, hpassed⟩ := List.suffix_of_suffix_length_le hsuffix hkept (by simp; omega)
        -- Put back right before the line at hand, the last of the lines kept stands where the gap ends.
        have hsame : (passed ++ later') ++ [last] = (first :: later' ++ [last] ++ gap') ++ [end_] :=
          List.append_cancel_right (by simpa using hpassed)
        obtain ⟨-, hlast⟩ := List.append_inj' hsame rfl
        obtain rfl := List.singleton_inj.mp hlast
        have hnodup := hlines.sublist hkept.sublist
        simp [List.nodup_append] at hnodup

/-- Where all lines differ, only such calls keep them in order. -/
theorem dropsInTime_of_inOrder (hlines : lines.Nodup) (h : InOrder d limit lines calls) :
    DropsInTime d limit lines calls := by
  induction calls using List.reverseRecOn with
  | nil => exact dropsInTime_of_notMem List.not_mem_nil
  | append_singleton calls call ih =>
      have hdrops := ih (h.of_prefix (List.prefix_append _ _))
      refine (dropsInTime_concat_iff calls call).mpr ⟨hdrops, ?_⟩
      rintro rfl hbehind
      obtain ⟨gap, hstands, hgap⟩ := exists_stands hdrops
      constructor
      · apply hstands.length_earlier_le_one hlines (hgap.mp hbehind)
        have hpending := h.pending _ (List.prefix_refl _)
        rw [after_concat] at hpending
        exact hpending
      · intro hfinds
        obtain ⟨line, hposition, -, hpending⟩ := h.dropped calls (List.prefix_refl _) hfinds
        obtain ⟨first, later, hkept⟩ := List.exists_cons_of_ne_nil hbehind.kept
        rw [skipLine_kept hkept, current, hposition] at hpending
        have hlength := congrArg List.length hpending
        simp only [List.length_append, Option.toList, List.length_singleton] at hlength
        omega

/-- Calls keep the lines in order if no line is dropped while lines of a record that has ended are kept;
and where all lines differ, only then. -/
theorem calls_in_order (d : Dialect) (limit : Int) (lines : List Line) (calls : List Call) :
    (DropsInTime d limit lines calls → InOrder d limit lines calls) ∧
      (lines.Nodup → InOrder d limit lines calls → DropsInTime d limit lines calls) :=
  ⟨inOrder_of_dropsInTime, dropsInTime_of_inOrder⟩

/-- Lines of the first record are still kept when the second one is found. Its column is asked for
before a line is dropped, and so the line dropped is that of the third record. -/
theorem calls_in_order_asked :
    InOrder ⟨[','], some ['"'], none, none, false⟩ 8
      [⟨1, ['"', 'a']⟩, ⟨2, ['b', '"']⟩, ⟨3, ['c']⟩, ⟨4, ['"', 'd', '"', 'x']⟩]
      [.nextRecord true, .nextColumn, .nextRecord true, .nextColumn, .nextRecord true, .nextColumn,
        .skipLine] := by
  refine (calls_in_order _ _ _ _).1 ?_
  refine (dropsInTime_concat_iff [.nextRecord true, .nextColumn, .nextRecord true, .nextColumn,
    .nextRecord true, .nextColumn] _).mpr
    ⟨dropsInTime_of_notMem (by decide), fun _ hbehind => ?_⟩
  obtain ⟨⟨at_, hposition⟩, -⟩ := (behind_concat_iff [.nextRecord true, .nextColumn,
    .nextRecord true, .nextColumn, .nextRecord true] .nextColumn).mp hbehind
  have hwithin : ((ofLines [⟨1, ['"', 'a']⟩, ⟨2, ['b', '"']⟩, ⟨3, ['c']⟩,
      ⟨4, ['"', 'd', '"', 'x']⟩]).after ⟨[','], some ['"'], none, none, false⟩ 8 [.nextRecord true,
        .nextColumn, .nextRecord true, .nextColumn, .nextRecord true]).position =
      .within ⟨4, ['"', 'd', '"', 'x']⟩ ['"', 'd', '"', 'x'] := by decide +kernel
  rw [hwithin] at hposition
  contradiction

/-- A value of three lines, and a record found after it. The line dropped then is the first of the
three; the second is read again and the third is not. -/
theorem calls_out_of_order :
    ¬ InOrder ⟨[','], some ['"'], none, none, false⟩ 8
      [⟨1, ['"', 'a']⟩, ⟨2, ['b']⟩, ⟨3, ['c', '"']⟩, ⟨4, ['d']⟩]
      [.nextRecord true, .nextColumn, .nextRecord true, .skipLine] := by
  intro h
  have hpending := h.pending _ (List.prefix_refl _)
  have hread : ((ofLines [⟨1, ['"', 'a']⟩, ⟨2, ['b']⟩, ⟨3, ['c', '"']⟩, ⟨4, ['d']⟩]).after
      ⟨[','], some ['"'], none, none, false⟩ 8 [.nextRecord true, .nextColumn, .nextRecord true,
        .skipLine]).pending = [⟨2, ['b']⟩, ⟨4, ['d']⟩] := by decide +kernel
  rw [hread] at hpending
  exact absurd hpending (by decide)

end Delimited.Reader
