/- Null strings as whole fields. A match takes up the delimiter on both sides of a field, so the field
right after one found is passed over. What is counted is therefore a part of the fields with a text,
at least half of them: the choice among several texts need not go to the one that fills most fields,
but where there is such a field at all, some text is chosen (`nullString_of_fields`). -/
import Delimited.Evidence.NullString
import Delimited.Proofs.Evidence.MostFound
import Delimited.Proofs.Text.Pattern
import Mathlib.Algebra.BigOperators.Group.List.Basic
import Mathlib.Algebra.Order.BigOperators.Group.List
import Mathlib.Algebra.Order.Group.Nat

namespace Delimited.Evidence

/-! ### Fields that are looked at -/

/-- The fields that are looked at for a text: all but those that come right after one found. -/
def lookedAt (n : Text) : List Text → List Text
  | [] => []
  | [field] => [field]
  | field :: next :: fields =>
    if field = n then field :: lookedAt n fields else field :: lookedAt n (next :: fields)

/-- The fields that come right after one found. -/
def passedOver (n : Text) : List Text → List Text
  | [] | [_] => []
  | field :: next :: fields =>
    if field = n then next :: passedOver n fields else passedOver n (next :: fields)

variable {d : Char} {n : Text} {field next : Text} {fields : List Text}

theorem count_lookedAt_add_count_passedOver (n : Text) (fields : List Text) :
    (lookedAt n fields).count n + (passedOver n fields).count n = fields.count n := by
  induction fields using lookedAt.induct n with
  | case1 => rfl
  | case2 field => rfl
  | case3 next fields ih =>
      simp only [lookedAt, passedOver, if_true, List.count_cons]
      omega
  | case4 field next fields h ih =>
      simp only [lookedAt, passedOver, if_neg h, List.count_cons] at ih ⊢
      omega

theorem lookedAt_cons (n field : Text) (fields : List Text) :
    lookedAt n (field :: fields) =
      field :: lookedAt n (if field = n then fields.tail else fields) := by
  cases fields with
  | nil => simp [lookedAt]
  | cons next fields =>
      rw [lookedAt]
      split <;> rfl

/-- No more fields with the text are passed over than are found. -/
theorem count_passedOver_le (n : Text) (fields : List Text) :
    (passedOver n fields).count n ≤ (lookedAt n fields).count n := by
  induction fields using lookedAt.induct n with
  | case1 => exact Nat.le_refl 0
  | case2 field => exact Nat.zero_le _
  | case3 next fields ih =>
      simp only [lookedAt, passedOver, if_true, List.count_cons, BEq.rfl]
      split <;> omega
  | case4 field next fields h ih =>
      simp only [lookedAt, passedOver, if_neg h, List.count_cons] at ih ⊢
      omega

theorem pair_infix_cons_cons :
    [n, n] <:+: field :: next :: fields ↔ field = n ∧ next = n ∨ [n, n] <:+: next :: fields := by
  rw [List.infix_cons_iff, List.cons_prefix_cons, List.cons_prefix_cons]
  simp [eq_comm]

theorem pair_infix_cons (h : field ≠ n) : [n, n] <:+: field :: fields ↔ [n, n] <:+: fields := by
  rw [List.infix_cons_iff, List.cons_prefix_cons]
  simp [h.symm]

/-- The text is passed over just where it fills two neighbouring fields. -/
theorem mem_passedOver_iff : n ∈ passedOver n fields ↔ [n, n] <:+: fields := by
  induction fields using passedOver.induct n with
  | case1 => simp [passedOver]
  | case2 field => simp [passedOver, List.infix_cons_iff]
  | case3 next fields ih =>
      rw [passedOver, if_pos rfl, List.mem_cons, ih, pair_infix_cons_cons]
      by_cases hnext : next = n
      · simp [hnext]
      · simp [hnext, Ne.symm hnext, pair_infix_cons hnext]
  | case4 field next fields h ih =>
      rw [passedOver, if_neg h, ih, pair_infix_cons h]

/-! ### Matches in a line of fields -/

/-- A whole field with the text, up to the delimiter after it. -/
def wholeField (d : Char) (n : Text) : Pattern := Pattern.both (Pattern.literal n) (fieldEnd [d])

section WholeField

variable {atStart : Bool} {t rest : Text}

theorem finish_of_unbroken (h : '\n' ∉ t) :
    Pattern.finish atStart t = if t = [] then [t] else [] := by
  have hend : (t = [] ∨ t = ['\n']) ↔ t = [] := by
    refine or_iff_left ?_
    rintro rfl
    exact h (.head [])
  unfold Pattern.finish
  simp only [hend]

theorem fieldEnd_delimiter (hbreak : '\n' ∉ d :: rest) :
    fieldEnd [d] atStart (d :: rest) = [rest] := by
  rw [fieldEnd, Pattern.either, finish_of_unbroken hbreak]
  simp [Pattern.literal, Text.after?]

theorem fieldEnd_other {c : Char} (hc : d ≠ c) (hbreak : '\n' ∉ c :: t) :
    fieldEnd [d] atStart (c :: t) = [] := by
  rw [fieldEnd, Pattern.either, finish_of_unbroken hbreak]
  simp [Pattern.literal, Text.after?, hc]

/-- At a field that the line ends with. -/
theorem wholeField_last (hd : d ∉ field) (hbreak : '\n' ∉ field) :
    wholeField d n atStart field = if field = n then [[]] else [] := by
  rw [wholeField, Pattern.both, Pattern.literal]
  cases hafter : Text.after? n field with
  | none =>
      have hne : field ≠ n := by
        rintro rfl
        have hself := Text.after?_append field []
        rw [List.append_nil, hafter] at hself
        contradiction
      simp [hne]
  | some left =>
      obtain rfl : field = n ++ left := Text.after?_eq_some_iff.mp hafter
      rw [List.mem_append, not_or] at hd hbreak
      cases left with
      | nil => simp [fieldEnd, Pattern.either, Pattern.finish, Pattern.literal, Text.after?]
      | cons c left => simp [fieldEnd_other (List.ne_of_not_mem_cons hd.2) hbreak.2]

/-- At a field before a delimiter. -/
theorem wholeField_delimited (hn : d ∉ n) (hd : d ∉ field) (hbreak : '\n' ∉ field ++ d :: rest) :
    wholeField d n atStart (field ++ d :: rest) = if field = n then [rest] else [] := by
  rw [wholeField, Pattern.both, Pattern.literal]
  cases hafter : Text.after? n (field ++ d :: rest) with
  | none =>
      have hne : field ≠ n := by
        rintro rfl
        rw [Text.after?_append] at hafter
        contradiction
      simp [hne]
  | some left =>
      -- The delimiter is not in the text, so the text reaches no farther than the field.
      obtain ⟨excess, rfl, hleft⟩ | ⟨short, rfl, rfl⟩ :=
        List.append_eq_append_iff.mp (Text.after?_eq_some_iff.mp hafter)
      · cases excess with
        | nil =>
            obtain rfl : d :: rest = left := hleft
            rw [List.mem_append, not_or] at hbreak
            simp [fieldEnd_delimiter hbreak.2]
        | cons c excess =>
            obtain ⟨rfl, -⟩ := List.cons.inj hleft
            simp at hn
      · rw [List.append_assoc, List.mem_append, not_or] at hbreak
        cases short with
        | nil => simp [fieldEnd_delimiter hbreak.2]
        | cons c short =>
            rw [List.mem_append, not_or] at hd
            have hend : fieldEnd [d] false (c :: (short ++ d :: rest)) = [] :=
              fieldEnd_other (List.ne_of_not_mem_cons hd.2) hbreak.2
            simp [hend]

/-- At the first field of a line; a match leaves the fields after it. -/
theorem wholeField_line (hn : d ∉ n) (hd : d ∉ field)
    (hbreak : '\n' ∉ [d].intercalate (field :: fields)) :
    wholeField d n atStart ([d].intercalate (field :: fields)) =
      if field = n then [[d].intercalate fields] else [] := by
  cases fields with
  | nil =>
      rw [List.intercalate_singleton] at hbreak ⊢
      exact wholeField_last hd hbreak
  | cons next fields =>
      rw [List.intercalate_cons_cons, List.append_assoc] at hbreak ⊢
      exact wholeField_delimited hn hd hbreak

end WholeField

/-- A whole field with the text, where a field may start. -/
def nullField (d : Char) (n : Text) : Pattern := Pattern.both (fieldStart [d]) (wholeField d n)

section NullField

variable {t : Text}

theorem nullField_delimiter : nullField d n false (d :: t) = wholeField d n false t := by
  simp [nullField, Pattern.both, fieldStart, Pattern.either, Pattern.start, Pattern.literal,
    Text.after?]

theorem nullField_other {c : Char} (hc : d ≠ c) : nullField d n false (c :: t) = [] := by
  simp [nullField, Pattern.both, fieldStart, Pattern.either, Pattern.start, Pattern.literal,
    Text.after?, hc]

theorem nullField_start (t : Text) :
    nullField d n true t = wholeField d n false t ++ nullField d n false t := by
  simp only [nullField, Pattern.both, fieldStart, Pattern.either, Pattern.start, if_true,
    Bool.false_eq_true, if_false, List.nil_append, List.flatMap_append, List.flatMap_singleton]
  rfl

/-- No match starts inside a field. -/
theorem countFrom_field (hd : d ∉ field) (t : Text) :
    Pattern.countFrom (nullField d n) false 0 (field ++ t) =
      Pattern.countFrom (nullField d n) false 0 t := by
  induction field with
  | nil => rfl
  | cons c field ih =>
      rw [List.cons_append,
        Pattern.countFrom_none (nullField_other (List.ne_of_not_mem_cons hd)),
        ih (List.not_mem_of_not_mem_cons hd)]

theorem countFrom_last (hd : d ∉ field) :
    Pattern.countFrom (nullField d n) false 0 field = 0 := by
  have hend := countFrom_field (n := n) hd []
  rw [List.append_nil] at hend
  rw [hend]
  simp [Pattern.countFrom, Pattern.matchesAt, nullField, Pattern.both, fieldStart, Pattern.either,
    Pattern.start, Pattern.literal, Text.after?]

/-- A line is its first field, what comes between, and the line of the other fields. -/
theorem exists_intercalate_cons (d : Char) (field : Text) (fields : List Text) :
    ∃ between, [d].intercalate (field :: fields) =
      (field ++ between) ++ [d].intercalate fields := by
  cases fields with
  | nil => exact ⟨[], by simp⟩
  | cons next fields =>
      exact ⟨[d], List.intercalate_cons_cons⟩

/-- From inside the first field on, the fields after it are looked at. -/
theorem countFrom_fields (hn : d ∉ n) (hd : ∀ f ∈ fields, d ∉ f)
    (hbreak : '\n' ∉ [d].intercalate fields) :
    Pattern.countFrom (nullField d n) false 0 ([d].intercalate fields) =
      (lookedAt n fields.tail).count n := by
  induction fields using List.twoStepInduction with
  | nil => exact countFrom_last List.not_mem_nil
  | singleton field =>
      rw [List.intercalate_singleton]
      exact countFrom_last (hd field (.head _))
  | cons_cons field next fields ihrest ih =>
      obtain ⟨hfield, hnext⟩ := List.forall_mem_cons.mp hd
      rw [List.intercalate_cons_cons, List.append_assoc, List.mem_append, not_or] at hbreak
      have hbreak : '\n' ∉ [d].intercalate (next :: fields) := fun hmem => hbreak.2 (.tail d hmem)
      have hwhole := (nullField_delimiter (d := d)).trans
        (wholeField_line hn (hnext next (.head _)) hbreak)
      rw [List.intercalate_cons_cons, List.append_assoc, countFrom_field hfield,
        List.singleton_append, List.tail_cons, lookedAt_cons]
      by_cases hfound : next = n
      · obtain ⟨between, hline⟩ := exists_intercalate_cons d next fields
        rw [if_pos hfound] at hwhole
        rw [hline] at hwhole hbreak ⊢
        rw [Pattern.countFrom_match hwhole, ihrest (fun f hf => hnext f (.tail next hf))
          (fun hmem => hbreak (List.mem_append_right _ hmem))]
        simp [hfound]
      · rw [if_neg hfound] at hwhole
        rw [Pattern.countFrom_none hwhole, ih next hnext hbreak]
        simp [hfound]

/-- The matches in a line are the fields with the text among those that are looked at. -/
theorem count_nullField (hn : n ≠ []) (hdn : d ∉ n) (hfields : fields ≠ [])
    (hd : ∀ f ∈ fields, d ∉ f) (hbreak : '\n' ∉ [d].intercalate fields) :
    (nullField d n).count ([d].intercalate fields) = (lookedAt n fields).count n := by
  obtain ⟨field, fields, rfl⟩ := List.exists_cons_of_ne_nil hfields
  have hwhole : wholeField d n false ([d].intercalate (field :: fields)) =
      if field = n then [[d].intercalate fields] else [] :=
    wholeField_line hdn (hd field (.head _)) hbreak
  have hstart := nullField_start (d := d) (n := n) ([d].intercalate (field :: fields))
  rw [hwhole] at hstart
  rw [Pattern.count, lookedAt_cons]
  by_cases hfound : field = n
  · obtain ⟨c, t, rfl⟩ := List.exists_cons_of_ne_nil hn
    obtain ⟨between, hline⟩ := exists_intercalate_cons d field fields
    subst hfound
    rw [if_pos rfl, hline, List.cons_append, List.cons_append,
      nullField_other (List.ne_of_not_mem_cons hdn), List.append_nil] at hstart
    rw [hline] at hbreak
    rw [hline, List.cons_append, List.cons_append, Pattern.countFrom_match hstart,
      countFrom_fields hdn (fun f hf => hd f (.tail _ hf))
        (fun hmem => hbreak (List.mem_append_right _ hmem))]
    simp
  · rw [if_neg hfound, List.nil_append] at hstart
    rw [Pattern.countFrom_start hstart, countFrom_fields hdn hd hbreak]
    simp [hfound]

theorem not_mem_of_mem_splitOn {line : Text} (h : field ∈ line.splitOn d) : d ∉ field := by
  induction line generalizing field with
  | nil =>
      obtain rfl : field = [] := by simpa using h
      exact List.not_mem_nil
  | cons c line ih =>
      rw [List.splitOn_cons_eq_if_modifyHead] at h
      split at h
      · rcases List.mem_cons.mp h with rfl | h
        · exact List.not_mem_nil
        · exact ih h
      · next hc =>
        obtain ⟨first, later, hsplit⟩ := List.exists_cons_of_ne_nil (List.splitOn_ne_nil d line)
        rw [hsplit] at h ih
        rcases List.mem_cons.mp h with rfl | h
        · have hfirst := ih (.head later)
          rw [List.mem_cons, not_or]
          exact ⟨fun heq => hc (by simp [heq]), hfirst⟩
        · exact ih (.tail first h)

theorem count_line {line : Text} (hn : n ≠ []) (hdn : d ∉ n) (hbreak : '\n' ∉ line) :
    (nullField d n).count line = (lookedAt n (line.splitOn d)).count n := by
  have hjoined : [d].intercalate (line.splitOn d) = line := List.intercalate_splitOn d
  have hcount := count_nullField hn hdn (List.splitOn_ne_nil d line)
    (fun f hf => not_mem_of_mem_splitOn hf) (by rwa [hjoined])
  rwa [hjoined] at hcount

end NullField

/-! ### Null strings in lines of fields -/

section Lines

variable {c : Tunables} {lines : List Text}

/-- How many fields hold the text. -/
def fieldCount (d : Char) (lines : List Text) (n : Text) : Nat :=
  (lines.flatMap fun line => line.splitOn d).count n

/-- How many fields hold the text and are passed over. -/
def missedCount (d : Char) (lines : List Text) (n : Text) : Nat :=
  (lines.flatMap fun line => passedOver n (line.splitOn d)).count n

theorem nullStringCount_eq (hn : n ≠ []) (hdn : d ∉ n) (hlines : ∀ line ∈ lines, '\n' ∉ line) :
    nullStringCount lines [d] n =
      (lines.flatMap fun line => lookedAt n (line.splitOn d)).count n := by
  have hall : nullStringCount lines [d] n = Pattern.countAll (nullField d n) lines := rfl
  rw [hall]
  induction lines with
  | nil => rfl
  | cons line lines ih =>
      obtain ⟨hline, hlines⟩ := List.forall_mem_cons.mp hlines
      rw [Pattern.countAll, count_line hn hdn hline, ih hlines rfl, List.flatMap_cons,
        List.count_append]

theorem nullStringCount_add_missedCount (hn : n ≠ []) (hdn : d ∉ n)
    (hlines : ∀ line ∈ lines, '\n' ∉ line) :
    nullStringCount lines [d] n + missedCount d lines n = fieldCount d lines n := by
  rw [nullStringCount_eq hn hdn hlines, missedCount, fieldCount, List.count_flatMap,
    List.count_flatMap, List.count_flatMap, ← List.sum_map_add]
  congr 1
  apply List.map_congr_left
  intro line _
  exact count_lookedAt_add_count_passedOver n (line.splitOn d)

theorem missedCount_le (hn : n ≠ []) (hdn : d ∉ n) (hlines : ∀ line ∈ lines, '\n' ∉ line) :
    missedCount d lines n ≤ nullStringCount lines [d] n := by
  rw [nullStringCount_eq hn hdn hlines, missedCount, List.count_flatMap, List.count_flatMap]
  apply List.sum_le_sum
  intro line _
  exact count_passedOver_le n (line.splitOn d)

theorem missedCount_eq_zero_iff :
    missedCount d lines n = 0 ↔ ∀ line ∈ lines, ¬ [n, n] <:+: line.splitOn d := by
  simp only [missedCount, List.count_eq_zero, List.mem_flatMap, not_exists, not_and,
    mem_passedOver_iff]

/-- What is found of the text stays ahead of what is found of the others, though fields with it are
passed over. -/
def KeepsLead (d : Char) (lines candidates : List Text) (n : Text) : Prop :=
  ∀ m ∈ candidates,
    fieldCount d lines m + missedCount d lines n ≤ fieldCount d lines n + missedCount d lines m ∧
      (fieldCount d lines n + missedCount d lines m ≤ fieldCount d lines m + missedCount d lines n →
        candidates.idxOf n ≤ candidates.idxOf m)

theorem nullString_eq_mostFound (c : Tunables) (lines : List Text) (delimiter : Text) :
    nullString c lines delimiter = mostFound (nullStringCount lines delimiter) c.nullStrings := by
  rw [nullString, strongest_eq_mostFound, Option.map_map]
  exact Option.map_id'

/-- The fields with a text are those counted and those passed over. Some text is chosen unless none
of them fills a field, and it is the one that fills most fields just when that keeps its lead over
the others. It does where no text fills two neighbouring fields. -/
theorem nullString_of_fields (hlines : ∀ line ∈ lines, '\n' ∉ line)
    (hcandidates : ∀ n ∈ c.nullStrings, n ≠ [] ∧ d ∉ n) :
    (∀ n ∈ c.nullStrings,
        nullStringCount lines [d] n + missedCount d lines n = fieldCount d lines n) ∧
      (nullString c lines [d] = none ↔ ∀ n ∈ c.nullStrings, fieldCount d lines n = 0) ∧
      (nullString c lines [d] = mostFound (fieldCount d lines) c.nullStrings ↔
        ∀ n, mostFound (fieldCount d lines) c.nullStrings = some n →
          KeepsLead d lines c.nullStrings n) ∧
      ((∀ n ∈ c.nullStrings, ∀ line ∈ lines, ¬ [n, n] <:+: line.splitOn d) →
        nullString c lines [d] = mostFound (fieldCount d lines) c.nullStrings) := by
  have hcount : ∀ n ∈ c.nullStrings,
      nullStringCount lines [d] n + missedCount d lines n = fieldCount d lines n := by
    intro n hn
    exact nullStringCount_add_missedCount (hcandidates n hn).1 (hcandidates n hn).2 hlines
  have hzero : ∀ n ∈ c.nullStrings, nullStringCount lines [d] n = 0 ↔ fieldCount d lines n = 0 := by
    intro n hn
    have hle := missedCount_le (hcandidates n hn).1 (hcandidates n hn).2 hlines
    have heq := hcount n hn
    omega
  have hkeeps : nullString c lines [d] = mostFound (fieldCount d lines) c.nullStrings ↔
      ∀ n, mostFound (fieldCount d lines) c.nullStrings = some n →
        KeepsLead d lines c.nullStrings n := by
    rw [nullString_eq_mostFound, mostFound_eq_mostFound_iff hzero]
    refine forall₂_congr fun n hmost => forall₂_congr fun m hm => ?_
    have heq := hcount n (mostFound_eq_some_iff.mp hmost).2.1
    have heq' := hcount m hm
    apply and_congr
    · omega
    · refine imp_congr_left ?_
      omega
  refine ⟨hcount, ?_, hkeeps, ?_⟩
  · rw [nullString_eq_mostFound, mostFound_eq_none_iff]
    exact forall₂_congr hzero
  · intro hapart
    rw [hkeeps]
    intro n hmost m hm
    obtain ⟨-, hn, hle, hfirst⟩ := mostFound_eq_some_iff.mp hmost
    rw [missedCount_eq_zero_iff.mpr (hapart n hn), missedCount_eq_zero_iff.mpr (hapart m hm)]
    exact ⟨hle m hm, hfirst m hm⟩

theorem nullString_of_fields_neighbours :
    (∀ line ∈ ["1,NULL,NULL".toList, "NULL,2,null".toList], '\n' ∉ line) ∧
      (∀ n ∈ ({} : Tunables).nullStrings, n ≠ [] ∧ ',' ∉ n) ∧
      fieldCount ',' ["1,NULL,NULL".toList, "NULL,2,null".toList] "NULL".toList = 3 ∧
      missedCount ',' ["1,NULL,NULL".toList, "NULL,2,null".toList] "NULL".toList = 1 ∧
      nullStringCount ["1,NULL,NULL".toList, "NULL,2,null".toList] [','] "NULL".toList + 1 = 3 ∧
      nullString {} ["1,NULL,NULL".toList, "NULL,2,null".toList] [','] ≠ none := by
  have hlines : ∀ line ∈ ["1,NULL,NULL".toList, "NULL,2,null".toList], '\n' ∉ line := by decide
  have hcandidates : ∀ n ∈ ({} : Tunables).nullStrings, n ≠ [] ∧ ',' ∉ n := by decide
  obtain ⟨hcount, hnone, -⟩ := nullString_of_fields hlines hcandidates
  have hfields : fieldCount ',' ["1,NULL,NULL".toList, "NULL,2,null".toList] "NULL".toList = 3 := by
    decide
  have hmissed : missedCount ',' ["1,NULL,NULL".toList, "NULL,2,null".toList] "NULL".toList = 1 := by
    decide
  refine ⟨hlines, hcandidates, hfields, hmissed, ?_, ?_⟩
  · have hnull := hcount "NULL".toList (by decide)
    rwa [hfields, hmissed] at hnull
  · rw [Ne, hnone]
    intro hall
    exact absurd (hall "NULL".toList (by decide)) (by decide)

/-- One of two neighbouring fields is passed over, and the text with one field draws level. -/
theorem nullString_missed :
    ¬ ∀ (c : Tunables) (d : Char) (lines : List Text), (∀ line ∈ lines, '\n' ∉ line) →
      (∀ n ∈ c.nullStrings, n ≠ [] ∧ d ∉ n) →
        nullString c lines [d] = mostFound (fieldCount d lines) c.nullStrings := by
  intro h
  have hnull := h {} ',' ["null".toList, "NULL,NULL".toList] (by decide) (by decide)
  exact absurd hnull (by decide +kernel)

end Lines

end Delimited.Evidence
