/- What a guess can fail on. With candidates to weigh and a floor under the deviations every stage
goes through but for the score of a quote (`make_eq_error_iff`), and so only settings that cannot be
read and scores beyond all numbers leave no answer (`fault_of_ofLines`). -/
import Delimited.Proofs.Guess.Stages
import Delimited.Proofs.Record.Course
import Delimited.Proofs.Settings.Checking

namespace Delimited

namespace Tunables

/-- There is a candidate for the delimiter, and no deviation is taken for zero: one below the
epsilon has the floor in its place, and zero is below it. -/
structure Weighs (c : Tunables) : Prop where
  candidate : c.delimiters ≠ []
  floor : (c.deviationFloor == 0.0) = false
  epsilon : 0.0 < c.deviationEpsilon

theorem weighs_default : Weighs {} where
  candidate := by decide
  floor := by decide +kernel
  epsilon := by decide +kernel

end Tunables

namespace Statistics

section Zero

open Float.Model

/-- Nothing but a zero is equal to one. -/
theorem eq_zero_of_compare {u : UnpackedFloat} {s : UnpackedFloat.Sign}
    (h : u.compare (.zero s) = some .eq) : ∃ s', u = .zero s' := by
  cases u with
  | zero s' => exact ⟨s', rfl⟩
  | notANumber => nomatch h
  | infinity s' => cases s' <;> nomatch h
  | finite s' m e hm => cases s' <;> nomatch h

/-- Both zeros stand in the same place among all numbers. -/
theorem compare_zero (s s' : UnpackedFloat.Sign) (u : UnpackedFloat) :
    UnpackedFloat.compare (.zero s) u = UnpackedFloat.compare (.zero s') u := by
  cases u with
  | zero => rfl
  | notANumber => rfl
  | infinity sign => cases sign <;> rfl
  | finite sign m e hm => cases sign <;> rfl

theorem lt_of_beq_zero {x y : Float} (hx : (x == 0.0) = true) (hy : 0.0 < y) : x < y := by
  have hzero : (0.0 : Float).toModel.unpack = .zero .positive := rfl
  have hequal : x.toModel.unpack.compare (0.0 : Float).toModel.unpack = some .eq :=
    beq_iff_eq.mp hx
  have habove : (0.0 : Float).toModel.unpack.compare y.toModel.unpack = some .lt :=
    beq_iff_eq.mp (of_decide_eq_true hy)
  rw [hzero] at hequal habove
  obtain ⟨s, hs⟩ := eq_zero_of_compare hequal
  have hbelow : x.toModel.unpack.compare y.toModel.unpack = some .lt := by
    rw [hs, compare_zero s .positive, habove]
  exact decide_eq_true (beq_iff_eq.mpr hbelow)

end Zero

/-- Whatever deviations the library finds, with a floor none is taken for zero. -/
theorem deviation_ne_zero {α : Type} (s : Statistics α) {floor epsilon : Float}
    (hfloor : (floor == 0.0) = false) (hepsilon : 0.0 < epsilon) (xs : List α) :
    (s.deviation floor epsilon xs == 0.0) = false := by
  unfold deviation
  split
  · exact hfloor
  split
  · exact hfloor
  · next hlarge => exact Bool.not_eq_true _ ▸ fun hx => hlarge (lt_of_beq_zero hx hepsilon)

end Statistics

namespace Tunables.Weighs

variable {c : Tunables} (hw : c.Weighs)
include hw

theorem exists_weight (texts : List Text) (candidate : Text) :
    ∃ w, Evidence.delimiterWeight c texts candidate = .ok w := by
  unfold Evidence.delimiterWeight
  simp only [c.statistics.deviation_ne_zero hw.floor hw.epsilon, Bool.false_eq_true, if_false]
  split
  · exact ⟨_, rfl⟩
  · exact ⟨_, rfl⟩

theorem exists_delimiter (texts : List Text) : ∃ d, Evidence.delimiter c texts = .ok d := by
  obtain ⟨weighed, hweighed⟩ := exists_mapM (l := c.delimiters)
    (f := fun candidate => return (candidate, ← Evidence.delimiterWeight c texts candidate))
    fun candidate _ => by
      obtain ⟨w, hweight⟩ := hw.exists_weight texts candidate
      exact ⟨(candidate, w), bind_eq_ok.mpr ⟨w, hweight, rfl⟩⟩
  obtain ⟨first, rest, hcandidates⟩ := List.exists_cons_of_ne_nil hw.candidate
  unfold Evidence.delimiter
  rw [hweighed]
  simp only [hcandidates]
  refine Exists.imp (fun d hd => bind_eq_ok.mpr ⟨weighed, rfl, hd⟩) ?_
  split
  · exact ⟨_, rfl⟩
  · exact ⟨_, rfl⟩
  · contradiction

end Tunables.Weighs

namespace Evidence

variable {c : Tunables} {texts : List Text} {d q : Text} {fault : QuoteFault}

/-- The scores of a candidate for the quote are so large that they have no mean. -/
def ScoresTooLarge (c : Tunables) (texts : List Text) (d : Text) : Prop :=
  ∃ q ∈ c.quotes, (c.statistics.mean (texts.filterMap (quoteLineScore c d q))).isInf = true

theorem quoteScore_eq_error_iff : quoteScore c texts d q = .error fault ↔
    (c.statistics.mean (texts.filterMap (quoteLineScore c d q))).isInf = true := by
  cases fault
  simp only [quoteScore]
  split
  · next hinfinite => exact iff_of_true rfl hinfinite
  · next hfinite => exact iff_of_false nofun hfinite

/-- The scores of all candidates are computed, so that the choice fails on any of them. -/
theorem quote_eq_error_iff : quote c texts d = .error fault ↔ ScoresTooLarge c texts d := by
  constructor
  · intro h
    rcases bind_eq_error.mp h with hscored | ⟨scored, -, h⟩
    · obtain ⟨q, hq, hfailed⟩ := exists_of_mapM_eq_error hscored
      rcases bind_eq_error.mp hfailed with hfailed | ⟨score, -, hfailed⟩
      · exact ⟨q, hq, quoteScore_eq_error_iff.mp hfailed⟩
      · contradiction
    · split at h
      · contradiction
      · contradiction
  · rintro ⟨q, hq, hinfinite⟩
    refine bind_eq_error.mpr (.inl ?_)
    have hfailed : quoteScore c texts d q = .error fault :=
      quoteScore_eq_error_iff.mpr hinfinite
    -- If all scores were there, so would be this one.
    cases hscored : c.quotes.mapM fun candidate =>
        return (candidate, ← quoteScore c texts d candidate) with
    | error fault' => cases fault; cases fault'; rfl
    | ok scored =>
        obtain ⟨found, hfound⟩ := exists_of_mapM_eq_ok hscored q hq
        obtain ⟨score, hscore, -⟩ := bind_eq_ok.mp hfound
        rw [hfailed] at hscore
        contradiction

end Evidence

namespace Guess

variable {c : Tunables} {o : Overrides} {d : Dialect}

theorem divide_eq (hd : d.delimiter ≠ []) (skipEmpty : Bool) (lines : List Line) :
    divide c d skipEmpty lines = .ok (division d skipEmpty c.maxQuotedSize lines) :=
  divide_eq_ok.mpr (split_eq_division hd skipEmpty c.maxQuotedSize lines)

theorem exists_chooseDelimiter (hc : c.Admissible) (hw : c.Weighs)
    (ho : o.delimiter ≠ .given []) (texts : List Text) :
    ∃ delimiter, chooseDelimiter c o texts = .ok delimiter ∧ delimiter ≠ [] := by
  unfold chooseDelimiter
  cases hgiven : o.delimiter with
  | given delimiter => exact ⟨delimiter, rfl, fun hnil => ho (hnil ▸ hgiven)⟩
  | unset =>
      obtain ⟨delimiter, hfound⟩ := hw.exists_delimiter texts
      exact ⟨delimiter, by rw [hfound]; rfl, hc.delimiter_ne_nil hfound⟩

/-- A quote that is set is taken, and none is looked for. -/
theorem chooseQuote_eq_error_iff {texts : List Text} {delimiter : Text} {fault : GuessFault} :
    chooseQuote c o texts delimiter = .error fault ↔
      fault = .quote .scoreTooLarge ∧ o.quote = .unset ∧
        Evidence.ScoresTooLarge c texts delimiter := by
  unfold chooseQuote
  rw [bind_eq_error]
  cases ho : o.quote with
  | given quote =>
      refine iff_of_false ?_ nofun
      rintro (h | ⟨quote, -, h⟩)
      · contradiction
      · split at h <;> contradiction
  | unset =>
      constructor
      · rintro (h | ⟨quote, -, h⟩)
        · obtain ⟨⟨⟩, hquote, rfl⟩ := mapError_eq_error.mp h
          exact ⟨rfl, rfl, Evidence.quote_eq_error_iff.mp hquote⟩
        · split at h <;> contradiction
      · rintro ⟨rfl, -, hlarge⟩
        exact .inl (mapError_eq_error.mpr ⟨_, Evidence.quote_eq_error_iff.mpr hlarge, rfl⟩)

theorem exists_planSkip (hd : d.delimiter ≠ []) (lines : List Line) :
    ∃ plan, planSkip c o d lines = .ok plan := by
  rw [planSkip_eq, divide_eq hd]
  exact ⟨_, rfl⟩

theorem exists_chooseTrim (hd : d.delimiter ≠ []) (plan : SkipPlan) (types : List ColumnType)
    (bodyStart : Nat) : ∃ settled, chooseTrim c o plan d types bodyStart = .ok settled := by
  unfold chooseTrim
  cases o.trim with
  | given trim => exact ⟨_, rfl⟩
  | unset =>
      exact ⟨_, tuneTrim_eq_ok (split_eq_division (d := { d with trim := true }) hd true
        c.maxQuotedSize plan.lines) types bodyStart⟩

theorem exists_readTable (hd : d.delimiter ≠ []) (plan : SkipPlan)
    (rows : List (List (Option Text))) : ∃ read, readTable c o plan d rows = .ok read := by
  unfold readTable
  match rows with
  | [] => exact ⟨_, rfl⟩
  | [row] =>
      obtain ⟨⟨d', types⟩, hsettled⟩ := exists_chooseTrim (c := c) (o := o) hd plan
        (ColumnType.ofRows [row]) 0
      exact ⟨_, bind_eq_ok.mpr ⟨_, hsettled, rfl⟩⟩
  | first :: second :: body =>
      obtain ⟨⟨d', types⟩, hsettled⟩ := exists_chooseTrim (c := c) (o := o) hd plan
        (ColumnType.ofRows (second :: body)) 1
      exact ⟨_, bind_eq_ok.mpr ⟨_, hsettled, rfl⟩⟩

/-- With a dialect every stage goes through. -/
theorem exists_make {lines : List Line} {escapeResolved : Bool}
    (hchosen : chooseDialect c o (lines.map Line.text) = .ok (d, escapeResolved))
    (hd : d.delimiter ≠ []) : ∃ found, make c o lines = .ok found := by
  obtain ⟨plan, hplanned⟩ := exists_planSkip (c := c) (o := o) hd lines
  cases hrows : (division d true c.maxQuotedSize plan.lines).rows with
  | nil =>
      refine ⟨none, bind_eq_ok.mpr ⟨_, hchosen, bind_eq_ok.mpr ⟨_, hplanned,
        bind_eq_ok.mpr ⟨_, divide_eq hd true plan.lines, ?_⟩⟩⟩⟩
      rw [hrows]
      rfl
  | cons first body =>
      obtain ⟨⟨d', header, types⟩, hread⟩ :=
        exists_readTable (c := c) (o := o) hd plan (first :: body)
      exact ⟨_, make_eq hchosen hplanned (split_eq_division hd true c.maxQuotedSize plan.lines)
        hrows hread⟩

theorem delimiter_ne_given_nil {settings : Value} (hread : Overrides.read settings = .ok o) :
    o.delimiter ≠ .given [] := by
  intro hempty
  have hsection := (Overrides.read_eq_ok_iff.mp hread).2
  exact Overrides.ne_nil_of_delimiterOf (hempty ▸ hsection.delimiter) rfl

/-- With overrides that were read every stage goes through, but for the choice of a quote. -/
theorem make_eq_error_iff (hc : c.Admissible) (hw : c.Weighs) (ho : o.delimiter ≠ .given [])
    {lines : List Line} {fault : GuessFault} :
    make c o lines = .error fault ↔
      fault = .quote .scoreTooLarge ∧ o.quote = .unset ∧
        ∃ delimiter, chooseDelimiter c o (lines.map Line.text) = .ok delimiter ∧
          Evidence.ScoresTooLarge c (lines.map Line.text) delimiter := by
  obtain ⟨delimiter, hdelimiter, hne⟩ := exists_chooseDelimiter hc hw ho (lines.map Line.text)
  cases hquote : chooseQuote c o (lines.map Line.text) delimiter with
  | error why =>
      obtain ⟨rfl, hunset, hlarge⟩ := chooseQuote_eq_error_iff.mp hquote
      have hmake : make c o lines = .error (.quote .scoreTooLarge) :=
        bind_eq_error.mpr (.inl (bind_eq_error.mpr (.inr ⟨delimiter, hdelimiter,
          bind_eq_error.mpr (.inl hquote)⟩)))
      rw [hmake]
      constructor
      · intro h
        exact ⟨(Except.error.inj h).symm, hunset, delimiter, hdelimiter, hlarge⟩
      · rintro ⟨rfl, -⟩
        rfl
  | ok quote =>
      refine iff_of_false ?_ ?_
      · intro h
        obtain ⟨d, escapeResolved, hchosen, hd⟩ : ∃ d escapeResolved,
            chooseDialect c o (lines.map Line.text) = .ok (d, escapeResolved) ∧
              d.delimiter ≠ [] :=
          ⟨_, _, bind_eq_ok.mpr ⟨delimiter, hdelimiter, bind_eq_ok.mpr ⟨quote, hquote, rfl⟩⟩, hne⟩
        obtain ⟨found, hmade⟩ := exists_make hchosen hd
        rw [hmade] at h
        contradiction
      · rintro ⟨-, hunset, delimiter', hdelimiter', hlarge⟩
        obtain rfl := Except.ok.inj (hdelimiter.symm.trans hdelimiter')
        have hfailed := chooseQuote_eq_error_iff.mpr ⟨rfl, hunset, hlarge⟩
        rw [hquote] at hfailed
        contradiction

/-- The candidates for the quote have scores without a mean, and no quote is set. -/
def ScoresTooLarge (c : Tunables) (settings : Value) (lines : List Line) : Prop :=
  ∃ o delimiter, Overrides.read settings = .ok o ∧ o.type = "csv".toList ∧ o.quote = .unset ∧
    chooseDelimiter c o (lines.map Line.text) = .ok delimiter ∧
    Evidence.ScoresTooLarge c (lines.map Line.text) delimiter

/-- A guess fails on nothing but its settings and scores without a mean. -/
theorem fault_of_ofLines {settings : Value} {lines : List Line} {fault : GuessFault}
    (hc : c.Admissible) (hw : c.Weighs) (h : ofLines c settings lines = .error fault) :
    (∃ why, fault = .settings why ∧ Overrides.read settings = .error why) ∨
      fault = .quote .scoreTooLarge ∧ ScoresTooLarge c settings lines := by
  rcases bind_eq_error.mp h with htype | ⟨type, htype, h⟩
  · obtain ⟨why, hreader, rfl⟩ := mapError_eq_error.mp htype
    exact .inl ⟨why, rfl, Overrides.read_of_readerType_error hreader⟩
  by_cases hcsv : (type != "csv".toList) = true
  · rw [if_pos hcsv] at h
    contradiction
  rw [if_neg hcsv] at h
  rcases bind_eq_error.mp h with hread | ⟨o, hread, h⟩
  · obtain ⟨why, hwhy, rfl⟩ := mapError_eq_error.mp hread
    exact .inl ⟨why, rfl, hwhy⟩
  have hread := mapError_eq_ok.mp hread
  have hsame : o.type = type := Except.ok.inj
    ((Overrides.readerType_of_read hread).symm.trans (mapError_eq_ok.mp htype))
  obtain ⟨rfl, hunset, delimiter, hdelimiter, hlarge⟩ :=
    (make_eq_error_iff hc hw (delimiter_ne_given_nil hread)).mp h
  exact .inr ⟨rfl, o, delimiter, hread, hsame.trans (by simpa using hcsv), hunset, hdelimiter,
    hlarge⟩

theorem ofLines_of_scoresTooLarge {settings : Value} {lines : List Line}
    (hc : c.Admissible) (hw : c.Weighs) (h : ScoresTooLarge c settings lines) :
    ofLines c settings lines = .error (.quote .scoreTooLarge) := by
  obtain ⟨o, delimiter, hread, hcsv, hunset, hdelimiter, hlarge⟩ := h
  rw [ofLines_of_read hread hcsv]
  exact (make_eq_error_iff hc hw (delimiter_ne_given_nil hread)).mpr
    ⟨rfl, hunset, delimiter, hdelimiter, hlarge⟩

end Guess

end Delimited
