/- The stages of a guess that was made: what each stage gave, and how the guess is put together from
them. What holds of every guess is read off its stages. -/
import Delimited.Guess
import Delimited.Proofs.Evidence.Candidates
import Delimited.Proofs.Record.Division
import Delimited.Proofs.Settings.Section

namespace Delimited

namespace Guess

/-- What the stages of a guess gave. -/
structure Stages (c : Tunables) (o : Overrides) (lines : List Line) (g : Guess) where
  /-- The dialect before its trimming was settled. -/
  dialect : Dialect
  division : Division
  first : List (Option Text)
  body : List (List (Option Text))
  types : List ColumnType
  chosen : chooseDialect c o (lines.map Line.text) = .ok (dialect, g.escapeResolved)
  planned : planSkip c o dialect lines = .ok g.skipPlan
  divided : split dialect true c.maxQuotedSize g.skipPlan.lines = some division
  rows : division.rows = first :: body
  settled : readTable c o g.skipPlan dialect (first :: body) = .ok (g.dialect, g.header, types)
  typed : types ≠ []
  named : g.columns = namedColumns (columnNames g.header first types.length) types
  extra : g.allowExtraColumns = o.allowExtraColumns.getD false
  optional : g.allowOptionalColumns = o.allowOptionalColumns.getD false
  warned : g.warnings = division.warnings
  based : g.base = o.base

variable {c : Tunables} {o : Overrides} {lines : List Line} {g : Guess}

theorem divide_eq_ok {d : Dialect} {skipEmpty : Bool} {s : Division} :
    divide c d skipEmpty lines = .ok s ↔ split d skipEmpty c.maxQuotedSize lines = some s := by
  unfold divide
  cases split d skipEmpty c.maxQuotedSize lines <;> simp

theorem stages_of_make (h : make c o lines = .ok (some g)) : Nonempty (Stages c o lines g) := by
  unfold make at h
  obtain ⟨⟨d, escapeResolved⟩, hchosen, h⟩ := bind_eq_ok.mp h
  obtain ⟨plan, hplanned, h⟩ := bind_eq_ok.mp h
  obtain ⟨division, hdivided, h⟩ := bind_eq_ok.mp h
  cases hrows : division.rows with
  | nil => simp [hrows, pure, Except.pure] at h
  | cons first body =>
      simp only [hrows] at h
      obtain ⟨⟨d', header, types⟩, hsettled, h⟩ := bind_eq_ok.mp h
      cases htypes : types.isEmpty with
      | true => simp [htypes, pure, Except.pure] at h
      | false =>
          simp only [htypes, Bool.false_eq_true, if_false, pure, Except.pure, Except.ok.injEq,
            Option.some.injEq] at h
          subst h
          exact ⟨{
            dialect := d
            division, first, body, types
            chosen := hchosen
            planned := hplanned
            divided := divide_eq_ok.mp hdivided
            rows := hrows
            settled := hsettled
            typed := List.isEmpty_eq_false_iff.mp htypes
            named := rfl
            extra := rfl
            optional := rfl
            warned := rfl
            based := rfl }⟩

/-- Where the stages go through up to the table, only the lack of columns leaves no guess. -/
theorem make_eq {d d' : Dialect} {escapeResolved header : Bool} {plan : SkipPlan}
    {division : Division} {first : List (Option Text)} {body : List (List (Option Text))}
    {types : List ColumnType}
    (hchosen : chooseDialect c o (lines.map Line.text) = .ok (d, escapeResolved))
    (hplanned : planSkip c o d lines = .ok plan)
    (hdivided : split d true c.maxQuotedSize plan.lines = some division)
    (hrows : division.rows = first :: body)
    (hsettled : readTable c o plan d (first :: body) = .ok (d', header, types)) :
    make c o lines = .ok (if types.isEmpty then none else some {
      dialect := d'
      escapeResolved
      skipPlan := plan
      header
      columns := namedColumns (columnNames header first types.length) types
      allowExtraColumns := o.allowExtraColumns.getD false
      allowOptionalColumns := o.allowOptionalColumns.getD false
      warnings := division.warnings
      base := o.base }) := by
  refine bind_eq_ok.mpr ⟨_, hchosen, bind_eq_ok.mpr ⟨_, hplanned,
    bind_eq_ok.mpr ⟨_, divide_eq_ok.mpr hdivided, ?_⟩⟩⟩
  rw [hrows]
  refine bind_eq_ok.mpr ⟨_, hsettled, ?_⟩
  cases types <;> rfl

theorem make_of_stages (st : Stages c o lines g) : make c o lines = .ok (some g) := by
  rw [make_eq st.chosen st.planned st.divided st.rows st.settled,
    if_neg (mt List.isEmpty_iff.mp st.typed)]
  simp only [← st.named, ← st.extra, ← st.optional, ← st.warned, ← st.based]

/-- Once the overrides of settings for this kind of reader are read, the guess is made with them. -/
theorem ofLines_of_read {settings : Value} (hread : Overrides.read settings = .ok o)
    (hcsv : o.type = "csv".toList) (lines : List Line) :
    ofLines c settings lines = make c o lines := by
  have htype : (Overrides.readerType settings).mapError GuessFault.settings = .ok o.type :=
    mapError_eq_ok.mpr (Overrides.readerType_of_read hread)
  have ho : (Overrides.read settings).mapError GuessFault.settings = .ok o :=
    mapError_eq_ok.mpr hread
  simp [ofLines, htype, ho, hcsv, bind, Except.bind]

theorem ofSample_of_read {settings : Value} (hread : Overrides.read settings = .ok o)
    (hcsv : o.type = "csv".toList) (sample : List SampleItem) :
    ofSample c settings sample = make c o (SampleItem.lines sample) :=
  ofLines_of_read hread hcsv (SampleItem.lines sample)

/-- A guess is made from settings and lines just when the settings are for this kind of reader and
the stages go through with their overrides. -/
theorem ofLines_eq_ok_iff {settings : Value} :
    ofLines c settings lines = .ok (some g) ↔
      ∃ o, Overrides.read settings = .ok o ∧ o.type = "csv".toList ∧
        Nonempty (Stages c o lines g) := by
  constructor
  · intro h
    obtain ⟨type, htype, h⟩ := bind_eq_ok.mp h
    by_cases hcsv : (type != "csv".toList) = true
    · rw [if_pos hcsv] at h
      simp [pure, Except.pure] at h
    · rw [if_neg hcsv] at h
      obtain ⟨o, ho, h⟩ := bind_eq_ok.mp h
      have hread := mapError_eq_ok.mp ho
      have hsame : o.type = type := Except.ok.inj
        ((Overrides.readerType_of_read hread).symm.trans (mapError_eq_ok.mp htype))
      exact ⟨o, hread, hsame.trans (by simpa using hcsv), stages_of_make h⟩
  · rintro ⟨o, hread, hcsv, ⟨st⟩⟩
    rw [ofLines_of_read hread hcsv]
    exact make_of_stages st

theorem ofSample_eq_ok_iff {settings : Value} {sample : List SampleItem} :
    ofSample c settings sample = .ok (some g) ↔
      ∃ o, Overrides.read settings = .ok o ∧ o.type = "csv".toList ∧
        Nonempty (Stages c o (SampleItem.lines sample) g) :=
  ofLines_eq_ok_iff

theorem stages_of_ofSample {settings : Value} {sample : List SampleItem}
    (h : ofSample c settings sample = .ok (some g)) :
    ∃ o, Overrides.read settings = .ok o ∧ Nonempty (Stages c o (SampleItem.lines sample) g) := by
  obtain ⟨o, hread, -, hstages⟩ := ofSample_eq_ok_iff.mp h
  exact ⟨o, hread, hstages⟩

theorem chooseDialect_eq_ok_iff {texts : List Text} {d : Dialect} {escapeResolved : Bool} :
    chooseDialect c o texts = .ok (d, escapeResolved) ↔
      chooseDelimiter c o texts = .ok d.delimiter ∧
      chooseQuote c o texts d.delimiter = .ok d.quote ∧
      chooseEscape c o texts d.delimiter d.quote = (d.escape, escapeResolved) ∧
      o.nullString.getD (Evidence.nullString c texts d.delimiter) = d.nullString ∧
      o.trim.getD false = d.trim := by
  unfold chooseDialect
  simp only [bind_eq_ok]
  constructor
  · rintro ⟨delimiter, hdelimiter, quote, hquote, h⟩
    cases h
    exact ⟨hdelimiter, hquote, rfl, rfl, rfl⟩
  · rintro ⟨hdelimiter, hquote, hescape, hnull, htrim⟩
    refine ⟨d.delimiter, hdelimiter, d.quote, hquote, ?_⟩
    simp only [hescape, hnull, htrim]
    rfl

theorem trim_of_chooseDialect {texts : List Text} {d : Dialect} {escapeResolved : Bool}
    (h : chooseDialect c o texts = .ok (d, escapeResolved)) : d.trim = o.trim.getD false :=
  (chooseDialect_eq_ok_iff.mp h).2.2.2.2.symm

/-- Where trimming is tried the types are those of the trimmed rows: it is left off only where the
rows as they stand have the same. -/
theorem tuneTrim_eq_ok {plan : SkipPlan} {d : Dialect} {trimmed : Division}
    (htrimmed : split { d with trim := true } true c.maxQuotedSize plan.lines = some trimmed)
    (types : List ColumnType) (start : Nat) :
    tuneTrim c plan d types start =
      .ok ({ d with trim := ColumnType.ofRows (trimmed.rows.drop start) != types },
        ColumnType.ofRows (trimmed.rows.drop start)) := by
  refine bind_eq_ok.mpr ⟨trimmed, divide_eq_ok.mpr htrimmed, ?_⟩
  cases hdiffer : ColumnType.ofRows (trimmed.rows.drop start) != types with
  | true => exact if_pos hdiffer
  | false =>
      refine (if_neg (Bool.not_eq_true _ ▸ hdiffer)).trans ?_
      rw [bne_eq_false_iff_eq.mp hdiffer]
      rfl

/-- However the trimming is settled, the types are those of the rows that the settled dialect
gives. -/
theorem types_of_chooseTrim {plan : SkipPlan} {d d' : Dialect} {s : Division}
    {types : List ColumnType} {bodyStart : Nat} (htrim : d.trim = o.trim.getD false)
    (hs : split d true c.maxQuotedSize plan.lines = some s)
    (h : chooseTrim c o plan d (ColumnType.ofRows (s.rows.drop bodyStart)) bodyStart =
      .ok (d', types)) :
    d = { d' with trim := o.trim.getD false } ∧ (o.trim ≠ .unset → d' = d) ∧
      ∃ own, split d' true c.maxQuotedSize plan.lines = some own ∧
        types = ColumnType.ofRows (own.rows.drop bodyStart) := by
  unfold chooseTrim at h
  cases ho : o.trim with
  | given trim =>
      rw [ho] at h htrim
      cases h
      refine ⟨?_, fun _ => rfl, s, hs, rfl⟩
      rw [← htrim]
  | unset =>
      rw [ho] at h htrim
      obtain ⟨trimmed, htrimmed, -⟩ := bind_eq_ok.mp h
      rw [tuneTrim_eq_ok (divide_eq_ok.mp htrimmed)] at h
      cases h
      refine ⟨?_, fun hgiven => absurd rfl hgiven, ?_⟩
      · rw [← htrim]
      · cases hdiffer : ColumnType.ofRows (trimmed.rows.drop bodyStart) !=
            ColumnType.ofRows (s.rows.drop bodyStart) with
        | true => exact ⟨trimmed, divide_eq_ok.mp htrimmed, rfl⟩
        | false =>
            refine ⟨s, ?_, bne_eq_false_iff_eq.mp hdiffer⟩
            rw [show false = d.trim from htrim.symm]
            exact hs

/-- The columns of a guess come from the rows of its own dialect; the header, and a header's names,
come from the rows as they were before trimming was settled. -/
theorem Stages.read (st : Stages c o lines g) :
    st.dialect = { g.dialect with trim := o.trim.getD false } ∧
      (o.trim ≠ .unset → g.dialect = st.dialect) ∧
      ∃ own, split g.dialect true c.maxQuotedSize g.skipPlan.lines = some own ∧
        ((st.body = [] ∧ g.header = false ∧ st.types = ColumnType.ofRows own.rows) ∨
          (st.body ≠ [] ∧
            g.header =
              Layout.isHeader c (st.first :: st.body) (ColumnType.ofRows [st.first]) st.types ∧
            st.types = ColumnType.ofRows (own.rows.drop 1))) := by
  have htrim := trim_of_chooseDialect st.chosen
  have hsettled := st.settled
  have hrows := st.rows
  cases hbody : st.body with
  | nil =>
      rw [hbody] at hsettled hrows
      obtain ⟨⟨d, types⟩, hchoose, h⟩ := bind_eq_ok.mp hsettled
      simp only [pure, Except.pure, Except.ok.injEq, Prod.mk.injEq] at h
      obtain ⟨rfl, hheader, rfl⟩ := h
      have hdrop : st.division.rows.drop 0 = [st.first] := by rw [hrows, List.drop_zero]
      obtain ⟨hd, hgiven, own, hown, htypes⟩ :=
        types_of_chooseTrim htrim st.divided (hdrop ▸ hchoose)
      exact ⟨hd, hgiven, own, hown, .inl ⟨rfl, hheader.symm, htypes⟩⟩
  | cons second body =>
      rw [hbody] at hsettled hrows
      obtain ⟨⟨d, types⟩, hchoose, h⟩ := bind_eq_ok.mp hsettled
      simp only [pure, Except.pure, Except.ok.injEq, Prod.mk.injEq] at h
      obtain ⟨rfl, hheader, rfl⟩ := h
      have hdrop : st.division.rows.drop 1 = second :: body := by
        rw [hrows, List.drop_one, List.tail_cons]
      obtain ⟨hd, hgiven, own, hown, htypes⟩ :=
        types_of_chooseTrim htrim st.divided (hdrop ▸ hchoose)
      exact ⟨hd, hgiven, own, hown, .inr ⟨by simp, hheader.symm, htypes⟩⟩

/-- Whichever way the rows of its own dialect are come by, a guess has its types from them. -/
theorem Stages.read_own (st : Stages c o lines g) {own : Division}
    (hown : split g.dialect true c.maxQuotedSize g.skipPlan.lines = some own) :
    (st.body = [] ∧ g.header = false ∧ st.types = ColumnType.ofRows own.rows) ∨
      (st.body ≠ [] ∧
        g.header =
          Layout.isHeader c (st.first :: st.body) (ColumnType.ofRows [st.first]) st.types ∧
        st.types = ColumnType.ofRows (own.rows.drop 1)) := by
  obtain ⟨-, -, own', hown', hread⟩ := st.read
  obtain rfl : own = own' := Option.some.inj (hown.symm.trans hown')
  exact hread

theorem Stages.delimiter_ne_nil (st : Stages c o lines g) : g.dialect.delimiter ≠ [] := by
  have hrecords : st.division.records ≠ [] := by
    intro hnil
    have hrows := st.rows
    rw [Division.rows, hnil] at hrows
    contradiction
  have hd := delimiter_ne_nil_of_records st.divided hrecords
  rw [st.read.1] at hd
  exact hd

/-- Trimming that was set, or is left off, was not settled anew. -/
theorem Stages.dialect_settled (st : Stages c o lines g)
    (h : o.trim ≠ .unset ∨ g.dialect.trim = false) : g.dialect = st.dialect := by
  obtain ⟨hdialect, hgiven, -⟩ := st.read
  by_cases hset : o.trim = .unset
  · have hoff : g.dialect.trim = false := h.resolve_left fun hne => hne hset
    rw [hdialect, hset, Override.getD, ← hoff]
  · exact hgiven hset

/-- The marker of comments, and those of the lines after the ragged ones that are no comments. -/
def chooseMarker (c : Tunables) (o : Overrides) (d : Dialect) (lines : List Line) :
    Option Text × List Line :=
  match o.commentMarker with
  | .given none => (none, lines)
  | .given (some marker) => (some marker, Evidence.dropComments marker lines)
  | .unset => Evidence.commentMarker c d.delimiter d.quote d.nullString lines

theorem planSkip_eq (c : Tunables) (o : Overrides) (d : Dialect) (lines : List Line) :
    planSkip c o d lines = divide c d false lines >>= fun all =>
      let skipped := Layout.raggedPrefix c (all.records.map List.length)
      let marked := chooseMarker c o d (lines.drop skipped)
      .ok ⟨skipped, marked.1, marked.2⟩ := by
  unfold planSkip chooseMarker
  apply congrArg
  funext all
  cases o.commentMarker with
  | given marker => cases marker <;> rfl
  | unset => rfl

theorem planSkip_eq_ok_iff {d : Dialect} {plan : SkipPlan} :
    planSkip c o d lines = .ok plan ↔ ∃ all, split d false c.maxQuotedSize lines = some all ∧
      plan.skipped = Layout.raggedPrefix c (all.records.map List.length) ∧
      (plan.commentMarker, plan.lines) = chooseMarker c o d (lines.drop plan.skipped) := by
  simp only [planSkip_eq, bind_eq_ok, divide_eq_ok]
  apply exists_congr
  intro all
  apply and_congr_right
  intro _
  constructor
  · intro h
    cases h
    exact ⟨rfl, rfl⟩
  · rintro ⟨hskipped, hmarked⟩
    rw [← hskipped, ← hmarked]

theorem marker_chooseMarker (c : Tunables) (o : Overrides) (d : Dialect) (lines : List Line) :
    (chooseMarker c o d lines).1 = o.commentMarker.getD
      (Evidence.commentMarker c d.delimiter d.quote d.nullString lines).1 := by
  unfold chooseMarker
  split <;> simp [*, Override.getD]

theorem lines_chooseMarker (c : Tunables) (o : Overrides) (d : Dialect) (lines : List Line) :
    ∃ p : Line → Bool, (chooseMarker c o d lines).2 = lines.filter p := by
  have hall : ∃ p : Line → Bool, lines = lines.filter p :=
    ⟨fun _ => true, (List.filter_eq_self.mpr fun _ _ => rfl).symm⟩
  unfold chooseMarker
  split
  · exact hall
  · exact ⟨_, rfl⟩
  · obtain hnone | ⟨m, -, hsome⟩ :=
      Evidence.commentMarker_cases c d.delimiter d.quote d.nullString lines
    · rw [hnone]
      exact hall
    · rw [hsome]
      exact ⟨_, rfl⟩

/-- The lines of a plan are some of those after the skipped ones, in order. -/
theorem lines_of_planSkip {d : Dialect} {plan : SkipPlan} (h : planSkip c o d lines = .ok plan) :
    ∃ p : Line → Bool, plan.lines = (lines.drop plan.skipped).filter p := by
  obtain ⟨all, -, -, hmarker⟩ := planSkip_eq_ok_iff.mp h
  obtain ⟨p, hp⟩ := lines_chooseMarker c o d (lines.drop plan.skipped)
  exact ⟨p, (Prod.mk.inj hmarker).2.trans hp⟩

theorem marker_of_planSkip {d : Dialect} {plan : SkipPlan} (h : planSkip c o d lines = .ok plan) :
    plan.commentMarker = o.commentMarker.getD (Evidence.commentMarker c d.delimiter d.quote
      d.nullString (lines.drop plan.skipped)).1 := by
  obtain ⟨all, -, -, hmarker⟩ := planSkip_eq_ok_iff.mp h
  exact (congrArg Prod.fst hmarker).trans (marker_chooseMarker c o d _)

/-- A sample of texts, each numbered by its place. -/
def plainSample (texts : List Text) : List SampleItem := texts.map fun t => .value (.text t)

/-- A guess that is found to be made, and to be as it should, by making it. -/
theorem exists_of_made {settings : Value} {sample : List SampleItem} (p : Guess → Bool)
    (h : (match ofSample c settings sample with
      | .ok (some g) => p g
      | _ => false) = true) : ∃ g, ofSample c settings sample = .ok (some g) ∧ p g = true := by
  split at h
  · next g hg => exact ⟨g, hg, h⟩
  · contradiction

end Guess

end Delimited
