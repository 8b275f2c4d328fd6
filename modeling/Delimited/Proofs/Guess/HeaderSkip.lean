/- The lines that a guess tells a reader to skip. The count takes a header for one line, and for the
line right after the ragged ones; where the header stands elsewhere, or fills more lines, the rest
is not the body of the table (`body_after_skipHeaderLines`). -/
import Delimited.Proofs.Guess.Stages
import Delimited.Proofs.Record.Extent

namespace Delimited.Guess

variable {c : Tunables} {o : Overrides} {lines : List Line} {g : Guess}

/-- The lines of the table that are left when the first lines of the sample are skipped as told. -/
def linesAfterSkip (g : Guess) : List Line :=
  g.skipPlan.lines.filter fun line => (g.skipHeaderLines : Int) ≤ line.number - 1

/-- The header is the line right after the skipped ones, and no other line. -/
def HeaderOnOneLine (c : Tunables) (g : Guess) : Prop :=
  ∃ line later fields, g.skipPlan.lines = line :: later ∧ line.number - 1 = g.skipPlan.skipped ∧
    line.text ≠ [] ∧
    scanRecord g.dialect c.maxQuotedSize ⟨line, line.text, later⟩ = .record fields later

/-- The one division has the records of the other without its header. -/
def IsBody (g : Guess) (whole rest : Division) : Prop :=
  rest.records = if g.header then whole.records.drop 1 else whole.records

/-! ### Numbers and places -/

theorem number_of_plainSample (texts : List Text) (i : Nat)
    (hi : i < (SampleItem.lines (plainSample texts)).length) :
    (SampleItem.lines (plainSample texts))[i].number = (i : Int) + 1 := by
  simp [SampleItem.lines, plainSample, SampleItem.toLine]

theorem pairwise_number_of_plainSample (texts : List Text) :
    (SampleItem.lines (plainSample texts)).Pairwise fun a b => a.number < b.number := by
  rw [List.pairwise_iff_getElem]
  intro i j hi hj hlt
  rw [number_of_plainSample, number_of_plainSample]
  omega

theorem le_number_of_mem_drop {texts : List Text} {k : Nat} {line : Line}
    (h : line ∈ (SampleItem.lines (plainSample texts)).drop k) : (k : Int) ≤ line.number - 1 := by
  obtain ⟨i, hi, rfl⟩ := List.mem_iff_getElem.mp h
  rw [List.getElem_drop, number_of_plainSample]
  omega

section Places

variable {texts : List Text} (st : Stages c o (SampleItem.lines (plainSample texts)) g)

include st

theorem Stages.pairwise_number :
    g.skipPlan.lines.Pairwise fun a b => a.number < b.number := by
  obtain ⟨p, hlines⟩ := lines_of_planSkip st.planned
  rw [hlines]
  exact ((pairwise_number_of_plainSample texts).drop).filter p

theorem Stages.skipped_le_number {line : Line} (h : line ∈ g.skipPlan.lines) :
    (g.skipPlan.skipped : Int) ≤ line.number - 1 := by
  obtain ⟨p, hlines⟩ := lines_of_planSkip st.planned
  rw [hlines] at h
  exact le_number_of_mem_drop (List.mem_filter.mp h).1

/-- Without a header no line of the table is skipped. -/
theorem Stages.linesAfterSkip_of_no_header (hheader : g.header = false) :
    g.linesAfterSkip = g.skipPlan.lines := by
  rw [linesAfterSkip, List.filter_eq_self]
  intro line hline
  have hle := st.skipped_le_number hline
  simpa [skipHeaderLines, hheader] using hle

/-- With a header, a first line at the place after the skipped ones is skipped as well. -/
theorem Stages.linesAfterSkip_of_header (hheader : g.header = true) {line : Line}
    {later : List Line} (hlines : g.skipPlan.lines = line :: later) :
    g.linesAfterSkip =
      if line.number - 1 = g.skipPlan.skipped then later else line :: later := by
  have hpairwise := st.pairwise_number
  have hfirst := st.skipped_le_number (hlines ▸ List.mem_cons_self)
  rw [hlines, List.pairwise_cons] at hpairwise
  have hlater : later.filter (fun l => decide ((g.skipHeaderLines : Int) ≤ l.number - 1)) = later := by
    rw [List.filter_eq_self]
    intro l hl
    have hlt := hpairwise.1 l hl
    simp only [skipHeaderLines, hheader, if_true, decide_eq_true_eq]
    omega
  rw [linesAfterSkip, hlines, List.filter_cons, hlater]
  by_cases hplace : line.number - 1 = g.skipPlan.skipped
  · rw [if_pos hplace, if_neg]
    simp only [skipHeaderLines, hheader, if_true, decide_eq_true_eq]
    omega
  · rw [if_neg hplace, if_pos]
    simp only [skipHeaderLines, hheader, if_true, decide_eq_true_eq]
    omega

end Places

/-! ### The body of the table -/

/-- A guess is made of records of its own dialect, two at least where it has a header. -/
theorem Stages.rows_of_header (st : Stages c o lines g) {own : Division}
    (hown : split g.dialect true c.maxQuotedSize g.skipPlan.lines = some own)
    (hheader : g.header = true) : own.records.drop 1 ≠ [] := by
  rcases st.read_own hown with ⟨-, hnone, -⟩ | ⟨-, -, htypes⟩
  · rw [hheader] at hnone
    contradiction
  · intro hnil
    apply st.typed
    rw [htypes, Division.rows, ← List.map_drop, hnil]
    rfl

/-- Where the header is the line after the skipped ones, or there is none, the body is left. -/
theorem isBody_of_headerOnOneLine {texts : List Text}
    (st : Stages c o (SampleItem.lines (plainSample texts)) g)
    (hone : g.header = true → HeaderOnOneLine c g) :
    IsBody g (division g.dialect true c.maxQuotedSize g.skipPlan.lines)
      (division g.dialect true c.maxQuotedSize g.linesAfterSkip) := by
  unfold IsBody
  cases hheader : g.header with
  | true =>
      obtain ⟨line, later, fields, hlines, hplace, htext, hscan⟩ := hone hheader
      rw [if_pos rfl, st.linesAfterSkip_of_header hheader hlines, if_pos hplace, hlines,
        division_record st.delimiter_ne_nil (by simpa using htext) hscan, List.drop_one,
        List.tail_cons]
  | false =>
      rw [st.linesAfterSkip_of_no_header hheader]
      rfl

/-- A header is skipped only at the place after the skipped lines, and only one that is not empty. -/
theorem place_of_isBody {texts : List Text}
    (st : Stages c o (SampleItem.lines (plainSample texts)) g) (hheader : g.header = true)
    (hbody : IsBody g (division g.dialect true c.maxQuotedSize g.skipPlan.lines)
      (division g.dialect true c.maxQuotedSize g.linesAfterSkip)) :
    ∃ line later, g.skipPlan.lines = line :: later ∧ line.number - 1 = g.skipPlan.skipped ∧
      line.text ≠ [] ∧ g.linesAfterSkip = later := by
  rw [IsBody, if_pos hheader] at hbody
  have hown := split_eq_division st.delimiter_ne_nil true c.maxQuotedSize g.skipPlan.lines
  have hmore := st.rows_of_header hown hheader
  -- all the lines cannot make the records without the first one
  have hshrunk : g.linesAfterSkip ≠ g.skipPlan.lines := by
    intro hsame
    rw [hsame] at hbody
    have hlength := congrArg List.length hbody
    have hpos := List.length_pos_iff.mpr hmore
    simp only [List.length_drop] at hlength hpos
    omega
  cases hlines : g.skipPlan.lines with
  | nil =>
      rw [hlines, division_nil] at hmore
      contradiction
  | cons line later =>
      have hafter := st.linesAfterSkip_of_header hheader hlines
      by_cases hplace : line.number - 1 = g.skipPlan.skipped
      · rw [if_pos hplace] at hafter
        refine ⟨line, later, rfl, hplace, ?_, hafter⟩
        intro htext
        rw [hafter, hlines, division_blank (by simp [htext])] at hbody
        rw [hlines, division_blank (by simp [htext]), ← hbody] at hmore
        have hlength := congrArg List.length hbody
        have hpos := List.length_pos_iff.mpr hmore
        simp only [List.length_drop] at hlength
        omega
      · rw [if_neg hplace, ← hlines] at hafter
        contradiction

/-- Where one reading makes the body of another, and both end well, the header is one line. -/
theorem headerOnOneLine_of_isBody {texts : List Text}
    (st : Stages c o (SampleItem.lines (plainSample texts)) g) (hheader : g.header = true)
    (hfeed : NoLineFeed g.skipPlan.lines) {whole rest : Division}
    (hwhole : division g.dialect true c.maxQuotedSize g.skipPlan.lines = whole)
    (hrest : division g.dialect true c.maxQuotedSize g.linesAfterSkip = rest)
    (hwarnings : whole.warnings = []) (hopen : whole.openEnd = false)
    (hwarnings' : rest.warnings = []) (hopen' : rest.openEnd = false)
    (hbody : IsBody g whole rest) : HeaderOnOneLine c g := by
  subst hwhole hrest
  have hd := st.delimiter_ne_nil
  obtain ⟨line, later, hlines, hplace, htext, hafter⟩ := place_of_isBody st hheader hbody
  have hmore := st.rows_of_header (split_eq_division hd true _ _) hheader
  have hne : (division g.dialect true c.maxQuotedSize g.skipPlan.lines).records ≠ [] := by
    intro hnil
    rw [hnil] at hmore
    contradiction
  rw [IsBody, if_pos hheader, hafter, hlines] at hbody
  rw [hafter] at hwarnings' hopen'
  rw [hlines] at hfeed hwarnings hopen hne
  obtain ⟨-, fields, hscan⟩ :=
    scanRecord_of_records_eq_drop hd hfeed hopen hopen' hwarnings hwarnings' hne hbody
  exact ⟨line, later, fields, hlines, hplace, htext, hscan⟩

/-- Skipping the lines that a guess says leaves the body of its table, if there is no header or the
header is the one line after the ragged ones. A header at another place is never skipped, nor is
one that fills more lines, if its lines hold no line feed and are read on without a warning. -/
theorem body_after_skipHeaderLines {settings : Value} {texts : List Text}
    (h : ofSample c settings (plainSample texts) = .ok (some g)) :
    ∃ whole rest, split g.dialect true c.maxQuotedSize g.skipPlan.lines = some whole ∧
      split g.dialect true c.maxQuotedSize g.linesAfterSkip = some rest ∧
      ((g.header = true → HeaderOnOneLine c g) → IsBody g whole rest) ∧
      (IsBody g whole rest → g.header = true → ∃ line later, g.skipPlan.lines = line :: later ∧
        line.number - 1 = g.skipPlan.skipped ∧ line.text ≠ []) ∧
      (NoLineFeed g.skipPlan.lines → whole.warnings = [] → whole.openEnd = false →
        rest.warnings = [] → rest.openEnd = false →
        (IsBody g whole rest ↔ (g.header = true → HeaderOnOneLine c g))) := by
  obtain ⟨o, -, ⟨st⟩⟩ := stages_of_ofSample h
  have hd := st.delimiter_ne_nil
  refine ⟨_, _, split_eq_division hd true _ _, split_eq_division hd true _ _,
    isBody_of_headerOnOneLine st, ?_, ?_⟩
  · intro hbody hheader
    obtain ⟨line, later, hlines, hplace, htext, -⟩ := place_of_isBody st hheader hbody
    exact ⟨line, later, hlines, hplace, htext⟩
  · intro hfeed hwarnings hopen hwarnings' hopen'
    constructor
    · intro hbody hheader
      exact headerOnOneLine_of_isBody st hheader hfeed rfl rfl hwarnings hopen hwarnings' hopen'
        hbody
    · exact isBody_of_headerOnOneLine st

theorem body_after_skipHeaderLines_one_column :
    ∃ g whole rest, ofSample {} .null
        (plainSample [['c', 'o', 'd', 'e'], ['a', 'b'], ['c', 'd'], ['e', 'f']]) = .ok (some g) ∧
      g.header = true ∧
      split g.dialect true 131072 g.skipPlan.lines = some whole ∧
      split g.dialect true 131072 g.linesAfterSkip = some rest ∧ IsBody g whole rest := by
  obtain ⟨g, hg, hfound⟩ : ∃ g, ofSample {} .null
      (plainSample [['c', 'o', 'd', 'e'], ['a', 'b'], ['c', 'd'], ['e', 'f']]) = .ok (some g) ∧
        decide (g.header = true ∧ g.skipPlan.skipped = 0 ∧
          g.skipPlan.lines = [⟨1, ['c', 'o', 'd', 'e']⟩, ⟨2, ['a', 'b']⟩, ⟨3, ['c', 'd']⟩,
            ⟨4, ['e', 'f']⟩] ∧
          g.dialect = ⟨[','], some ['"'], some ['"'], none, false⟩) = true :=
    exists_of_made _ (by decide +kernel)
  obtain ⟨hheader, hskipped, hlines, hdialect⟩ := of_decide_eq_true hfound
  have hscan : scanColumn ⟨[','], some ['"'], some ['"'], none, false⟩ 131072
      ⟨⟨1, ['c', 'o', 'd', 'e']⟩, ['c', 'o', 'd', 'e'],
        [⟨2, ['a', 'b']⟩, ⟨3, ['c', 'd']⟩, ⟨4, ['e', 'f']⟩]⟩ =
      .last ['c', 'o', 'd', 'e'] false [] ⟨⟨1, ['c', 'o', 'd', 'e']⟩, [],
        [⟨2, ['a', 'b']⟩, ⟨3, ['c', 'd']⟩, ⟨4, ['e', 'f']⟩]⟩ := by decide
  have hone : HeaderOnOneLine {} g := by
    refine ⟨_, _, [⟨some ['c', 'o', 'd', 'e'], false⟩], hlines, ?_, by decide, ?_⟩
    · rw [hskipped]
      rfl
    · rw [hdialect]
      exact scanRecord_last hscan
  obtain ⟨whole, rest, hwhole, hrest, hbody, -, -⟩ := body_after_skipHeaderLines hg
  exact ⟨g, whole, rest, hg, hheader, hwhole, hrest, hbody fun _ => hone⟩

/-- A comment before the header takes its place, and the header is read as a row. -/
theorem header_after_skipHeaderLines :
    ∃ g whole rest, ofSample {} .null (plainSample
        [['#', ' ', 'x', ',', 'y'], ['i', 'd', ',', 'n'], ['1', ',', 'a'], ['2', ',', 'b']]) =
          .ok (some g) ∧
      split g.dialect true 131072 g.skipPlan.lines = some whole ∧
      split g.dialect true 131072 g.linesAfterSkip = some rest ∧ ¬ IsBody g whole rest := by
  obtain ⟨g, hg, hbody⟩ : ∃ g, ofSample {} .null (plainSample
      [['#', ' ', 'x', ',', 'y'], ['i', 'd', ',', 'n'], ['1', ',', 'a'], ['2', ',', 'b']]) =
        .ok (some g) ∧
        ((split g.dialect true 131072 g.skipPlan.lines).any fun whole =>
          (split g.dialect true 131072 g.linesAfterSkip).any fun rest =>
            rest.records != if g.header then whole.records.drop 1 else whole.records) = true :=
    exists_of_made _ (by decide +kernel)
  obtain ⟨whole, hwhole, hsome⟩ := Option.any_eq_true _ _ |>.mp hbody
  obtain ⟨rest, hrest, hdiffer⟩ := Option.any_eq_true _ _ |>.mp hsome
  exact ⟨g, whole, rest, hg, hwhole, hrest, bne_iff_ne.mp hdiffer⟩

end Delimited.Guess
