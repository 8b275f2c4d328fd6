/- The header against the dialect of a guess. The types of the columns are read in that dialect, but
the header and its names in the one before trimming was settled, and the two may disagree
(`header_of_own_rows`). -/
import Delimited.Proofs.Guess.Stages

namespace Delimited.Guess

/-- Whether the first of these rows is a header over columns of these types. A row alone is none. -/
def headerOf (c : Tunables) (rows : List (List (Option Text))) (types : List ColumnType) : Bool :=
  match rows with
  | [] | [_] => false
  | first :: _ => Layout.isHeader c rows (ColumnType.ofRows [first]) types

/-- The columns of these types that the first of these rows names. -/
def headerColumns (rows : List (List (Option Text))) (types : List ColumnType) : List Column :=
  namedColumns ((rows.headD []).map (Option.map Text.strip)) types

def bodyTypes (rows : List (List (Option Text))) : List ColumnType :=
  ColumnType.ofRows (rows.drop 1)

/-- A guess has the header that these rows have over columns of these types, and its names. -/
structure HasHeaderOf (c : Tunables) (g : Guess) (rows : List (List (Option Text)))
    (types : List ColumnType) : Prop where
  header : g.header = headerOf c rows types
  columns : g.header = true → g.columns = headerColumns rows types

variable {c : Tunables} {o : Overrides} {lines : List Line} {g : Guess}

/-- Header and names are those of the rows before trimming was settled, over the types after it. -/
theorem Stages.hasHeaderOf (st : Stages c o lines g) {own : Division}
    (hown : split g.dialect true c.maxQuotedSize g.skipPlan.lines = some own) :
    HasHeaderOf c g st.division.rows (bodyTypes own.rows) := by
  have hrows := st.rows
  rcases st.read_own hown with ⟨hbody, hheader, -⟩ | ⟨hbody, hheader, htypes⟩
  · rw [hbody] at hrows
    constructor
    · rw [hrows, headerOf, hheader]
    · intro htrue
      rw [hheader] at htrue
      contradiction
  · obtain ⟨second, body, hcons⟩ := List.exists_cons_of_ne_nil hbody
    rw [hcons] at hrows hheader
    constructor
    · rw [hrows, headerOf, bodyTypes, ← htypes, hheader]
      simp
    · intro htrue
      rw [st.named, htrue, bodyTypes, ← htypes, headerColumns, hrows, List.headD_cons]
      rfl

theorem HasHeaderOf.iff_of_same_types {rows own : List (List (Option Text))}
    {types : List ColumnType} (h : HasHeaderOf c g rows types) :
    HasHeaderOf c g own types ↔ headerOf c rows types = headerOf c own types ∧
      (headerOf c rows types = true → headerColumns rows types = headerColumns own types) := by
  rw [← h.header]
  constructor
  · rintro ⟨hsame, hnames⟩
    refine ⟨hsame, ?_⟩
    intro htrue
    rw [← h.columns htrue, hnames htrue]
  · rintro ⟨hsame, hnames⟩
    constructor
    · exact hsame
    · intro htrue
      rw [h.columns htrue, hnames htrue]

/-- The header of a guess and its names are those of the rows that its own dialect gives, just when
the rows before trimming was settled give the same header and the same names. So it is where
trimming is settled from the start or is left off. -/
theorem header_of_own_rows {settings : Value} {sample : List SampleItem}
    (h : ofSample c settings sample = .ok (some g)) :
    ∃ o own raw, Overrides.read settings = .ok o ∧
      split g.dialect true c.maxQuotedSize g.skipPlan.lines = some own ∧
      split { g.dialect with trim := o.trim.getD false } true c.maxQuotedSize g.skipPlan.lines =
        some raw ∧
      (HasHeaderOf c g own.rows (bodyTypes own.rows) ↔
        headerOf c raw.rows (bodyTypes own.rows) = headerOf c own.rows (bodyTypes own.rows) ∧
          (headerOf c raw.rows (bodyTypes own.rows) = true →
            headerColumns raw.rows (bodyTypes own.rows) =
              headerColumns own.rows (bodyTypes own.rows))) ∧
      (o.trim ≠ .unset ∨ g.dialect.trim = false → HasHeaderOf c g own.rows (bodyTypes own.rows)) := by
  obtain ⟨o, ho, ⟨st⟩⟩ := stages_of_ofSample h
  obtain ⟨hdialect, -, own, hown, -⟩ := st.read
  have hraw := st.hasHeaderOf hown
  refine ⟨o, own, st.division, ho, hown, hdialect ▸ st.divided, hraw.iff_of_same_types, ?_⟩
  intro hsettled
  have hdivided := hown
  rw [st.dialect_settled hsettled, st.divided] at hdivided
  obtain rfl : st.division = own := Option.some.inj hdivided
  exact hraw

theorem header_of_own_rows_untrimmed :
    ∃ g own, ofSample {} .null (plainSample [['n', ',', 'm'], ['a', ',', '1'], ['b', ',', '2']]) =
        .ok (some g) ∧
      split g.dialect true 131072 g.skipPlan.lines = some own ∧
      HasHeaderOf {} g own.rows (bodyTypes own.rows) := by
  obtain ⟨g, hg, htrim⟩ : ∃ g, ofSample {} .null
      (plainSample [['n', ',', 'm'], ['a', ',', '1'], ['b', ',', '2']]) = .ok (some g) ∧
        (!g.dialect.trim) = true := exists_of_made _ (by decide +kernel)
  obtain ⟨o, own, raw, -, hown, -, -, hsettled⟩ := header_of_own_rows hg
  exact ⟨g, own, hg, hown, hsettled (.inr (by simpa using htrim))⟩

/-- Three numbers after spaces. As they stand the first is a text over numbers, and so a header;
trimmed, all three are numbers, and none is. -/
theorem header_not_of_own_rows :
    ∃ g own, ofSample {} .null (plainSample [[' ', '1'], [' ', '2'], [' ', '3']]) = .ok (some g) ∧
      split g.dialect true 131072 g.skipPlan.lines = some own ∧
      ¬ HasHeaderOf {} g own.rows (bodyTypes own.rows) := by
  obtain ⟨g, hg, hheader⟩ : ∃ g, ofSample {} .null
      (plainSample [[' ', '1'], [' ', '2'], [' ', '3']]) = .ok (some g) ∧
        ((split g.dialect true 131072 g.skipPlan.lines).any fun own =>
          g.header != headerOf {} own.rows (bodyTypes own.rows)) = true :=
    exists_of_made _ (by decide +kernel)
  obtain ⟨own, hown, hdiffer⟩ := Option.any_eq_true _ _ |>.mp hheader
  refine ⟨g, own, hg, hown, ?_⟩
  intro hsame
  exact bne_iff_ne.mp hdiffer hsame.header

end Delimited.Guess
