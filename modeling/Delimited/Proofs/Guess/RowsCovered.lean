/- The columns of a guess without a header, and the rows they were read from. The types are those of
the rows after the first, so each of these is covered; the first need not be, unless it is the only
one or all its columns are textual (`rows_covered`). -/
import Delimited.Proofs.Guess.Stages
import Delimited.Proofs.Schema.RowTypes

namespace Delimited.Guess

open ColumnType (Covers)

variable {c : Tunables} {o : Overrides} {lines : List Line} {g : Guess}

/-! ### Columns without a header -/

/-- Where each column has a name, none is left out. -/
theorem map_type_namedColumns {names : List Text} {types : List ColumnType}
    (h : names.length = types.length) :
    (namedColumns (names.map some) types).map Column.type = types := by
  induction names generalizing types with
  | nil =>
      obtain rfl : types = [] := List.length_eq_zero_iff.mp h.symm
      rfl
  | cons name names ih =>
      cases types with
      | nil => simp at h
      | cons type types =>
          have hrest := ih (Nat.succ_inj.mp h)
          simpa [namedColumns] using hrest

theorem Stages.map_type_columns (st : Stages c o lines g) (hheader : g.header = false) :
    g.columns.map Column.type = st.types := by
  have hnames : columnNames false st.first st.types.length =
      ((List.range st.types.length).map fun i => 'c' :: Decimal.ofNat i).map some := by
    rw [List.map_map]
    rfl
  rw [st.named, hheader, hnames]
  apply map_type_namedColumns
  simp

/-! ### Rows and their columns -/

/-- A first row that is no header, though all its columns are textual, has the types of the body. -/
theorem types_of_isHeader_eq_false {rows : List (List (Option Text))}
    {first types : List ColumnType} (h : Layout.isHeader c rows first types = false)
    (htextual : first.all ColumnType.isTextual = true) : first = types := by
  simp only [Layout.isHeader, htextual, Bool.and_true, Bool.or_eq_false_iff, bne_eq_false_iff_eq] at h
  exact h.1

theorem Stages.covers_body (st : Stages c o lines g) {own : Division}
    (hown : split g.dialect true c.maxQuotedSize g.skipPlan.lines = some own) :
    ∀ row ∈ own.rows.drop 1, Covers st.types row := by
  intro row hrow
  rcases st.read_own hown with ⟨-, -, htypes⟩ | ⟨-, -, htypes⟩
  · rw [htypes]
    exact ColumnType.covers_ofRows (List.mem_of_mem_drop hrow)
  · rw [htypes]
    exact ColumnType.covers_ofRows hrow

theorem Stages.covers_of_one_row (st : Stages c o lines g) {own : Division}
    (hown : split g.dialect true c.maxQuotedSize g.skipPlan.lines = some own)
    (hone : st.body = []) : ∀ row ∈ own.rows, Covers st.types row := by
  intro row hrow
  rcases st.read_own hown with ⟨-, -, htypes⟩ | ⟨hbody, -⟩
  · rw [htypes]
    exact ColumnType.covers_ofRows hrow
  · exact absurd hone hbody

/-- A textual first row that is no header is covered as well, if the rows are still those that it
was compared with. -/
theorem Stages.covers_of_textual (st : Stages c o lines g) (hheader : g.header = false)
    (hsame : g.dialect = st.dialect)
    (htextual : (ColumnType.ofRows [st.first]).all ColumnType.isTextual = true) :
    ∀ row ∈ st.division.rows, Covers st.types row := by
  have hown := st.divided
  rw [← hsame] at hown
  by_cases hone : st.body = []
  · exact st.covers_of_one_row hown hone
  · rcases st.read_own hown with ⟨hbody, -⟩ | ⟨-, hfirst, -⟩
    · exact absurd hbody hone
    · rw [hheader] at hfirst
      have htypes := types_of_isHeader_eq_false hfirst.symm htextual
      intro row hrow
      rw [st.rows] at hrow
      rcases List.mem_cons.mp hrow with rfl | hbody
      · rw [← htypes]
        exact ColumnType.covers_ofRows (List.mem_singleton_self _)
      · apply st.covers_body hown
        rw [st.rows]
        exact hbody

/-- Without a header, the columns of a guess cover every row after the first. They cover the first
too if it was the only one before trimming was settled, and if its columns are all textual and
trimming was not turned on over it. -/
theorem rows_covered {settings : Value} {sample : List SampleItem}
    (h : ofSample c settings sample = .ok (some g)) (hheader : g.header = false) :
    ∃ o own raw, Overrides.read settings = .ok o ∧
      split g.dialect true c.maxQuotedSize g.skipPlan.lines = some own ∧
      split { g.dialect with trim := o.trim.getD false } true c.maxQuotedSize g.skipPlan.lines =
        some raw ∧
      (∀ row ∈ own.rows.drop 1, Covers (g.columns.map Column.type) row) ∧
      (raw.rows.length = 1 → ∀ row ∈ own.rows, Covers (g.columns.map Column.type) row) ∧
      (o.trim ≠ .unset ∨ g.dialect.trim = false →
        (ColumnType.ofRows (own.rows.take 1)).all ColumnType.isTextual = true →
        ∀ row ∈ own.rows, Covers (g.columns.map Column.type) row) := by
  obtain ⟨o, hread, ⟨st⟩⟩ := stages_of_ofSample h
  obtain ⟨hdialect, -, own, hown, -⟩ := st.read
  rw [st.map_type_columns hheader]
  refine ⟨o, own, st.division, hread, hown, hdialect ▸ st.divided, st.covers_body hown, ?_, ?_⟩
  · intro hone
    apply st.covers_of_one_row hown
    rw [st.rows] at hone
    simpa using hone
  · intro hsettled htextual
    have hsame := st.dialect_settled hsettled
    have hdivided := hown
    rw [hsame, st.divided] at hdivided
    obtain rfl : st.division = own := Option.some.inj hdivided
    rw [st.rows] at htextual
    exact st.covers_of_textual hheader hsame htextual

/-- Two rows of texts, of which the first is no header and is covered like the second. -/
theorem rows_covered_textual :
    ∃ g own, ofSample {} .null (plainSample [['a', ',', 'b'], ['c', ',', 'd']]) = .ok (some g) ∧
      g.header = false ∧ split g.dialect true 131072 g.skipPlan.lines = some own ∧
      own.rows = [[some ['a'], some ['b']], [some ['c'], some ['d']]] ∧
      ∀ row ∈ own.rows, Covers (g.columns.map Column.type) row := by
  obtain ⟨g, hg, hfound⟩ : ∃ g, ofSample {} .null
      (plainSample [['a', ',', 'b'], ['c', ',', 'd']]) = .ok (some g) ∧
        decide (g.header = false ∧ g.dialect.trim = false ∧
          (split g.dialect true 131072 g.skipPlan.lines).map Division.rows =
            some [[some ['a'], some ['b']], [some ['c'], some ['d']]]) = true :=
    exists_of_made _ (by decide +kernel)
  obtain ⟨hheader, htrim, hrows⟩ := of_decide_eq_true hfound
  obtain ⟨o, own, raw, -, hown, -, -, -, htextual⟩ := rows_covered hg hheader
  obtain ⟨own', hown', hrows'⟩ := Option.map_eq_some_iff.mp hrows
  obtain rfl : own = own' := Option.some.inj (hown.symm.trans hown')
  refine ⟨g, own, hg, hheader, hown, hrows', htextual (.inr htrim) ?_⟩
  rw [hrows']
  decide

/-- A decimal number over whole ones: it is no header, and the column of whole numbers does not take
it in. -/
theorem first_row_not_covered :
    ∃ g own, ofSample {} .null (plainSample [['1', '.', '5'], ['1', '0', '0'], ['2', '0', '0']]) =
        .ok (some g) ∧
      g.header = false ∧ split g.dialect true 131072 g.skipPlan.lines = some own ∧
      ¬ ∀ row ∈ own.rows, Covers (g.columns.map Column.type) row := by
  obtain ⟨g, hg, hfound⟩ : ∃ g, ofSample {} .null
      (plainSample [['1', '.', '5'], ['1', '0', '0'], ['2', '0', '0']]) = .ok (some g) ∧
        decide (g.header = false ∧ g.columns.map Column.type = [.long] ∧
          (split g.dialect true 131072 g.skipPlan.lines).map (fun own => own.rows.head?) =
            some (some [some ['1', '.', '5']])) = true :=
    exists_of_made _ (by decide +kernel)
  obtain ⟨hheader, htypes, hrows⟩ := of_decide_eq_true hfound
  obtain ⟨own, hown, hfirst⟩ := Option.map_eq_some_iff.mp hrows
  refine ⟨g, own, hg, hheader, hown, ?_⟩
  intro hall
  have hcovers := hall _ (List.mem_of_mem_head? hfirst)
  rw [htypes] at hcovers
  obtain ⟨type, htype, hmerge⟩ := hcovers.value 0 _ .double rfl (by decide)
  obtain rfl : .long = type := Option.some.inj htype
  exact absurd hmerge (by decide)

end Delimited.Guess
