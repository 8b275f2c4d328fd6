/- The first row of a table. Where there are rows after it, it has values; so it is taken for a header
by its types only where it has a textual one (`empty_record_only_last`). -/
import Delimited.Proofs.Guess.Stages
import Delimited.Proofs.Record.EmptyRecord
import Delimited.Proofs.Schema.RowTypes

namespace Delimited

theorem Layout.isHeader_eq_true_iff {c : Tunables} {rows : List (List (Option Text))}
    {firstTypes bodyTypes : List ColumnType} :
    isHeader c rows firstTypes bodyTypes = true ↔
      (firstTypes ≠ bodyTypes ∧ ∀ t ∈ firstTypes, t.isTextual = true) ∨
        headerByLength c rows = true := by
  simp [isHeader]

namespace Guess

variable {c : Tunables} {o : Overrides} {plan : SkipPlan} {d : Dialect} {lines : List Line}

/-- The first of several rows has values. -/
theorem first_ne_nil_of_split {s : Division} (hs : split d true c.maxQuotedSize lines = some s)
    (hmore : 2 ≤ s.records.length) :
    ∃ first second body, s.rows = first :: second :: body ∧ first ≠ [] := by
  have hrecords : s.records ≠ [] := by
    intro hnil
    simp [hnil] at hmore
  have hd := delimiter_ne_nil_of_records hs hrecords
  obtain rfl : division d true c.maxQuotedSize lines = s :=
    Option.some.inj ((split_eq_division hd true c.maxQuotedSize lines).symm.trans hs)
  match hcons : (division d true c.maxQuotedSize lines).records with
  | [] => simp [hcons] at hmore
  | [_] => simp [hcons] at hmore
  | first :: second :: body =>
      have hfirst : first ≠ [] := by
        apply ne_nil_of_mem_dropLast hd
        rw [hcons, List.dropLast_cons_cons]
        exact .head _
      refine ⟨first.values, second.values, body.map Record.values, ?_, ?_⟩
      · rw [Division.rows, hcons]
        rfl
      · simpa [Record.values] using hfirst

/-- Several rows are read with the header that the first has over the types of the others. -/
theorem header_of_readTable {first second : List (Option Text)} {body : List (List (Option Text))}
    {d' : Dialect} {header : Bool} {types : List ColumnType}
    (h : readTable c o plan d (first :: second :: body) = .ok (d', header, types)) :
    header = Layout.isHeader c (first :: second :: body) (ColumnType.ofRows [first]) types := by
  obtain ⟨⟨settled, settledTypes⟩, -, h⟩ := bind_eq_ok.mp h
  cases h
  rfl

/-- All records but the last have fields, and the last has none just when the lines run out inside
quotes that its first column opened. So where a table has several rows the first has values, and it
is taken for a header by its types only where it has a textual one. -/
theorem empty_record_only_last (c : Tunables) (o : Overrides) (plan : SkipPlan) (d : Dialect) :
    (d.delimiter ≠ [] → ∀ (skipEmpty : Bool) (lines : List Line),
      ∃ s, split d skipEmpty c.maxQuotedSize lines = some s ∧
        (∀ r ∈ s.records.dropLast, r ≠ []) ∧
        (s.records.getLast? = some [] ↔ LastOpensToEnd d skipEmpty c.maxQuotedSize lines) ∧
        (s.records.getLast? = some [] → s.openEnd = true)) ∧
      ∀ final, divide c d true plan.lines = .ok final → 2 ≤ final.records.length →
        ∃ first second body, final.rows = first :: second :: body ∧ first ≠ [] ∧
          ColumnType.ofRows [first] ≠ [] ∧
          ∀ d' header types, readTable c o plan d final.rows = .ok (d', header, types) →
            header = true →
              (ColumnType.ofRows [first] ≠ types ∧
                ∃ t ∈ ColumnType.ofRows [first], t.isTextual = true) ∨
              Layout.headerByLength c final.rows = true := by
  constructor
  · intro hd skipEmpty lines
    refine ⟨_, split_eq_division hd skipEmpty _ lines, ?_, getLast?_records_eq_nil_iff hd, ?_⟩
    · intro r hr
      exact ne_nil_of_mem_dropLast hd hr
    · intro hlast
      exact (lastOpensToEnd_of_nil_mem hd (List.mem_of_getLast? hlast)).1
  · intro final hfinal hmore
    obtain ⟨first, second, body, hrows, hfirst⟩ :=
      first_ne_nil_of_split (divide_eq_ok.mp hfinal) hmore
    have htypes : ColumnType.ofRows [first] ≠ [] :=
      ColumnType.ofRows_ne_nil_iff.mpr ⟨first, .head [], hfirst⟩
    refine ⟨first, second, body, hrows, hfirst, htypes, ?_⟩
    intro d' header types hread hheader
    rw [hrows] at hread ⊢
    rw [header_of_readTable hread, Layout.isHeader_eq_true_iff] at hheader
    refine hheader.imp_left ?_
    rintro ⟨hdiffer, htextual⟩
    obtain ⟨t, ht⟩ := List.exists_mem_of_ne_nil _ htypes
    exact ⟨hdiffer, t, ht, htextual t ht⟩

/-- A quote is opened on the second of two lines, and both are records. -/
theorem empty_record_only_last_open_quote :
    (⟨[','], some ['"'], none, none, false⟩ : Dialect).delimiter ≠ [] ∧
      LastOpensToEnd ⟨[','], some ['"'], none, none, false⟩ true 131072
        [⟨1, ['a']⟩, ⟨2, ['"', 'b']⟩] ∧
      ∃ final first second body, divide {} ⟨[','], some ['"'], none, none, false⟩ true
          [⟨1, ['a']⟩, ⟨2, ['"', 'b']⟩] = .ok final ∧
        final.openEnd = true ∧ final.rows = first :: second :: body ∧
        ColumnType.ofRows [first] ≠ [] := by
  have hd : (⟨[','], some ['"'], none, none, false⟩ : Dialect).delimiter ≠ [] := by decide
  have hsplit : split ⟨[','], some ['"'], none, none, false⟩ true 131072
      [⟨1, ['a']⟩, ⟨2, ['"', 'b']⟩] =
        some { records := [[⟨some ['a'], false⟩], []], openEnd := true } := by decide +kernel
  obtain ⟨hrecords, hguess⟩ := empty_record_only_last {} {} ⟨0, none, [⟨1, ['a']⟩, ⟨2, ['"', 'b']⟩]⟩
    ⟨[','], some ['"'], none, none, false⟩
  obtain ⟨s, hs, -, hlast, hopen⟩ := hrecords hd true [⟨1, ['a']⟩, ⟨2, ['"', 'b']⟩]
  obtain rfl := Option.some.inj (hsplit.symm.trans hs)
  have hfinal := divide_eq_ok (c := {}).mpr hsplit
  obtain ⟨first, second, body, hrows, -, htypes, -⟩ := hguess _ hfinal (by decide)
  exact ⟨hd, hlast.mp rfl, _, first, second, body, hfinal, hopen rfl, hrows, htypes⟩

end Guess

end Delimited
