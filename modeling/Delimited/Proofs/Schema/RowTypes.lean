/- Types of rows. One type is within another that takes it in; the merge of two types is the least
one that both are within, so the type of a column is the least that takes in the type of each of its
values (`ofRows_isLUB`), and the types of rows cover every one of the rows (`covers_ofRows`). -/
import Delimited.Schema.ColumnType
import Mathlib.Order.Bounds.Basic

namespace Delimited.ColumnType

section Merge

variable {a b c : ColumnType} {ts : List ColumnType}

theorem merge_self (a : ColumnType) : merge a a = a := by
  simp [merge]

theorem merge_comm (a b : ColumnType) : merge a b = merge b a := by
  cases a <;> cases b <;> grind [merge]

theorem merge_assoc (a b c : ColumnType) : merge (merge a b) c = merge a (merge b c) := by
  cases a <;> cases b <;> cases c <;> grind [merge]

instance : Max ColumnType := ⟨merge⟩

/-- A type is within another when their merge is the other. -/
instance : SemilatticeSup ColumnType := .mk' merge_comm merge_assoc merge_self

theorem le_iff_merge_eq : a ≤ b ↔ merge a b = b := Iff.rfl

theorem merge_le_iff : merge a b ≤ c ↔ a ≤ c ∧ b ≤ c := sup_le_iff

/-- The merge of types is within a type just when each of them is. -/
theorem foldl_merge_le_iff : ts.foldl merge a ≤ c ↔ ∀ t ∈ a :: ts, t ≤ c := by
  induction ts generalizing a with
  | nil => simp
  | cons b ts ih =>
      rw [List.foldl_cons, ih]
      simp only [List.forall_mem_cons, merge_le_iff, and_assoc]

end Merge

section Values

/-- Without typed values the type is `string`; otherwise it is the least that takes in their
types. -/
theorem ofValues_cases (values : List (Option Text)) :
    (values.filterMap ofValue? = [] ∧ ofValues values = .string) ∨
      values.filterMap ofValue? ≠ [] ∧
        ∀ c, ofValues values ≤ c ↔ ∀ t ∈ values.filterMap ofValue?, t ≤ c := by
  unfold ofValues
  cases values.filterMap ofValue? with
  | nil => exact .inl ⟨rfl, rfl⟩
  | cons t ts => exact .inr ⟨List.cons_ne_nil t ts, fun c => foldl_merge_le_iff⟩

theorem le_ofValues {values : List (Option Text)} {v : Option Text} {t : ColumnType}
    (hv : v ∈ values) (ht : ofValue? v = some t) : t ≤ ofValues values := by
  have hmem : t ∈ values.filterMap ofValue? := List.mem_filterMap.mpr ⟨v, hv, ht⟩
  obtain ⟨hnil, -⟩ | ⟨-, hleast⟩ := ofValues_cases values
  · rw [hnil] at hmem
    contradiction
  · exact (hleast _).mp le_rfl t hmem

end Values

section Rows

variable {rows : List (List (Option Text))} {row : List (Option Text)}

/-- A row has no more values than there are columns, and the type of each column takes in the type
of its value. -/
structure Covers (types : List ColumnType) (row : List (Option Text)) : Prop where
  length : row.length ≤ types.length
  value : ∀ (i : Nat) v t, row[i]? = some v → ofValue? v = some t →
    ∃ type, types[i]? = some type ∧ merge t type = type

theorem width_le_iff {n : Nat} : width rows ≤ n ↔ ∀ row ∈ rows, row.length ≤ n := by
  have hfold : ∀ start, rows.foldl (fun n row => max n row.length) start ≤ n ↔
      start ≤ n ∧ ∀ row ∈ rows, row.length ≤ n := by
    induction rows with
    | nil => simp
    | cons row rows ih =>
        intro start
        rw [List.foldl_cons, ih, List.forall_mem_cons, Nat.max_le, and_assoc]
  rw [width, hfold]
  simp

theorem length_le_width (h : row ∈ rows) : row.length ≤ width rows :=
  width_le_iff.mp (Nat.le_refl _) row h

@[simp] theorem length_ofRows (rows : List (List (Option Text))) :
    (ofRows rows).length = width rows := by
  simp [ofRows]

/-- There are types just when some row has a value. -/
theorem ofRows_ne_nil_iff : ofRows rows ≠ [] ↔ ∃ row ∈ rows, row ≠ [] := by
  rw [Ne, ← List.length_eq_zero_iff, length_ofRows, ← Nat.le_zero, width_le_iff]
  simp

theorem covers_ofRows (h : row ∈ rows) : Covers (ofRows rows) row where
  length := by
    rw [length_ofRows]
    exact length_le_width h
  value := by
    intro i v t hv ht
    have hi : i < width rows :=
      Nat.lt_of_lt_of_le (List.getElem?_eq_some_iff.mp hv).1 (length_le_width h)
    refine ⟨ofValues (rows.filterMap (·[i]?)), ?_, ?_⟩
    · simp [ofRows, hi]
    · exact le_ofValues (List.mem_filterMap.mpr ⟨row, h, hv⟩) ht

/-- The values other than null and the empty text that rows have in a column. -/
def valuesAt (rows : List (List (Option Text))) (i : Nat) : Set Text :=
  {v | v ≠ [] ∧ ∃ row ∈ rows, row[i]? = some (some v)}

theorem ofValue?_eq_some_iff {v : Option Text} {t : ColumnType} :
    ofValue? v = some t ↔ ∃ text, v = some text ∧ text ≠ [] ∧ ofText text = t := by
  match v with
  | none | some [] => simp [ofValue?]
  | some (c :: text) => simp [ofValue?]

/-- The types of the values in a column, as a list and as a set. -/
theorem mem_columnTypes_iff {i : Nat} {t : ColumnType} :
    t ∈ (rows.filterMap (·[i]?)).filterMap ofValue? ↔ t ∈ ofText '' valuesAt rows i := by
  simp only [List.mem_filterMap, ofValue?_eq_some_iff, Set.mem_image, valuesAt, Set.mem_ofPred_eq]
  constructor
  · rintro ⟨v, ⟨row, hrow, hv⟩, text, rfl, htext, rfl⟩
    exact ⟨text, ⟨htext, row, hrow, hv⟩, rfl⟩
  · rintro ⟨text, ⟨htext, row, hrow, hv⟩, rfl⟩
    exact ⟨some text, ⟨row, hrow, hv⟩, text, rfl, htext, rfl⟩

/-- There is a column wherever some row has a value or a null. -/
theorem lt_length_ofRows_iff {i : Nat} :
    i < (ofRows rows).length ↔ ∃ row ∈ rows, i < row.length := by
  rw [length_ofRows, ← Nat.not_le, width_le_iff]
  simp

/-- The type of a column is `string` where nothing constrains it, and otherwise the least upper
bound of the types of its values. -/
theorem getElem?_ofRows_cases {i : Nat} {type : ColumnType} (h : (ofRows rows)[i]? = some type) :
    (valuesAt rows i = ∅ ∧ type = .string) ∨
      (valuesAt rows i).Nonempty ∧ IsLUB (ofText '' valuesAt rows i) type := by
  obtain rfl : ofValues (rows.filterMap (·[i]?)) = type := by
    obtain ⟨hi, htype⟩ := List.getElem?_eq_some_iff.mp h
    simpa [ofRows] using htype
  obtain ⟨hnil, hstring⟩ | ⟨hne, hleast⟩ := ofValues_cases (rows.filterMap (·[i]?))
  · refine .inl ⟨?_, hstring⟩
    rw [← Set.image_eq_empty (f := ofText), Set.eq_empty_iff_forall_notMem]
    intro t ht
    rw [← mem_columnTypes_iff, hnil] at ht
    contradiction
  · refine .inr ⟨?_, ?_⟩
    · obtain ⟨t, ht⟩ := List.exists_mem_of_ne_nil _ hne
      exact Set.image_nonempty.mp ⟨t, mem_columnTypes_iff.mp ht⟩
    · rw [isLUB_iff_le_iff]
      intro c
      rw [hleast]
      simp only [mem_columnTypes_iff]
      rfl

/-- Rows give the same types in any order and however often each of them stands there. -/
theorem ofRows_congr {rows' : List (List (Option Text))} (h : ∀ row, row ∈ rows' ↔ row ∈ rows) :
    ofRows rows' = ofRows rows := by
  have hvalues : ∀ i, valuesAt rows' i = valuesAt rows i := by
    intro i
    simp only [valuesAt, h]
  have hlength : (ofRows rows').length = (ofRows rows).length := by
    refine eq_of_forall_lt_iff fun i => ?_
    simp only [lt_length_ofRows_iff, h]
  refine List.ext_getElem hlength fun i hi hi' => ?_
  have htype' := getElem?_ofRows_cases (List.getElem?_eq_getElem hi)
  rw [hvalues] at htype'
  obtain ⟨hempty, hstring⟩ | ⟨hne, hleast⟩ := getElem?_ofRows_cases (List.getElem?_eq_getElem hi')
  · obtain ⟨-, hstring'⟩ | ⟨hne', -⟩ := htype'
    · rw [hstring, hstring']
    · exact absurd hempty hne'.ne_empty
  · obtain ⟨hempty', -⟩ | ⟨-, hleast'⟩ := htype'
    · exact absurd hempty' hne.ne_empty
    · exact hleast'.unique hleast

/-- Column types are least upper bounds, in the partial order in which a type is below another when
their merge is the other. So they do not hang on the order of the rows or on rows that come
again. -/
theorem ofRows_isLUB (rows : List (List (Option Text))) :
    IsPartialOrder ColumnType (fun a b => merge a b = b) ∧
    (∀ a b : ColumnType, a ≤ b ↔ merge a b = b) ∧
    (∀ i, i < (ofRows rows).length ↔ ∃ row ∈ rows, i < row.length) ∧
    (∀ i type, (ofRows rows)[i]? = some type →
      (valuesAt rows i = ∅ → type = .string) ∧
      ((valuesAt rows i).Nonempty → IsLUB (ofText '' valuesAt rows i) type)) ∧
    ∀ rows' : List (List (Option Text)), (∀ row, row ∈ rows' ↔ row ∈ rows) →
      ofRows rows' = ofRows rows := by
  refine ⟨inferInstanceAs (IsPartialOrder ColumnType (· ≤ ·)), fun _ _ => le_iff_merge_eq,
    fun _ => lt_length_ofRows_iff, ?_, fun _ => ofRows_congr⟩
  intro i type h
  obtain ⟨hempty, hstring⟩ | ⟨hne, hleast⟩ := getElem?_ofRows_cases h
  · exact ⟨fun _ => hstring, fun hne => absurd hempty hne.ne_empty⟩
  · exact ⟨fun hempty => absurd hempty hne.ne_empty, fun _ => hleast⟩

/-- A whole number and a fraction make a column of fractions, in either order and however often. -/
theorem ofRows_isLUB_fraction :
    IsLUB (ofText '' valuesAt [[some ['1']], [some ['1', '.', '5'], none]] 0) .double ∧
      (∀ row, row ∈ [[some ['1', '.', '5'], none], [some ['1']], [some ['1', '.', '5'], none]] ↔
        row ∈ [[some ['1']], [some ['1', '.', '5'], none]]) ∧
      ofRows [[some ['1', '.', '5'], none], [some ['1']], [some ['1', '.', '5'], none]] =
        ofRows [[some ['1']], [some ['1', '.', '5'], none]] := by
  have hrows : ∀ row,
      row ∈ [[some ['1', '.', '5'], none], [some ['1']], [some ['1', '.', '5'], none]] ↔
        row ∈ [[some ['1']], [some ['1', '.', '5'], none]] := by
    intro row
    grind
  obtain ⟨-, -, -, hcolumns, hcongr⟩ :=
    ofRows_isLUB [[some ['1']], [some ['1', '.', '5'], none]]
  refine ⟨(hcolumns 0 .double (by decide)).2 ⟨['1'], List.cons_ne_nil _ _, [some ['1']], ?_⟩, hrows,
    hcongr _ hrows⟩
  exact ⟨.head _, rfl⟩

end Rows

end Delimited.ColumnType
