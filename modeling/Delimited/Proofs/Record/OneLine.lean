/- What one line by itself is read as, for marks of one code point, without trimming and without a
null string. A text is fields joined by the delimiter, or such fields before a value that is opened
and not closed, or neither (`forms_of_text`), and the scan tells the three apart (`split_line`). -/
import Delimited.Proofs.Record.RoundTrip

namespace Delimited

/-- The marks are a delimiter and a quote of one code point each, and the quote has no escape but
itself. -/
structure Dialect.IsSimple (d : Dialect) (delimiter quote : Char) : Prop where
  divider : d.delimiter = [delimiter]
  encloser : d.quote = some [quote]
  escape : d.escape = none ∨ d.escape = some [quote]
  nullString : d.nullString = none
  trim : d.trim = false
  apart : delimiter ≠ quote
  solid : Text.isSpace quote = false

/-- A text of code points other than the quote, and of quotes that stand in pairs: the one that is
read as `value`. -/
def paired (quote : Char) : (value : Text) → Text
  | [] => []
  | c :: value =>
    if c = quote then quote :: quote :: paired quote value else c :: paired quote value

/-- Spaces that do not divide. -/
def IsPadding (delimiter : Char) (spaces : Text) : Prop :=
  ∀ c ∈ spaces, Text.isSpace c = true ∧ c ≠ delimiter

/-- How a field may stand in a line: bare, or between quotes with spaces after them. -/
inductive StandsFor (delimiter quote : Char) : Field → Text → Prop
  | bare {t : Text} : t.head? ≠ some quote → delimiter ∉ t →
      StandsFor delimiter quote ⟨some t, false⟩ t
  | quoted {value spaces : Text} : IsPadding delimiter spaces →
      StandsFor delimiter quote ⟨some value, true⟩ (quote :: paired quote value ++ quote :: spaces)

/-- The text is the fields of a record, one or more, joined by the delimiter. -/
def IsJoined (delimiter quote : Char) (fields : Record) (t : Text) : Prop :=
  ∃ texts, texts ≠ [] ∧ List.Forall₂ (StandsFor delimiter quote) fields texts ∧
    t = [delimiter].intercalate texts

/-- The text is the fields of a record, each with a delimiter after it, and then a value that is
opened and not closed. -/
def IsOpen (delimiter quote : Char) (fields : Record) (t : Text) : Prop :=
  ∃ texts value, List.Forall₂ (StandsFor delimiter quote) fields texts ∧
    t = texts.flatMap (· ++ [delimiter]) ++ quote :: paired quote value

variable {d : Dialect} {delimiter quote : Char} {limit : Int} {line : Line}

theorem IsJoined.single {field : Field} {x : Text} (hx : StandsFor delimiter quote field x) :
    IsJoined delimiter quote [field] x :=
  ⟨[x], List.cons_ne_nil _ _, .cons hx .nil, List.intercalate_singleton.symm⟩

theorem IsJoined.cons {field : Field} {fields : Record} {x t : Text}
    (ht : IsJoined delimiter quote fields t) (hx : StandsFor delimiter quote field x) :
    IsJoined delimiter quote (field :: fields) (x ++ delimiter :: t) := by
  obtain ⟨texts, hne, hfields, rfl⟩ := ht
  obtain ⟨y, texts, rfl⟩ := List.exists_cons_of_ne_nil hne
  refine ⟨x :: y :: texts, List.cons_ne_nil _ _, .cons hx hfields, ?_⟩
  rw [List.intercalate_cons_cons, List.append_assoc, List.singleton_append]

theorem IsOpen.cons {field : Field} {fields : Record} {x t : Text}
    (ht : IsOpen delimiter quote fields t) (hx : StandsFor delimiter quote field x) :
    IsOpen delimiter quote (field :: fields) (x ++ delimiter :: t) := by
  obtain ⟨texts, value, hfields, rfl⟩ := ht
  refine ⟨x :: texts, value, .cons hx hfields, ?_⟩
  rw [List.flatMap_cons, List.append_assoc, List.append_assoc, List.singleton_append]

/-! ### Pairs of quotes -/

theorem length_le_length_paired (quote : Char) (value : Text) :
    value.length ≤ (paired quote value).length := by
  induction value with
  | nil => exact Nat.le_refl _
  | cons c value ih =>
      rw [paired]
      split <;> simp only [List.length_cons] <;> omega

/-- A value is no longer than the text it is quoted in. -/
theorem length_value_le {value rest : Text}
    (hsize : ((quote :: (paired quote value ++ rest)).length : Int) ≤ limit) :
    (value.length : Int) ≤ limit := by
  have hpaired := length_le_length_paired quote value
  simp only [List.length_cons, List.length_append] at hsize
  omega

theorem paired_cons_quote (quote : Char) (value : Text) :
    paired quote (quote :: value) = quote :: quote :: paired quote value := by
  rw [paired, if_pos rfl]

theorem paired_cons_other {c : Char} (hc : c ≠ quote) (value : Text) :
    paired quote (c :: value) = c :: paired quote value := by
  rw [paired, if_neg hc]

/-- A text is paired to its end, or up to a quote that is not followed by another. -/
theorem exists_paired (quote : Char) : ∀ t : Text, ∃ value, t = paired quote value ∨
    ∃ rest, t = paired quote value ++ quote :: rest ∧ rest.head? ≠ some quote
  | [] => ⟨[], .inl rfl⟩
  | [c] => by
      by_cases hc : c = quote
      · exact ⟨[], .inr ⟨[], by rw [hc]; rfl, by simp⟩⟩
      · exact ⟨[c], .inl (paired_cons_other hc []).symm⟩
  | c :: c' :: t => by
      by_cases hc : c = quote
      · subst hc
        by_cases hc' : c' = c
        · subst hc'
          obtain ⟨value, rfl | ⟨rest, rfl, hrest⟩⟩ := exists_paired c' t
          · exact ⟨c' :: value, .inl (paired_cons_quote c' value).symm⟩
          · exact ⟨c' :: value, .inr ⟨rest, by rw [paired_cons_quote]; rfl, hrest⟩⟩
        · exact ⟨[], .inr ⟨c' :: t, rfl, by simpa using hc'⟩⟩
      · obtain ⟨value, heq | ⟨rest, heq, hrest⟩⟩ := exists_paired quote (c' :: t)
        · exact ⟨c :: value, .inl (by rw [heq, paired_cons_other hc])⟩
        · exact ⟨c :: value, .inr ⟨rest, by rw [heq, paired_cons_other hc]; rfl, hrest⟩⟩

/-- A paired text is read through, up to what stands after it. -/
theorem cutQuoted_paired {escape : Option Char} (he : escape = none ∨ escape = some quote)
    {value : Text} (size : Nat) (hsize : ((size + value.length : Nat) : Int) ≤ limit)
    (rest : Text) :
    cutQuoted quote escape limit size (paired quote value ++ rest) =
      (value ++ (cutQuoted quote escape limit (size + value.length) rest).1,
        (cutQuoted quote escape limit (size + value.length) rest).2) := by
  induction value generalizing size with
  | nil => rfl
  | cons c value ih =>
      rw [List.length_cons] at hsize ⊢
      have hlater : ((size + 1 + value.length : Nat) : Int) ≤ limit := by omega
      have hstep : (size : Int) + 1 ≤ limit := by omega
      have hcount : size + (value.length + 1) = size + 1 + value.length := by omega
      by_cases hc : c = quote
      · subst hc
        rw [paired_cons_quote, List.cons_append, List.cons_append, cutQuoted_doubled,
          ih (size + 1) hlater, hcount]
        rfl
      · have hescape : escape ≠ some c := by
          rcases he with rfl | rfl
          · nofun
          · exact fun h => hc (Option.some.inj h).symm
        rw [paired_cons_other hc, List.cons_append, cutQuoted_plain hc hescape hstep,
          ih (size + 1) hlater, hcount]
        rfl

/-! ### What may stand after a closing quote -/

theorem after?_singleton (c : Char) (t : Text) :
    Text.after? [delimiter] (c :: t) = if c = delimiter then some t else none := by
  by_cases hc : c = delimiter
  · simp [Text.after?, hc]
  · simp [Text.after?, hc, Ne.symm hc]

theorem closing_padding {spaces : Text} (hspaces : IsPadding delimiter spaces)
    (rest : Option Text) :
    closing [delimiter] (spaces ++ afterField [delimiter] rest) = .ended rest := by
  induction spaces with
  | nil =>
      cases rest with
      | none => rfl
      | some w => simp [afterField, closing, after?_singleton]
  | cons c spaces ih =>
      obtain ⟨hspace, hother⟩ := hspaces c List.mem_cons_self
      rw [List.cons_append, closing, after?_singleton, if_neg hother]
      simp only [hspace, if_true]
      exact ih fun c hc => hspaces c (List.mem_cons_of_mem _ hc)

/-- After a closing quote stands padding up to a delimiter or the end, or something is stray. -/
theorem closing_cases (delimiter : Char) (t : Text) :
    (∃ spaces rest, IsPadding delimiter spaces ∧ t = spaces ++ afterField [delimiter] rest) ∨
      ∃ found rest, closing [delimiter] t = .stray found rest := by
  induction t with
  | nil => exact .inl ⟨[], none, by simp [IsPadding], rfl⟩
  | cons c t ih =>
      by_cases hdelimiter : c = delimiter
      · subst hdelimiter
        exact .inl ⟨[], some t, by simp [IsPadding], rfl⟩
      · cases hspace : Text.isSpace c with
        | true =>
            rcases ih with ⟨spaces, rest, hspaces, rfl⟩ | ⟨found, rest, hstray⟩
            · refine .inl ⟨c :: spaces, rest, ?_, rfl⟩
              exact List.forall_mem_cons.mpr ⟨⟨hspace, hdelimiter⟩, hspaces⟩
            · refine .inr ⟨found, rest, ?_⟩
              rw [closing, after?_singleton, if_neg hdelimiter]
              simp only [hspace, if_true, hstray]
        | false =>
            refine .inr ⟨c, t, ?_⟩
            rw [closing, after?_singleton, if_neg hdelimiter]
            simp only [hspace, Bool.false_eq_true, if_false]

/-- A text up to its first delimiter. -/
theorem exists_afterField (delimiter : Char) (t : Text) :
    ∃ x rest, delimiter ∉ x ∧ t = x ++ afterField [delimiter] rest := by
  induction t with
  | nil => exact ⟨[], none, by simp, rfl⟩
  | cons c t ih =>
      by_cases hdelimiter : c = delimiter
      · subst hdelimiter
        exact ⟨[], some t, by simp, rfl⟩
      · obtain ⟨x, rest, hx, rfl⟩ := ih
        exact ⟨c :: x, rest, by simp [hx, Ne.symm hdelimiter], rfl⟩

/-! ### One column -/

namespace Dialect.IsSimple

variable (h : d.IsSimple delimiter quote)
include h

theorem delimiter_ne_nil : d.delimiter ≠ [] := by
  rw [h.divider]
  exact List.cons_ne_nil _ _

theorem head?_delimiter : d.delimiter.head? ≠ some quote := by
  simpa [h.divider] using h.apart

theorem quoteMark_eq : d.quoteMark = some quote := by
  rw [quoteMark, h.encloser]
  rfl

theorem escapeMark_eq : d.escapeMark = none ∨ d.escapeMark = some quote := by
  rcases h.escape with he | he
  · exact .inl (by rw [escapeMark, he]; rfl)
  · exact .inr (by rw [escapeMark, he]; rfl)

theorem read_eq (value : Text) (quoted : Bool) :
    Field.read d value quoted = ⟨some value, quoted⟩ := by
  simp [Field.read, h.nullString]

theorem opening_quoted (t : Text) : opening d d.trim (quote :: t) = .quoted quote t :=
  opening_quote h.head?_delimiter h.delimiter_ne_nil h.quoteMark_eq h.solid t

theorem opening_bare {t : Text} (ht : t.head? ≠ some quote) : opening d d.trim t = .bare t := by
  cases t with
  | nil => rfl
  | cons c t =>
      have hmark : d.quoteMark ≠ some c := fun hmark =>
        ht (hmark.symm.trans h.quoteMark_eq)
      simp [opening, h.trim, hmark]

theorem undivided {t : Text} (ht : delimiter ∉ t) :
    ∀ k < t.length, ¬ d.delimiter <+: (t ++ d.delimiter).drop k := by
  intro k hk hprefix
  rw [h.divider, List.drop_append_of_le_length (Nat.le_of_lt hk),
    List.drop_eq_getElem_cons hk] at hprefix
  have hat : delimiter = t[k] := (List.cons_prefix_cons.mp hprefix).1
  exact ht (hat ▸ List.getElem_mem hk)

theorem head?_afterPadding {spaces : Text} (hspaces : IsPadding delimiter spaces)
    (rest : Option Text) : (spaces ++ afterField d.delimiter rest).head? ≠ some quote := by
  cases spaces with
  | nil => exact head?_afterField h.head?_delimiter h.delimiter_ne_nil rest
  | cons c spaces =>
      intro hc
      obtain rfl : c = quote := Option.some.inj hc
      have hspace := (hspaces c List.mem_cons_self).1
      rw [h.solid] at hspace
      contradiction

/-- What follows a closing quote decides about the value. -/
theorem scanColumn_closed {value t : Text} (hsize : (value.length : Int) ≤ limit)
    (ht : t.head? ≠ some quote) (line : Line) (pending : List Line) :
    scanColumn d limit ⟨line, quote :: paired quote value ++ quote :: t, pending⟩ =
      match closing d.delimiter t with
      | .ended rest => .ofRest value true [] line pending rest
      | .stray found rest => .malformed (.strayCharacter found quote) [] ⟨line, rest, pending⟩ := by
  have hcut := cutQuoted_paired h.escapeMark_eq 0 (by simpa using hsize) (quote :: t)
  rw [cutQuoted_closed ht, List.append_nil] at hcut
  rw [List.cons_append, scanColumn_quoted h.delimiter_ne_nil (h.opening_quoted _),
    scanQuoted.eq_def]
  simp only [List.length_nil, hcut]
  cases closing d.delimiter t with
  | ended rest => rw [List.nil_append]
  | stray found rest => rfl

theorem scanColumn_open {value : Text} (hsize : (value.length : Int) ≤ limit) :
    scanColumn d limit ⟨line, quote :: paired quote value, []⟩ = .unclosed [line] line.number := by
  have hcut := cutQuoted_paired h.escapeMark_eq 0 (by simpa using hsize) []
  rw [List.append_nil] at hcut
  rw [scanColumn_quoted h.delimiter_ne_nil (h.opening_quoted _), scanQuoted.eq_def]
  simp only [List.length_nil, hcut, cutQuoted, List.nil_append]

/-- A field that stands by itself or before a delimiter is read as that field. -/
theorem scanColumn_standsFor {field : Field} {t : Text} (ht : StandsFor delimiter quote field t)
    (hsize : (t.length : Int) ≤ limit) (rest : Option Text) (line : Line) (pending : List Line) :
    ∃ value quoted, field = .read d value quoted ∧
      scanColumn d limit ⟨line, t ++ afterField d.delimiter rest, pending⟩ =
        .ofRest value quoted [] line pending rest := by
  cases ht with
  | bare hhead hdelimiter =>
      refine ⟨t, false, (h.read_eq t false).symm, ?_⟩
      have hwhole : (t ++ afterField d.delimiter rest).head? ≠ some quote := by
        cases t with
        | nil => exact head?_afterField h.head?_delimiter h.delimiter_ne_nil rest
        | cons c t => exact hhead
      rw [scanColumn_bare h.delimiter_ne_nil (h.opening_bare hwhole),
        cutBare_afterField h.delimiter_ne_nil (h.undivided hdelimiter), h.trim]
      rfl
  | @quoted value spaces hspaces =>
      refine ⟨value, true, (h.read_eq value true).symm, ?_⟩
      have hvalue : (value.length : Int) ≤ limit := length_value_le hsize
      have hclosed := h.scanColumn_closed hvalue (h.head?_afterPadding hspaces rest) line pending
      simp only [h.divider, closing_padding hspaces] at hclosed
      rwa [List.append_assoc, List.cons_append, h.divider]

/-- A text is a field up to a delimiter or its end, a value that is not closed, or malformed. -/
theorem column_cases {t : Text} (hsize : (t.length : Int) ≤ limit) (line : Line) :
    (∃ field x rest, StandsFor delimiter quote field x ∧ t = x ++ afterField d.delimiter rest) ∨
      (∃ value, t = quote :: paired quote value) ∨
      ∃ fault stop, scanColumn d limit ⟨line, t, []⟩ = .malformed fault [] stop := by
  by_cases hhead : t.head? = some quote
  · obtain ⟨t, rfl⟩ : ∃ t', t = quote :: t' := List.head?_eq_some_iff.mp hhead
    obtain ⟨value, rfl | ⟨t, rfl, ht⟩⟩ := exists_paired quote t
    · exact .inr (.inl ⟨value, rfl⟩)
    · rcases closing_cases delimiter t with ⟨spaces, rest, hspaces, rfl⟩ | ⟨found, rest, hstray⟩
      · refine .inl ⟨⟨some value, true⟩, quote :: paired quote value ++ quote :: spaces, rest,
          .quoted hspaces, ?_⟩
        rw [h.divider, List.append_assoc]
        rfl
      · have hclosed := h.scanColumn_closed (length_value_le hsize) ht line []
        simp only [h.divider, hstray] at hclosed
        exact .inr (.inr ⟨_, _, hclosed⟩)
  · obtain ⟨x, rest, hx, rfl⟩ := exists_afterField delimiter t
    refine .inl ⟨_, x, rest, .bare ?_ hx, by rw [h.divider]⟩
    cases x with
    | nil => simp
    | cons c x => exact hhead

/-! ### One record -/

theorem scanRecord_last_field {field : Field} {t : Text} (ht : StandsFor delimiter quote field t)
    (hsize : (t.length : Int) ≤ limit) :
    scanRecord d limit ⟨line, t, []⟩ = .record [field] [] := by
  obtain ⟨value, quoted, rfl, hscan⟩ := h.scanColumn_standsFor ht hsize none line []
  rw [afterField, List.append_nil] at hscan
  exact scanRecord_last hscan

theorem scanRecord_field {field : Field} {t : Text} (ht : StandsFor delimiter quote field t)
    (hsize : (t.length : Int) ≤ limit) (rest : Text) :
    scanRecord d limit ⟨line, t ++ delimiter :: rest, []⟩ =
      (scanRecord d limit ⟨line, rest, []⟩).cons field := by
  obtain ⟨value, quoted, rfl, hscan⟩ :=
    h.scanColumn_standsFor ht hsize (some rest) line []
  rw [afterField, h.divider] at hscan
  exact scanRecord_more hscan

/-- Fields joined by the delimiter are read as these fields. -/
theorem scanRecord_joined {fields : Record} {t : Text} (ht : IsJoined delimiter quote fields t)
    (hsize : (t.length : Int) ≤ limit) :
    scanRecord d limit ⟨line, t, []⟩ = .record fields [] := by
  obtain ⟨texts, hne, hfields, rfl⟩ := ht
  induction hfields with
  | nil => contradiction
  | @cons field x fields texts hx hfields ih =>
      cases texts with
      | nil =>
          obtain rfl := List.forall₂_nil_right_iff.mp hfields
          rw [List.intercalate_singleton] at hsize ⊢
          exact h.scanRecord_last_field hx hsize
      | cons y texts =>
          rw [List.intercalate_cons_cons, List.append_assoc, List.singleton_append] at hsize ⊢
          simp only [List.length_append, List.length_cons] at hsize
          rw [h.scanRecord_field hx (by omega), ih (List.cons_ne_nil _ _) (by omega)]
          rfl

/-- Of fields before a value that is not closed, the fields are read. -/
theorem scanRecord_open {fields : Record} {t : Text} (ht : IsOpen delimiter quote fields t)
    (hsize : (t.length : Int) ≤ limit) :
    scanRecord d limit ⟨line, t, []⟩ = .unclosed fields := by
  obtain ⟨texts, value, hfields, rfl⟩ := ht
  induction hfields with
  | nil =>
      rw [List.flatMap_nil, List.nil_append] at hsize ⊢
      rw [← List.append_nil (paired quote value)] at hsize
      exact scanRecord_unclosed (h.scanColumn_open (length_value_le hsize))
  | @cons field x fields texts hx hfields ih =>
      rw [List.flatMap_cons, List.append_assoc, List.append_assoc, List.singleton_append] at hsize ⊢
      simp only [List.length_append, List.length_cons] at hsize ih
      rw [h.scanRecord_field hx (by omega), ih (by omega)]
      rfl

/-- A text of neither form is dropped whole. -/
theorem forms_of_text (t : Text) (hsize : (t.length : Int) ≤ limit) :
    (∃ fields, IsJoined delimiter quote fields t) ∨ (∃ fields, IsOpen delimiter quote fields t) ∨
      ∃ w : Warning, w.dropped = line ∧ scanRecord d limit ⟨line, t, []⟩ = .malformed w [] := by
  rcases h.column_cases hsize line with
    ⟨field, x, _ | rest, hx, heq⟩ | ⟨value, rfl⟩ | ⟨fault, stop, hscan⟩
  · rw [afterField, List.append_nil] at heq
    exact .inl ⟨[field], heq ▸ .single hx⟩
  · rw [afterField, h.divider, List.singleton_append] at heq
    have hlength : t.length = x.length + (rest.length + 1) := by rw [heq, List.length_append]; rfl
    rcases forms_of_text rest (by omega) with ⟨fields, ht⟩ | ⟨fields, ht⟩ | ⟨w, hw, hscan⟩
    · exact .inl ⟨field :: fields, heq ▸ ht.cons hx⟩
    · exact .inr (.inl ⟨field :: fields, heq ▸ ht.cons hx⟩)
    · refine .inr (.inr ⟨w, hw, ?_⟩)
      rw [heq, h.scanRecord_field hx (by omega), hscan]
      rfl
  · exact .inr (.inl ⟨[], [], value, .nil, rfl⟩)
  · exact .inr (.inr ⟨_, rfl, scanRecord_malformed hscan⟩)
termination_by t.length
decreasing_by omega

/-! ### One line -/

theorem split_joined {fields : Record} (ht : IsJoined delimiter quote fields line.text)
    (hsize : (line.text.length : Int) ≤ limit) :
    split d false limit [line] = some { records := [fields] } := by
  rw [split_record rfl (h.scanRecord_joined ht hsize), split_nil]
  rfl

theorem split_open {fields : Record} (ht : IsOpen delimiter quote fields line.text)
    (hsize : (line.text.length : Int) ≤ limit) :
    split d false limit [line] = some { records := [fields], openEnd := true } :=
  split_unclosed rfl (h.scanRecord_open ht hsize)

theorem forms_of_line (hsize : (line.text.length : Int) ≤ limit) :
    (∃ fields, IsJoined delimiter quote fields line.text) ∨
      (∃ fields, IsOpen delimiter quote fields line.text) ∨
      ∃ w : Warning, w.dropped = line ∧ split d false limit [line] = some { warnings := [w] } := by
  rcases h.forms_of_text line.text hsize with ht | ht | ⟨w, hw, hscan⟩
  · exact .inl ht
  · exact .inr (.inl ht)
  · refine .inr (.inr ⟨w, hw, ?_⟩)
    rw [split_malformed rfl hscan, split_nil]
    rfl

end Dialect.IsSimple

/-- One line by itself. It gives a record, and no warning, just where it is fields joined by the
delimiter, which are the record, and just where it is such fields before a value that is not
closed; the lines then run out inside quotes. Else it is dropped, with the only warning. The records
and the warnings alone tell the last case from the first two, and not these from each other. -/
theorem split_line (h : d.IsSimple delimiter quote) (hsize : (line.text.length : Int) ≤ limit) :
    (∀ fields, split d false limit [line] = some { records := [fields] } ↔
      IsJoined delimiter quote fields line.text) ∧
    (∀ fields, split d false limit [line] = some { records := [fields], openEnd := true } ↔
      IsOpen delimiter quote fields line.text) ∧
    ((∃ w : Warning, w.dropped = line ∧ split d false limit [line] = some { warnings := [w] }) ↔
      ∀ fields, ¬ IsJoined delimiter quote fields line.text ∧
        ¬ IsOpen delimiter quote fields line.text) ∧
    ∃ whole, split d false limit [line] = some whole ∧
      (∀ fields, whole.records = [fields] ∧ whole.warnings = [] ↔
        IsJoined delimiter quote fields line.text ∨ IsOpen delimiter quote fields line.text) ∧
      ((whole.records = [] ∧ ∃ w : Warning, w.dropped = line ∧ whole.warnings = [w]) ↔
        ∀ fields, ¬ IsJoined delimiter quote fields line.text ∧
          ¬ IsOpen delimiter quote fields line.text) := by
  rcases h.forms_of_line hsize with ⟨found, ht⟩ | ⟨found, ht⟩ | ⟨w, hw, hsplit⟩
  · have hsplit := h.split_joined ht hsize
    have hjoined : ∀ fields, IsJoined delimiter quote fields line.text ↔ found = fields := by
      refine fun fields => ⟨fun ht' => ?_, fun heq => heq ▸ ht⟩
      simpa using hsplit.symm.trans (h.split_joined ht' hsize)
    have hopen : ∀ fields, ¬ IsOpen delimiter quote fields line.text := by
      intro fields ht'
      simpa using hsplit.symm.trans (h.split_open ht' hsize)
    simp [hsplit, hjoined, hopen]
  · have hsplit := h.split_open ht hsize
    have hjoined : ∀ fields, ¬ IsJoined delimiter quote fields line.text := by
      intro fields ht'
      simpa using hsplit.symm.trans (h.split_joined ht' hsize)
    have hopen : ∀ fields, IsOpen delimiter quote fields line.text ↔ found = fields := by
      refine fun fields => ⟨fun ht' => ?_, fun heq => heq ▸ ht⟩
      simpa using hsplit.symm.trans (h.split_open ht' hsize)
    simp [hsplit, hjoined, hopen]
  · have hjoined : ∀ fields, ¬ IsJoined delimiter quote fields line.text := by
      intro fields ht
      simpa using hsplit.symm.trans (h.split_joined ht hsize)
    have hopen : ∀ fields, ¬ IsOpen delimiter quote fields line.text := by
      intro fields ht
      simpa using hsplit.symm.trans (h.split_open ht hsize)
    simp [hsplit, hjoined, hopen, hw]

/-- A pair of quotes at the end of an enclosed value, a space after it, and an empty last field. -/
theorem split_line_of_paired_value :
    (⟨[','], some ['"'], some ['"'], none, false⟩ : Dialect).IsSimple ',' '"' ∧
      split ⟨[','], some ['"'], some ['"'], none, false⟩ false 7
          [⟨1, ['"', 'a', '"', '"', '"', ' ', ',']⟩] =
        some { records := [[⟨some ['a', '"'], true⟩, ⟨some [], false⟩]] } := by
  have hsimple : (⟨[','], some ['"'], some ['"'], none, false⟩ : Dialect).IsSimple ',' '"' :=
    ⟨rfl, rfl, .inr rfl, rfl, rfl, by decide, by decide⟩
  have hempty : StandsFor ',' '"' ⟨some [], false⟩ [] := .bare (by decide) (by decide)
  have hvalue : StandsFor ',' '"' ⟨some ['a', '"'], true⟩
      ('"' :: paired '"' ['a', '"'] ++ '"' :: [' ']) :=
    .quoted (by simp [IsPadding, Text.isSpace])
  exact ⟨hsimple, ((split_line hsimple (by decide)).1 _).mpr ((IsJoined.single hempty).cons hvalue)⟩

end Delimited
