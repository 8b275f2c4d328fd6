/- Reading undoes writing: the records that written lines are divided into are the ones that were
written (`split_written`). A scan is followed field by field; inside quotes, along the lines that
the field fills. -/
import Delimited.Proofs.Record.Division
import Delimited.Proofs.Record.Scanning
import Delimited.Proofs.Record.Writing

namespace Delimited

variable {d : Dialect} {quote : Char} {limit : Int}

/-! ### A field and what stands after it -/

/-- What stands after a field in its line: nothing, or a delimiter and this rest. -/
def afterField (delimiter : Text) : Option Text → Text
  | none => []
  | some rest => delimiter ++ rest

theorem startsWith_delimiter (d : Dialect) (rest : Text) :
    Text.startsWith d.delimiter (d.delimiter ++ rest) = true :=
  Text.startsWith_iff.mpr (List.prefix_append _ _)

/-- No delimiter is met too early, whatever stands after the field. -/
theorem after?_afterField {t : Text} (h : ¬ d.delimiter <+: t ++ d.delimiter)
    (rest : Option Text) : Text.after? d.delimiter (t ++ afterField d.delimiter rest) = none := by
  by_contra hsome
  obtain ⟨r, hr⟩ := Option.ne_none_iff_exists'.mp hsome
  have hpre : d.delimiter <+: t ++ afterField d.delimiter rest :=
    ⟨r, (Text.after?_eq_some_iff.mp hr).symm⟩
  apply h
  cases rest with
  | none => exact (by simpa [afterField] using hpre : d.delimiter <+: t).trans (List.prefix_append _ _)
  | some w =>
      refine List.prefix_of_prefix_length_le hpre ?_ (by simp)
      rw [afterField, ← List.append_assoc]
      exact List.prefix_append _ _

theorem cutBare_afterField (hd : d.delimiter ≠ []) {t : Text}
    (h : ∀ k < t.length, ¬ d.delimiter <+: (t ++ d.delimiter).drop k) (rest : Option Text) :
    cutBare d.delimiter (t ++ afterField d.delimiter rest) = (t, rest) := by
  induction t with
  | nil =>
      cases rest with
      | none => rfl
      | some w =>
          have hw := Text.after?_append d.delimiter w
          obtain ⟨a, p, hp⟩ := List.exists_cons_of_ne_nil hd
          simp only [List.nil_append, afterField]
          rw [hp, List.cons_append] at hw ⊢
          rw [cutBare, hw]
  | cons c t ih =>
      have hnone := after?_afterField (t := c :: t) (h 0 (by simp)) rest
      have htail := ih fun k hk => by
        simpa using h (k + 1) (by simpa using hk)
      rw [List.cons_append] at hnone ⊢
      rw [cutBare, hnone, htail]

theorem opening_isBare {t : Text} (h : IsBare d t) (rest : Option Text) :
    opening d d.trim (t ++ afterField d.delimiter rest) =
      .bare (t ++ afterField d.delimiter rest) := by
  cases t with
  | nil =>
      cases rest with
      | none => rfl
      | some w =>
          have hw := startsWith_delimiter d w
          simp only [List.nil_append, afterField]
          cases hs : d.delimiter ++ w with
          | nil => rfl
          | cons c t =>
              rw [hs] at hw
              simp [opening, hw]
  | cons c t =>
      have hnone := after?_afterField (t := c :: t) (h.undivided 0 (by simp)) rest
      have hquote : d.quoteMark ≠ some c := h.unquoted c rfl
      have hspace : (d.trim && Text.isSpace c) = false := by
        cases htrim : d.trim with
        | false => rfl
        | true => exact h.untrimmed htrim c (.inl rfl)
      rw [List.cons_append] at hnone ⊢
      simp [opening, Text.startsWith, hnone, hspace, hquote]

theorem Text.trimRight_eq_self {t : Text} (h : ∀ c ∈ t.getLast?, isSpace c = false) :
    trimRight t = t := by
  induction t with
  | nil => rfl
  | cons c t ih =>
      cases t with
      | nil => simp [trimRight, h c rfl]
      | cons c' t =>
          have htail := ih fun x hx => h x (by simpa using hx)
          rw [trimRight, htail]

theorem closing_afterField (hd : d.delimiter ≠ []) (rest : Option Text) :
    closing d.delimiter (afterField d.delimiter rest) = .ended rest := by
  cases rest with
  | none => rfl
  | some w =>
      have hw := Text.after?_append d.delimiter w
      obtain ⟨a, p, hp⟩ := List.exists_cons_of_ne_nil hd
      rw [afterField]
      rw [hp, List.cons_append] at hw ⊢
      rw [closing, hw]

theorem head?_afterField (hf : d.delimiter.head? ≠ some quote) (hd : d.delimiter ≠ [])
    (rest : Option Text) : (afterField d.delimiter rest).head? ≠ some quote := by
  cases rest with
  | none => simp [afterField]
  | some w =>
      obtain ⟨a, p, hp⟩ := List.exists_cons_of_ne_nil hd
      simpa [afterField, hp] using hf

/-! ### The inside of an enclosed field -/

theorem cutQuoted_spelling {escape : Option Char} {c : Char} {read : Text}
    (h : Spelling quote escape c read) (size : Nat) (hs : (size : Int) + 1 ≤ limit) (t : Text) :
    cutQuoted quote escape limit size (read ++ t) =
      (c :: (cutQuoted quote escape limit (size + 1) t).1,
        (cutQuoted quote escape limit (size + 1) t).2) := by
  cases h with
  | plain hquote hescape _ => exact cutQuoted_plain hquote hescape hs t
  | doubled => exact cutQuoted_doubled t
  | escaped he hc => exact cutQuoted_escaped he hc t

/-- The scan goes along the lines that the inside fills, and the value grows by the field. -/
theorem scanQuoted_inside {t : Text} {ws : List Text} (h : Inside quote d.escapeMark t ws)
    {a : Text} {as others : List Text} {rest : Option Text} (ha : a.head? ≠ some quote)
    (hclose : closing d.delimiter a = .ended rest) (value : Text) (earlier : List Line)
    (line : Line) (first : Text) (further : List Text) (pending : List Line)
    (hlines : abut ws ((quote :: a) :: as) = first :: further)
    (hpending : pending.map Line.text = further ++ others)
    (hsize : ((value.length + t.length : Nat) : Int) ≤ limit) :
    ∃ earlier' line' pending', pending'.map Line.text = as ++ others ∧
      scanQuoted d quote limit value earlier line first pending =
        .ofRest (value ++ t) true earlier' line' pending' rest := by
  induction h generalizing value earlier line first further pending with
  | done =>
      obtain ⟨rfl, rfl⟩ : quote :: a = first ∧ as = further := by simpa using hlines
      refine ⟨earlier, line, pending, hpending, ?_⟩
      rw [scanQuoted_close ha hclose, List.append_nil]
  | @spelled c read t w ws hread _ ih =>
      obtain ⟨u, rfl, hu⟩ := abut_read hlines
      have hsize' : (((value ++ [c]).length + t.length : Nat) : Int) ≤ limit := by
        simp only [List.length_append, List.length_cons, List.length_nil] at hsize ⊢
        omega
      have hstep : (value.length : Int) + 1 ≤ limit := by
        simp only [List.length_append, List.length_cons, List.length_nil] at hsize'
        omega
      have hcut := cutQuoted_spelling hread value.length hstep u
      obtain ⟨earlier', line', pending', hp, hscan⟩ :=
        ih (value ++ [c]) earlier line u further pending hu hpending hsize'
      refine ⟨earlier', line', pending', hp, ?_⟩
      rw [scanQuoted_read _ hcut, hscan, List.append_assoc, List.singleton_append]
  | @lineFeed t ws hws ih =>
      rw [abut_cons hws.ne_nil] at hlines
      obtain ⟨rfl, rfl⟩ : [] = first ∧ abut ws ((quote :: a) :: as) = further := by
        simpa using hlines
      obtain ⟨u, us, hu⟩ := List.exists_cons_of_ne_nil
        (abut_ne_nil hws.ne_nil ((quote :: a) :: as))
      cases pending with
      | nil => simp [hu] at hpending
      | cons next pending =>
          obtain ⟨rfl, hnext⟩ : next.text = u ∧ pending.map Line.text = us ++ others := by
            simpa [hu] using hpending
          obtain ⟨earlier', line', pending', hp, hscan⟩ :=
            ih (value ++ ['\n']) (earlier ++ [line]) next next.text us pending hu hnext
              (by simp at hsize ⊢; omega)
          refine ⟨earlier', line', pending', hp, ?_⟩
          rw [scanQuoted_lineEnd, hscan, List.append_assoc, List.singleton_append]

/-! ### Fields, records, and the lines of a file -/

theorem opening_quote (hf : d.delimiter.head? ≠ some quote) (hd : d.delimiter ≠ [])
    (hquote : d.quoteMark = some quote) (hspace : Text.isSpace quote = false) (t : Text) :
    opening d d.trim (quote :: t) = .quoted quote t := by
  have hstart : Text.startsWith d.delimiter (quote :: t) = false := by
    obtain ⟨a, p, hp⟩ := List.exists_cons_of_ne_nil hd
    have ha : a ≠ quote := by simpa [hp] using hf
    simp [Text.startsWith, hp, Text.after?, ha]
  simp [opening, hstart, hspace, hquote]

/-- The scan of a written field gives the field, and stops at what stands after it. -/
theorem scanColumn_written (hd : d.delimiter ≠ []) (hquote : d.quoteMark = some quote)
    (hspace : Text.isSpace quote = false) (hf : d.delimiter.head? ≠ some quote)
    {e : Entry} {ws : List Text} (h : e.Written d ws)
    (hsize : e.enclosed = true → (e.text.length : Int) ≤ limit)
    (rest : Option Text) {as others : List Text} {line : Line} {first : Text}
    {further : List Text} {pending : List Line}
    (hlines : abut ws (afterField d.delimiter rest :: as) = first :: further)
    (hpending : pending.map Line.text = further ++ others) :
    ∃ earlier line' pending', pending'.map Line.text = as ++ others ∧
      scanColumn d limit ⟨line, first, pending⟩ =
        .ofRest e.text e.enclosed earlier line' pending' rest := by
  cases h with
  | @bare t hbare =>
      obtain ⟨rfl, rfl⟩ : t ++ afterField d.delimiter rest = first ∧ as = further := by
        simpa using hlines
      have htrim : (if d.trim then Text.trimRight t else t) = t := by
        split
        · next htrim => exact Text.trimRight_eq_self fun c hc => hbare.untrimmed htrim c (.inr hc)
        · rfl
      refine ⟨[], line, pending, hpending, ?_⟩
      rw [scanColumn_bare hd (opening_isBare hbare rest), cutBare_afterField hd hbare.undivided,
        htrim]
  | @enclosed q t ws hq hinside =>
      obtain rfl : q = quote := Option.some.inj (hq.symm.trans hquote)
      rw [abut_assoc _ (abut_ne_nil hinside.ne_nil _), abut_assoc _ (by simp), abut_singleton,
        List.singleton_append] at hlines
      obtain ⟨u, us, hu⟩ := List.exists_cons_of_ne_nil
        (abut_ne_nil hinside.ne_nil ((q :: afterField d.delimiter rest) :: as))
      obtain ⟨rfl, rfl⟩ : q :: u = first ∧ us = further := by
        simpa [hu] using hlines
      obtain ⟨earlier, line', pending', hp, hscan⟩ := scanQuoted_inside hinside
        (head?_afterField hf hd rest) (closing_afterField hd rest) [] [] line u us pending hu
        hpending (by simpa using hsize rfl)
      refine ⟨earlier, line', pending', hp, ?_⟩
      rw [scanColumn_quoted hd (opening_quote hf hd hquote hspace u), hscan, List.nil_append]

/-- The scan of a written record gives its fields and leaves the lines after it. -/
theorem scanRecord_written (hd : d.delimiter ≠ []) (hquote : d.quoteMark = some quote)
    (hspace : Text.isSpace quote = false) (hf : d.delimiter.head? ≠ some quote)
    {entries : List Entry} {fields : List (List Text)}
    (h : List.Forall₂ (Entry.Written d) entries fields) (hne : entries ≠ [])
    (hsize : ∀ e ∈ entries, e.enclosed = true → (e.text.length : Int) ≤ limit)
    (line : Line) {first : Text} {further others : List Text} {pending : List Line}
    (hlines : joined d.delimiter fields = first :: further)
    (hpending : pending.map Line.text = further ++ others) :
    ∃ pending', pending'.map Line.text = others ∧
      scanRecord d limit ⟨line, first, pending⟩ =
        .record (entries.map (Entry.field d.nullString)) pending' := by
  induction h generalizing line first further pending with
  | nil => contradiction
  | @cons e ws entries fields hw hws ih =>
      have he := hsize e List.mem_cons_self
      cases hws with
      | nil =>
          have hlines' : abut ws (afterField d.delimiter none :: []) = first :: further := by
            rw [afterField, abut_empty hw.ne_nil]
            exact hlines
          obtain ⟨earlier, line', pending', hp, hscan⟩ := scanColumn_written hd hquote hspace hf
            hw he none hlines' hpending
          refine ⟨pending', by simpa using hp, ?_⟩
          rw [scanRecord_last hscan, List.map_singleton, Entry.field_eq_read]
      | cons hw' hws =>
          obtain ⟨w, more, hmore, hjoined⟩ := joined_cons (.cons hw' hws) (by simp) ws
          obtain ⟨earlier, line', pending', hp, hscan⟩ := scanColumn_written hd hquote hspace hf
            hw he (some w) (hjoined.symm.trans hlines) hpending
          obtain ⟨pending'', hp', hrecord⟩ := ih (by simp)
            (fun e he => hsize e (List.mem_cons_of_mem _ he)) line' hmore hp
          refine ⟨pending'', hp', ?_⟩
          rw [scanRecord_more hscan, hrecord, RecordScan.cons, ← Entry.field_eq_read]
          rfl

/-- Only a record of one empty bare field is written as an empty line. -/
theorem entries_of_joined_isEmpty (hd : d.delimiter ≠ []) {entries : List Entry}
    {fields : List (List Text)} {further : List Text}
    (h : List.Forall₂ (Entry.Written d) entries fields)
    (hlines : joined d.delimiter fields = [] :: further) : entries = [⟨[], false⟩] := by
  cases h with
  | nil => simp [joined] at hlines
  | @cons e ws entries fields hw hws =>
      cases hws with
      | nil =>
          cases hw with
          | bare =>
              obtain ⟨rfl, -⟩ : _ = [] ∧ [] = further := by simpa [joined] using hlines
              rfl
          | enclosed hquote hinside =>
              obtain ⟨quote, u, us, hu⟩ := (Entry.Written.enclosed hquote hinside).first rfl
              simp [joined, hu] at hlines
      | cons hw' hws =>
          obtain ⟨w, more, -, hjoined⟩ := joined_cons (.cons hw' hws) (by simp) ws
          rw [hjoined] at hlines
          cases hw with
          | bare => simp [hd] at hlines
          | enclosed hquote hinside =>
              obtain ⟨quote, u, us, hu⟩ := (Entry.Written.enclosed hquote hinside).first rfl
              rw [hu] at hlines
              obtain ⟨t, ht, -⟩ := abut_read hlines
              simp at ht

/-- Reading undoes writing. The fields of any number of records, each field bare where it may be and
else between quotes, are found again in the lines that they fill: with the null string put for
its absence in bare fields only, and without a warning. Where empty lines are left out, a record
of one empty bare field would be lost. -/
theorem split_written (skipEmpty : Bool) (hd : d.delimiter ≠ []) (hquote : d.quoteMark = some quote)
    (hspace : Text.isSpace quote = false) (hf : d.delimiter.head? ≠ some quote)
    {records : List (List Entry)} {blocks : List (List Text)}
    (h : List.Forall₂ (WrittenRecord d) records blocks)
    (hsize : ∀ entries ∈ records, ∀ e ∈ entries, e.enclosed = true → (e.text.length : Int) ≤ limit)
    (hempty : skipEmpty = true → [⟨[], false⟩] ∉ records)
    {lines : List Line} (hlines : lines.map Line.text = blocks.flatten) :
    split d skipEmpty limit lines =
      some { records := records.map (List.map (Entry.field d.nullString)) } := by
  induction h generalizing lines with
  | nil =>
      obtain rfl : lines = [] := by simpa using hlines
      exact split_nil
  | @cons entries block records blocks hrecord _ ih =>
      obtain ⟨hne, fields, hfields, rfl⟩ := hrecord
      obtain ⟨first, further, hfirst⟩ := List.exists_cons_of_ne_nil (joined_ne_nil hfields hne)
      cases lines with
      | nil => simp [hfirst] at hlines
      | cons line pending =>
          obtain ⟨rfl, hpending⟩ : line.text = first ∧
              pending.map Line.text = further ++ blocks.flatten := by
            simpa [hfirst] using hlines
          have hkept : (skipEmpty && line.text.isEmpty) = false := by
            by_contra hblank
            simp only [Bool.not_eq_false, Bool.and_eq_true, List.isEmpty_iff] at hblank
            rw [hblank.2] at hfirst
            exact hempty hblank.1 (entries_of_joined_isEmpty hd hfields hfirst ▸ List.mem_cons_self)
          obtain ⟨pending', hp, hscan⟩ := scanRecord_written hd hquote hspace hf hfields hne
            (hsize entries List.mem_cons_self) line hfirst hpending
          have hrest := ih (fun es hes => hsize es (List.mem_cons_of_mem _ hes))
            (fun hskip hmem => hempty hskip (List.mem_cons_of_mem _ hmem)) hp
          rw [split_record hkept hscan, hrest]
          rfl

/-- A delimiter of two code points, a line feed and both kinds of spelling inside the quotes, and a
null string at the end of the record. -/
theorem split_written_across_lines :
    List.Forall₂ (WrittenRecord ⟨[';', ';'], some ['"'], some ['\\'], some [], true⟩)
        [[⟨['a', ';', 'b'], false⟩, ⟨['x', '\n', '"', '\\'], true⟩, ⟨[], false⟩]]
        [[['a', ';', 'b', ';', ';', '"', 'x'], ['"', '"', '\\', '\\', '"', ';', ';']]] ∧
      split ⟨[';', ';'], some ['"'], some ['\\'], some [], true⟩ true 4
          [⟨1, ['a', ';', 'b', ';', ';', '"', 'x']⟩, ⟨2, ['"', '"', '\\', '\\', '"', ';', ';']⟩] =
        some { records :=
          [[⟨some ['a', ';', 'b'], false⟩, ⟨some ['x', '\n', '"', '\\'], true⟩, ⟨none, false⟩]] } := by
  have hbare : IsBare ⟨[';', ';'], some ['"'], some ['\\'], some [], true⟩ ['a', ';', 'b'] :=
    ⟨by simp [Dialect.quoteMark, Dialect.mark], by decide, by decide,
      fun _ c hc => by rcases hc with hc | hc <;> (obtain rfl := Option.some.inj hc; decide)⟩
  have hnull : IsBare ⟨[';', ';'], some ['"'], some ['\\'], some [], true⟩ [] :=
    ⟨by simp, by decide, by decide, by simp⟩
  have hinside : Inside '"' (some '\\') ['x', '\n', '"', '\\'] [['x'], ['"', '"', '\\', '\\']] :=
    .spelled (.plain (by decide) (by decide) (by decide))
      (.lineFeed (.spelled .doubled (.spelled (.escaped rfl (.inr rfl)) .done)))
  have hwritten : List.Forall₂ (WrittenRecord ⟨[';', ';'], some ['"'], some ['\\'], some [], true⟩)
      [[⟨['a', ';', 'b'], false⟩, ⟨['x', '\n', '"', '\\'], true⟩, ⟨[], false⟩]]
      [[['a', ';', 'b', ';', ';', '"', 'x'], ['"', '"', '\\', '\\', '"', ';', ';']]] :=
    .cons ⟨by decide, _, .cons (.bare hbare) (.cons (.enclosed rfl hinside) (.cons (.bare hnull) .nil)),
      rfl⟩ .nil
  exact ⟨hwritten, split_written true (by decide) rfl (by decide) (by decide) hwritten (by decide)
    (by decide) rfl⟩

end Delimited
