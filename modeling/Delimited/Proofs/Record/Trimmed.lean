/- Trimming of bare values. Where no quote stands right after a space, trimming opens the same columns
and ends them at the same places; so it gives the same warnings, and records that differ in their
bare values alone (`split_trimmed`), by the spaces around them where there is no null string
(`split_with_trim`). -/
import Delimited.Proofs.Record.Course
import Delimited.Text.Blank

namespace Delimited

/-- The text without the spaces around it. -/
def Text.trim (t : Text) : Text := trimRight (t.dropWhile isSpace)

/-- In this text no quote stands right after a space, so none is found by passing over spaces. -/
structure Dialect.QuoteApart (d : Dialect) (t : Text) : Prop where
  solid : ∀ quote, d.quoteMark = some quote → Text.isSpace quote = false
  apart : ∀ space quote, Text.isSpace space = true → d.quoteMark = some quote →
    ¬ [space, quote] <:+: t

theorem Dialect.QuoteApart.suffix {d : Dialect} {t rest : Text} (h : d.QuoteApart t)
    (hrest : rest <:+ t) : d.QuoteApart rest where
  solid := h.solid
  apart := fun space quote hspace hquote hmem =>
    h.apart space quote hspace hquote (hmem.trans hrest.isInfix)

theorem Dialect.quoteApart_iff {d : Dialect} {t : Text} :
    d.QuoteApart t ↔ ∀ quote ∈ d.quoteMark, Text.isSpace quote = false ∧
      ¬ [' ', quote] <:+: t ∧ ¬ ['\t', quote] <:+: t := by
  constructor
  · intro h quote hquote
    exact ⟨h.solid quote hquote, h.apart ' ' quote rfl hquote, h.apart '\t' quote rfl hquote⟩
  · intro h
    refine ⟨fun quote hquote => (h quote hquote).1, ?_⟩
    intro space quote hspace hquote
    obtain rfl | rfl : space = ' ' ∨ space = '\t' := by simpa [Text.isSpace] using hspace
    · exact (h quote hquote).2.1
    · exact (h quote hquote).2.2

/-! ### One column -/

section Column

variable {d : Dialect} {limit : Int} {t rest : Text}

theorem afterSpace_of_apart {space : Char} (hspace : Text.isSpace space = true)
    (h : d.QuoteApart (space :: t)) : ∃ rest, opening.afterSpace d t = .bare rest := by
  induction t generalizing space with
  | nil => exact ⟨[], rfl⟩
  | cons c t ih =>
      have hquote : d.quoteMark ≠ some c := fun hquote =>
        h.apart space c hspace hquote ⟨[], t, rfl⟩
      rw [opening.afterSpace, if_neg hquote]
      by_cases hdelimiter : Text.startsWith d.delimiter (c :: t) = true
      · exact ⟨_, if_pos hdelimiter⟩
      · rw [if_neg hdelimiter]
        by_cases hc : Text.isSpace c = true
        · rw [if_pos hc]
          exact ih hc (h.suffix (List.suffix_cons space _))
        · exact ⟨_, if_neg hc⟩

theorem cutBare_cons {delimiter : Text} {c : Char}
    (h : Text.startsWith delimiter (c :: t) = false) :
    cutBare delimiter (c :: t) = (c :: (cutBare delimiter t).1, (cutBare delimiter t).2) := by
  have hnone : Text.after? delimiter (c :: t) = none := by
    simpa [Text.startsWith] using h
  rw [cutBare, hnone]

theorem cutBare_delimiter {delimiter : Text} {c : Char}
    (h : Text.startsWith delimiter (c :: t) = true) : (cutBare delimiter (c :: t)).1 = [] := by
  obtain ⟨rest, hrest⟩ := Option.isSome_iff_exists.mp h
  rw [cutBare, hrest]

/-- The spaces that are passed over are the first ones of the field. -/
theorem cutBare_afterSpace (h : opening.afterSpace d t = .bare rest) :
    cutBare d.delimiter rest =
      ((cutBare d.delimiter t).1.dropWhile Text.isSpace, (cutBare d.delimiter t).2) := by
  fun_induction opening.afterSpace d t with
  | case1 =>
      obtain rfl : [] = rest := by simpa using h
      rfl
  | case2 c t hdelimiter =>
      obtain rfl : c :: t = rest := by simpa using h
      rw [Prod.ext_iff, cutBare_delimiter hdelimiter]
      exact ⟨rfl, rfl⟩
  | case3 => simp at h
  | case4 c t hdelimiter hquote hspace ih =>
      rw [ih h, cutBare_cons (by simpa using hdelimiter), List.dropWhile_cons, if_pos hspace]
  | case5 c t hdelimiter hquote hspace =>
      obtain rfl : c :: t = rest := by simpa using h
      rw [cutBare_cons (by simpa using hdelimiter), List.dropWhile_cons, if_neg hspace]

/-- How a column is opened is up to the marks of the dialect. -/
theorem opening_with_trim (d : Dialect) (trim trim' : Bool) (t : Text) :
    opening { d with trim } trim' t = opening d trim' t := by
  have hspace : ∀ t, opening.afterSpace { d with trim } t = opening.afterSpace d t := by
    intro t
    induction t with
    | nil => rfl
    | cons c t ih => rw [opening.afterSpace, opening.afterSpace, ih]; rfl
  cases t with
  | nil => rfl
  | cons c t => rw [opening, opening, hspace]; rfl

/-- A quote opens a column with trimming just when it does without; otherwise the column is bare, and
only the spaces before it are left out. -/
theorem opening_trimmed (h : d.QuoteApart t) :
    (∃ quote inside, t = quote :: inside ∧ opening d false t = .quoted quote inside ∧
        opening d true t = .quoted quote inside) ∨
      opening d false t = .bare t ∧ ∃ rest, opening d true t = .bare rest ∧
        cutBare d.delimiter rest =
          ((cutBare d.delimiter t).1.dropWhile Text.isSpace, (cutBare d.delimiter t).2) := by
  cases t with
  | nil => exact .inr ⟨rfl, [], rfl, rfl⟩
  | cons c t =>
      cases hdelimiter : Text.startsWith d.delimiter (c :: t) with
      | true =>
          have hopening : ∀ trim, opening d trim (c :: t) = .bare (c :: t) := by
            intro trim
            rw [opening, if_pos hdelimiter]
          refine .inr ⟨hopening false, c :: t, hopening true, ?_⟩
          rw [Prod.ext_iff, cutBare_delimiter hdelimiter]
          exact ⟨rfl, rfl⟩
      | false =>
          cases hspace : Text.isSpace c with
          | true =>
              have hquote : d.quoteMark ≠ some c := fun hquote => by
                rw [h.solid c hquote] at hspace
                cases hspace
              obtain ⟨rest, hrest⟩ := afterSpace_of_apart hspace h
              refine .inr ⟨?_, rest, ?_, ?_⟩
              · simp [opening, hdelimiter, hquote]
              · simp [opening, hdelimiter, hspace, hrest]
              · rw [cutBare_afterSpace hrest, cutBare_cons hdelimiter, List.dropWhile_cons,
                  if_pos hspace]
          | false =>
              by_cases hquote : d.quoteMark = some c
              · exact .inl ⟨c, t, rfl, by simp [opening, hdelimiter, hquote],
                  by simp [opening, hdelimiter, hspace, hquote]⟩
              · refine .inr ⟨?_, c :: t, ?_, ?_⟩
                · simp [opening, hdelimiter, hquote]
                · simp [opening, hdelimiter, hspace, hquote]
                · rw [cutBare_cons hdelimiter, List.dropWhile_cons, if_neg (by simp [hspace])]

/-- The scan with the spaces taken off a bare value. -/
def Scan.trimmed : Scan → Scan
  | .more value quoted earlier stop =>
    .more (if quoted then value else Text.trim value) quoted earlier stop
  | .last value quoted earlier stop =>
    .last (if quoted then value else Text.trim value) quoted earlier stop
  | s => s

theorem Scan.trimmed_ofRest (value : Text) (quoted : Bool) (earlier : List Line) (line : Line)
    (pending : List Line) (rest : Option Text) :
    (Scan.ofRest value quoted earlier line pending rest).trimmed =
      .ofRest (if quoted then value else Text.trim value) quoted earlier line pending rest := by
  cases rest <;> rfl

/-- Inside quotes nothing is trimmed. -/
theorem scanQuoted_trimmed (quote : Char) (value : Text) (earlier : List Line) (line : Line)
    (rest : Text) (pending : List Line) :
    scanQuoted { d with trim := true } quote limit value earlier line rest pending =
      (scanQuoted d quote limit value earlier line rest pending).trimmed := by
  have hescape : Dialect.escapeMark { d with trim := true } = d.escapeMark := rfl
  fun_induction scanQuoted d quote limit value earlier line rest pending with
  | case1 value earlier line rest part rest' pending hcut rest'' hclose =>
      rw [scanQuoted.eq_def]
      simp [hescape, hcut, hclose, Scan.trimmed_ofRest]
  | case2 value earlier line rest part rest' pending hcut found rest'' hclose =>
      rw [scanQuoted.eq_def]
      simp [hescape, hcut, hclose, Scan.trimmed]
  | case3 value earlier line rest part rest' pending hcut =>
      rw [scanQuoted.eq_def]
      simp [hescape, hcut, Scan.trimmed]
  | case4 value earlier line rest part hcut =>
      rw [scanQuoted.eq_def]
      simp [hescape, hcut, Scan.trimmed]
  | case5 value earlier line rest part next pending hcut ih =>
      rw [scanQuoted.eq_def]
      simpa [hescape, hcut] using ih

theorem scanColumn_trimmed (hoff : d.trim = false) {start : Cursor} (h : d.QuoteApart start.rest)
    {s : Scan} (hscan : scanColumn d limit start = s) :
    scanColumn { d with trim := true } limit start = s.trimmed := by
  obtain ⟨line, rest, pending⟩ := start
  rw [← hscan]
  by_cases hd : d.delimiter = []
  · cases rest <;> simp [scanColumn, hd, Scan.trimmed, Text.trim, Text.trimRight]
  · obtain ⟨quote, inside, -, hplain, htrimmed⟩ | ⟨hplain, t, htrimmed, hcut⟩ := opening_trimmed h
    · rw [← hoff] at hplain
      rw [← opening_with_trim d true] at htrimmed
      rw [scanColumn_quoted (d := { d with trim := true }) hd htrimmed, scanColumn_quoted hd hplain,
        scanQuoted_trimmed]
    · rw [← hoff] at hplain
      rw [← opening_with_trim d true] at htrimmed
      rw [scanColumn_bare (d := { d with trim := true }) hd htrimmed, scanColumn_bare hd hplain,
        hoff, Scan.trimmed_ofRest, hcut]
      rfl

end Column

/-! ### Whole records -/

/-- The field as trimming leaves it. Trimmed, a bare value may be the null string, or no longer. -/
def Field.trimmed (d : Dialect) (f : Field) : Field :=
  if f.quoted then f else .read d (Text.trim (f.value.getD (d.nullString.getD []))) false

theorem Field.trimmed_read (d : Dialect) (value : Text) (quoted : Bool) :
    (Field.read d value quoted).trimmed d =
      .read d (if quoted then value else Text.trim value) quoted := by
  cases quoted with
  | true => rfl
  | false =>
      by_cases hnull : d.nullString = some value <;> simp [Field.read, Field.trimmed, hnull]

namespace RecordScan

/-- The same record with its fields changed. -/
def map (f : Record → Record) : RecordScan → RecordScan
  | .record fields pending => .record (f fields) pending
  | .unclosed fields => .unclosed (f fields)
  | s => s

theorem map_cons (f : Field → Field) (field : Field) (s : RecordScan) :
    (s.cons field).map (List.map f) = (s.map (List.map f)).cons (f field) := by
  cases s <;> rfl

end RecordScan

section Record

variable {d : Dialect} {limit : Int}

/-- Nowhere in what is still to be read a quote stands right after a space. -/
structure Cursor.QuoteApart (d : Dialect) (at_ : Cursor) : Prop where
  rest : d.QuoteApart at_.rest
  pending : ∀ line ∈ at_.pending, d.QuoteApart line.text

theorem apart_of_scanQuoted {quote : Char} {value : Text} {earlier : List Line} {line : Line}
    {rest : Text} {pending : List Line} {value' : Text} {quoted : Bool} {earlier' : List Line}
    {stop : Cursor} (hrest : d.QuoteApart rest) (hpending : ∀ line ∈ pending, d.QuoteApart line.text)
    (h : scanQuoted d quote limit value earlier line rest pending =
      .more value' quoted earlier' stop) : stop.QuoteApart d := by
  fun_induction scanQuoted d quote limit value earlier line rest pending with
  | case1 value earlier line rest part rest' pending hcut rest'' hclose =>
      have hrest' := suffix_of_cutQuoted (congrArg Prod.snd hcut)
      cases rest'' with
      | none => simp [Scan.ofRest] at h
      | some rest'' =>
          simp only [Scan.ofRest, Scan.more.injEq] at h
          obtain ⟨-, -, -, rfl⟩ := h
          exact ⟨hrest.suffix ((suffix_of_closing hclose).trans hrest'), hpending⟩
  | case2 | case3 | case4 => simp at h
  | case5 value earlier line rest part next pending hcut ih =>
      obtain ⟨hnext, hpending⟩ := List.forall_mem_cons.mp hpending
      exact ih hnext hpending h

theorem apart_of_scanColumn (hoff : d.trim = false) {start stop : Cursor} {value : Text}
    {quoted : Bool} {earlier : List Line} (hstart : start.QuoteApart d)
    (h : scanColumn d limit start = .more value quoted earlier stop) : stop.QuoteApart d := by
  obtain ⟨line, rest, pending⟩ := start
  obtain ⟨hrest, hpending⟩ := hstart
  by_cases hd : d.delimiter = []
  · cases rest <;> simp [scanColumn, hd] at h
  · obtain ⟨quote, inside, rfl, hplain, -⟩ | ⟨hplain, -⟩ := opening_trimmed hrest
    · rw [← hoff] at hplain
      rw [scanColumn_quoted hd hplain] at h
      exact apart_of_scanQuoted (hrest.suffix (List.suffix_cons quote inside)) hpending h
    · rw [← hoff] at hplain
      rw [scanColumn_bare hd hplain] at h
      cases hcut : (cutBare d.delimiter rest).2 with
      | none => simp [hcut, Scan.ofRest] at h
      | some rest' =>
          simp only [hcut, Scan.ofRest, Scan.more.injEq] at h
          obtain ⟨-, -, -, rfl⟩ := h
          exact ⟨hrest.suffix (suffix_of_cutBare hcut), hpending⟩

theorem scanRecord_trimmed (hoff : d.trim = false) {start : Cursor} (hstart : start.QuoteApart d) :
    scanRecord { d with trim := true } limit start =
      (scanRecord d limit start).map (List.map (Field.trimmed d)) := by
  fun_induction scanRecord d limit start with
  | case1 start value quoted earlier stop hscan ih =>
      rw [scanRecord_more (scanColumn_trimmed hoff hstart.rest hscan),
        ih (apart_of_scanColumn hoff hstart hscan), RecordScan.map_cons, Field.trimmed_read]
      rfl
  | case2 start value quoted earlier stop hscan =>
      rw [scanRecord_last (scanColumn_trimmed hoff hstart.rest hscan), RecordScan.map,
        List.map_singleton, Field.trimmed_read]
      rfl
  | case3 start earlier number hscan =>
      exact scanRecord_unclosed (scanColumn_trimmed hoff hstart.rest hscan)
  | case4 start fault earlier stop hscan =>
      exact scanRecord_malformed (scanColumn_trimmed hoff hstart.rest hscan)
  | case5 start stop hscan =>
      exact scanRecord_of_undivided (scanColumn_trimmed hoff hstart.rest hscan)

/-- A record that starts at a line, and what is read after it. -/
theorem scanRecord_line_trimmed (hoff : d.trim = false) {line : Line} {pending : List Line}
    (hlines : ∀ l ∈ line :: pending, d.QuoteApart l.text) {s : RecordScan}
    (hscan : scanRecord d limit ⟨line, line.text, pending⟩ = s) :
    scanRecord { d with trim := true } limit ⟨line, line.text, pending⟩ =
        s.map (List.map (Field.trimmed d)) ∧
      ∀ l ∈ s.pending, d.QuoteApart l.text := by
  obtain ⟨hline, hpending⟩ := List.forall_mem_cons.mp hlines
  subst hscan
  refine ⟨scanRecord_trimmed hoff ⟨hline, hpending⟩, ?_⟩
  intro l hl
  exact hpending l ((pending_scanRecord d limit _).subset hl)

/-- Where no quote stands right after a space, trimming changes the bare values of the records, and
neither the warnings nor whether the lines run out inside quotes. -/
theorem split_trimmed (hoff : d.trim = false) (skipEmpty : Bool) {lines : List Line}
    (hlines : ∀ line ∈ lines, d.QuoteApart line.text) :
    split { d with trim := true } skipEmpty limit lines =
      (split d skipEmpty limit lines).map fun s =>
        { s with records := s.records.map (List.map (Field.trimmed d)) } := by
  fun_induction split d skipEmpty limit lines with
  | case1 => rw [split_nil, Option.map_some, List.map_nil]
  | case2 line pending h ih =>
      rw [split_blank h, ih (List.forall_mem_cons.mp hlines).2]
  | case3 line pending h fields rest hscan ih =>
      obtain ⟨htrimmed, hrest⟩ := scanRecord_line_trimmed hoff hlines hscan
      rw [split_record (by simpa using h) htrimmed, ih hrest, Option.map_map, Option.map_map]
      rfl
  | case4 line pending h fields hscan =>
      rw [split_unclosed (by simpa using h) (scanRecord_line_trimmed hoff hlines hscan).1]
      rfl
  | case5 line pending h warning rest hscan ih =>
      obtain ⟨htrimmed, hrest⟩ := scanRecord_line_trimmed hoff hlines hscan
      rw [split_malformed (by simpa using h) htrimmed, ih hrest, Option.map_map, Option.map_map]
      rfl
  | case6 line pending h hscan =>
      rw [split_undivided (by simpa using h) (scanRecord_line_trimmed hoff hlines hscan).1]
      rfl

end Record

/-! ### The same records without a null string -/

/-- Spaces are taken off both ends. -/
theorem Text.trim_eq_stripBy (t : Text) : trim t = stripBy isSpace t := by
  have hright : ∀ t : Text, trimRight t = (t.reverse.dropWhile isSpace).reverse := by
    intro t
    induction t with
    | nil => rfl
    | cons c t ih =>
        rw [trimRight, ih, List.reverse_cons, List.dropWhile_append]
        cases hrest : t.reverse.dropWhile isSpace with
        | nil => cases hspace : isSpace c <;> simp [hspace]
        | cons a rest => simp
  exact hright (t.dropWhile isSpace)

/-- What takes the spaces off the value of a bare field. -/
def Field.stripped (f : Field) : Field :=
  if f.quoted then f else { f with value := f.value.map (Text.stripBy Text.isSpace) }

section Read

variable {d : Dialect} {limit : Int}

/-- Every field of a record is read from a text, also of one that was not closed. -/
theorem exists_read_of_scanRecord {start : Cursor} {fields : Record}
    (h : (∃ left, scanRecord d limit start = .record fields left) ∨
      scanRecord d limit start = .unclosed fields) :
    ∀ f ∈ fields, ∃ value quoted, f = .read d value quoted := by
  fun_induction scanRecord d limit start generalizing fields with
  | case1 start value quoted earlier stop hscan ih =>
      cases hrest : scanRecord d limit stop with
      | record later left =>
          obtain rfl : _ :: later = fields := by simpa [hrest, RecordScan.cons] using h
          exact List.forall_mem_cons.mpr ⟨⟨value, quoted, rfl⟩, ih (.inl ⟨left, hrest⟩)⟩
      | unclosed later =>
          obtain rfl : _ :: later = fields := by simpa [hrest, RecordScan.cons] using h
          exact List.forall_mem_cons.mpr ⟨⟨value, quoted, rfl⟩, ih (.inr hrest)⟩
      | malformed | undivided => simp [hrest, RecordScan.cons] at h
  | case2 start value quoted earlier stop hscan =>
      obtain rfl : [_] = fields := by simpa using h
      exact List.forall_mem_singleton.mpr ⟨value, quoted, rfl⟩
  | case3 start earlier number hscan =>
      obtain rfl : [] = fields := by simpa using h
      exact List.forall_mem_nil _
  | case4 | case5 => simp at h

theorem exists_read_of_division (hd : d.delimiter ≠ []) (skipEmpty : Bool) (limit : Int)
    (lines : List Line) :
    ∀ record ∈ (division d skipEmpty limit lines).records, ∀ f ∈ record,
      ∃ value quoted, f = .read d value quoted := by
  induction course hd skipEmpty limit lines with
  | done => simp
  | blank h _ ih => rwa [division_blank h]
  | record h hlater _ ih =>
      rw [division_record hd h (hlater _)]
      exact List.forall_mem_cons.mpr ⟨exists_read_of_scanRecord (.inl ⟨_, hlater []⟩), ih⟩
  | unclosed h hscan =>
      rw [division_unclosed h hscan]
      exact List.forall_mem_singleton.mpr (exists_read_of_scanRecord (.inr hscan))
  | malformed h hscan _ _ ih => rwa [division_malformed hd h hscan]

end Read

/-- A field that was read without a null string is trimmed by taking the spaces off a bare value. -/
theorem Field.trimmed_eq_stripped {d : Dialect} (hnull : d.nullString = none) (value : Text)
    (quoted : Bool) :
    (Field.read d value quoted).trimmed d = (Field.read d value quoted).stripped := by
  rw [Field.trimmed_read]
  cases quoted with
  | true => rfl
  | false => simp [Field.read, hnull, Field.stripped, Text.trim_eq_stripBy]

/-- Trimming touches bare values only. Without a null string, and where no quote stands right after a
space or a tab, it gives the same warnings and the same records, but for the spaces and tabs around
their bare values. -/
theorem split_with_trim {d : Dialect} (hd : d.delimiter ≠ []) (hnull : d.nullString = none)
    (skipEmpty : Bool) (limit : Int) {lines : List Line}
    (hquote : ∀ quote ∈ d.quote, ∃ c, quote = [c] ∧ c ≠ ' ' ∧ c ≠ '\t')
    (hlines : ∀ line ∈ lines, ∀ quote ∈ d.quote,
      ¬ ' ' :: quote <:+: line.text ∧ ¬ '\t' :: quote <:+: line.text) :
    ∃ s, split { d with trim := false } skipEmpty limit lines = some s ∧
      split { d with trim := true } skipEmpty limit lines =
        some { s with records := s.records.map (List.map Field.stripped) } := by
  have hsplit := split_eq_division (d := { d with trim := false }) hd skipEmpty limit lines
  have hread := exists_read_of_division (d := { d with trim := false }) hd skipEmpty limit lines
  have hapart : ∀ line ∈ lines, Dialect.QuoteApart { d with trim := false } line.text := by
    intro line hline
    apply Dialect.quoteApart_iff.mpr
    intro quote hmark
    have hsingle : d.quote = some [quote] := Dialect.mark_eq_some_iff.mp hmark
    obtain ⟨c, hc, hspace, htab⟩ := hquote [quote] hsingle
    obtain rfl : quote = c := List.singleton_inj.mp hc
    exact ⟨by simp [Text.isSpace, hspace, htab], hlines line hline [quote] hsingle⟩
  have hstripped : ∀ record ∈ (division { d with trim := false } skipEmpty limit lines).records,
      record.map (Field.trimmed { d with trim := false }) = record.map Field.stripped := by
    intro record hrecord
    apply List.map_congr_left
    intro f hf
    obtain ⟨value, quoted, rfl⟩ := hread record hrecord f hf
    exact Field.trimmed_eq_stripped hnull value quoted
  refine ⟨_, hsplit, ?_⟩
  refine (split_trimmed rfl skipEmpty hapart).trans ?_
  rw [hsplit, Option.map_some, List.map_congr_left hstripped]

/-- A delimiter that begins with a space, a value of spaces alone, and a malformed line. -/
theorem split_with_trim_spaced_delimiter :
    (⟨[' ', ';'], some ['"'], none, none, false⟩ : Dialect).nullString = none ∧
      ∃ s, split ⟨[' ', ';'], some ['"'], none, none, false⟩ true 8
          [⟨1, [' ', 'a', '\t', ' ', ';', '"', 'b']⟩, ⟨2, [' ', 'c', '"', ' ', ';', ' ']⟩,
            ⟨3, ['"', 'd', '"', 'x']⟩] = some s ∧
        s.records = [[⟨some [' ', 'a', '\t'], false⟩, ⟨some ['b', '\n', ' ', 'c'], true⟩,
          ⟨some [' '], false⟩]] ∧
        split ⟨[' ', ';'], some ['"'], none, none, true⟩ true 8
          [⟨1, [' ', 'a', '\t', ' ', ';', '"', 'b']⟩, ⟨2, [' ', 'c', '"', ' ', ';', ' ']⟩,
            ⟨3, ['"', 'd', '"', 'x']⟩] =
          some { s with records := [[⟨some ['a'], false⟩, ⟨some ['b', '\n', ' ', 'c'], true⟩,
            ⟨some [], false⟩]] } := by
  have hquote : ∀ quote ∈ some ['"'], ∃ c, quote = [c] ∧ c ≠ ' ' ∧ c ≠ '\t' := by
    rintro quote ⟨rfl⟩
    exact ⟨'"', rfl, by decide, by decide⟩
  have hlines : ∀ line ∈ ([⟨1, [' ', 'a', '\t', ' ', ';', '"', 'b']⟩,
      ⟨2, [' ', 'c', '"', ' ', ';', ' ']⟩, ⟨3, ['"', 'd', '"', 'x']⟩] : List Line),
      ∀ quote ∈ some ['"'], ¬ ' ' :: quote <:+: line.text ∧ ¬ '\t' :: quote <:+: line.text := by
    simp [List.infix_cons_iff]
  obtain ⟨s, hplain, htrimmed⟩ :=
    split_with_trim (d := ⟨[' ', ';'], some ['"'], none, none, false⟩) (by decide) rfl true 8
      hquote hlines
  have hsplit : split ⟨[' ', ';'], some ['"'], none, none, false⟩ true 8
      [⟨1, [' ', 'a', '\t', ' ', ';', '"', 'b']⟩, ⟨2, [' ', 'c', '"', ' ', ';', ' ']⟩,
        ⟨3, ['"', 'd', '"', 'x']⟩] =
      some { records := [[⟨some [' ', 'a', '\t'], false⟩, ⟨some ['b', '\n', ' ', 'c'], true⟩,
               ⟨some [' '], false⟩]]
             warnings := [⟨⟨3, ['"', 'd', '"', 'x']⟩, .strayCharacter 'x' '"', 3⟩] } := by
    decide +kernel
  obtain rfl := Option.some.inj (hsplit.symm.trans hplain)
  exact ⟨rfl, _, hsplit, rfl, htrimmed⟩

end Delimited
