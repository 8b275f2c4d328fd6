/- Dividing lines by calls to a reader: records are asked for one after the other and their columns
read until one is refused. What is left to read shrinks with every column and every record, also
where a dropped line puts others back (`skipLine_malformed`), and so the calls end. -/
import Delimited.Record.Reader
import Delimited.Record.Split

namespace Delimited

theorem sizeOfLines_le_of_suffix {left lines : List Line} (h : left <:+ lines) :
    sizeOfLines left ≤ sizeOfLines lines := by
  obtain ⟨passed, rfl⟩ := h
  induction passed with
  | nil => exact Nat.le_refl _
  | cons line passed ih =>
      simp only [List.cons_append, sizeOfLines]
      omega

theorem family_scanQuoted {d : Dialect} {quote : Char} {limit : Int} {value : Text}
    {earlier earlier' : List Line} {line : Line} {rest : Text} {pending : List Line} {fault : Fault}
    {stop : Cursor}
    (h : scanQuoted d quote limit value earlier line rest pending = .malformed fault earlier' stop) :
    fault.family ≠ .recordEnd := by
  fun_induction scanQuoted d quote limit value earlier line rest pending with
  | case1 value earlier line rest pending part rest' hcut rest'' hclose =>
      cases rest'' <;> simp [Scan.ofRest] at h
  | case2 | case3 =>
      obtain ⟨rfl, -, -⟩ := Scan.malformed.inj h
      simp [Fault.family]
  | case4 => simp at h
  | case5 value earlier line rest part next pending hcut ih => exact ih h

/-- The end of a record is no malformed column. -/
theorem family_scanColumn {d : Dialect} {limit : Int} {start stop : Cursor} {fault : Fault}
    {earlier : List Line} (h : scanColumn d limit start = .malformed fault earlier stop) :
    fault.family ≠ .recordEnd := by
  unfold scanColumn at h
  split at h
  · simp at h
  · simp at h
  · split at h
    · exact family_scanQuoted h
    · next rest ho =>
        cases hc : (cutBare d.delimiter rest).2 <;> simp [hc, Scan.ofRest] at h

namespace Reader

/-- The size of what is still to be read; a line that was taken up counts for one more. -/
def size (r : Reader) : Nat :=
  match r.position with
  | .within _ rest => rest.length + 1 + sizeOfLines r.pending
  | .between _ => sizeOfLines r.pending

/-- The reader is inside a record, and reads on from this place. -/
structure At (r : Reader) (start : Cursor) : Prop where
  position : r.position = .within start.line start.rest
  pending : r.pending = start.pending

section At

variable {d : Dialect} {limit : Int} {r : Reader} {start stop : Cursor} {value : Text}
  {quoted : Bool} {earlier : List Line} {fault : Fault}

theorem At.cursor (hr : r.At start) : ⟨start.line, start.rest, r.pending⟩ = start := by
  rw [hr.pending]

theorem At.size (hr : r.At start) : r.size = start.rest.length + 1 + sizeOfLines start.pending := by
  rw [Reader.size, hr.position, hr.pending]

theorem nextColumn_more (hr : r.At start)
    (h : scanColumn d limit start = .more value quoted earlier stop) :
    r.nextColumn d limit =
      (.ok value, ⟨stop.pending, .within stop.line stop.rest, earlier, stop.line.number, quoted⟩) := by
  simp only [nextColumn, hr.position, hr.cursor, h]

theorem nextColumn_last (hr : r.At start)
    (h : scanColumn d limit start = .last value quoted earlier stop) :
    r.nextColumn d limit =
      (.ok value,
        ⟨stop.pending, .between (some stop.line), earlier, stop.line.number, quoted⟩) := by
  simp only [nextColumn, hr.position, hr.cursor, h]

theorem nextColumn_unclosed {number : Int} (hr : r.At start)
    (h : scanColumn d limit start = .unclosed earlier number) :
    r.nextColumn d limit =
      (.error (.fault .openQuote number), ⟨[], .between none, earlier, number, true⟩) := by
  simp only [nextColumn, hr.position, hr.cursor, h]

theorem nextColumn_malformed (hr : r.At start)
    (h : scanColumn d limit start = .malformed fault earlier stop) :
    r.nextColumn d limit =
      (.error (.fault fault stop.line.number),
        ⟨stop.pending, .within stop.line stop.rest, earlier, stop.line.number, true⟩) := by
  simp only [nextColumn, hr.position, hr.cursor, h]

theorem nextColumn_undivided (hr : r.At start) (h : scanColumn d limit start = .undivided stop) :
    r.nextColumn d limit =
      (.error .emptyDelimiter,
        ⟨stop.pending, .within stop.line stop.rest, [], stop.line.number, false⟩) := by
  simp only [nextColumn, hr.position, hr.cursor, h]

theorem nextColumn_between {at_ : Option Line} (hr : r.position = .between at_) :
    r.nextColumn d limit = (.error (.fault .recordEnded r.number), r) := by
  simp only [nextColumn, hr]

/-- After a malformed column the line it began in is dropped, and all lines after that one are
there to be read again. -/
theorem skipLine_malformed {number : Int}
    (h : scanColumn d limit start = .malformed fault earlier stop) :
    (⟨stop.pending, .within stop.line stop.rest, earlier, number, quoted⟩ : Reader).skipLine =
      (some start.line, ⟨start.pending, .between (some stop.line), [], number, quoted⟩) := by
  have hlines := lines_scanColumn d limit start
  rw [h, Scan.lines] at hlines
  cases earlier with
  | nil =>
      obtain ⟨hline, hpending⟩ : stop.line = start.line ∧ stop.pending = start.pending := by
        simpa using hlines
      simp [skipLine, current, hline, hpending]
  | cons first later =>
      obtain ⟨hline, hpending⟩ :
          first = start.line ∧ later ++ stop.line :: stop.pending = start.pending := by
        simpa using hlines
      simp [skipLine, current, hline, hpending]

/-- Inside a record a reader is at some place. -/
theorem exists_at {line : Line} {rest : Text} (hr : r.position = .within line rest) :
    ∃ start, r.At start :=
  ⟨⟨line, rest, r.pending⟩, hr, rfl⟩

/-- A column that is read leaves less to read. -/
theorem size_nextColumn {r' : Reader} (h : r.nextColumn d limit = (.ok value, r')) :
    r'.size < r.size := by
  cases hr : r.position with
  | between at_ => simp [nextColumn_between hr] at h
  | within line rest =>
      obtain ⟨start, hat⟩ := exists_at hr
      rw [hat.size]
      cases hscan : scanColumn d limit start with
      | more value quoted earlier stop =>
          obtain ⟨-, rfl⟩ := Prod.mk.inj ((nextColumn_more hat hscan).symm.trans h)
          have hsize := size_scanColumn hscan
          simp only [Cursor.size] at hsize
          simp only [size]
          omega
      | last value quoted earlier stop =>
          obtain ⟨-, rfl⟩ := Prod.mk.inj ((nextColumn_last hat hscan).symm.trans h)
          have hlines := lines_scanColumn d limit start
          rw [hscan] at hlines
          have hsize := sizeOfLines_le_of_suffix (suffix_of_append_eq hlines)
          simp only [size]
          omega
      | unclosed => simp [nextColumn_unclosed hat hscan] at h
      | malformed => simp [nextColumn_malformed hat hscan] at h
      | undivided => simp [nextColumn_undivided hat hscan] at h

end At

/-- Reads columns until one is refused: the fields before it, why, and the reader after it. -/
def columns (d : Dialect) (limit : Int) (r : Reader) : Record × Refusal × Reader :=
  match _h : r.nextColumn d limit with
  | (.error why, r') => ([], why, r')
  | (.ok value, r') =>
    let (fields, why, last) := columns d limit r'
    (.read d value r'.quoted :: fields, why, last)
termination_by r.size
decreasing_by exact size_nextColumn _h

section Columns

variable {d : Dialect} {limit : Int} {r r' : Reader}

theorem columns_error {why : Refusal} (h : r.nextColumn d limit = (.error why, r')) :
    r.columns d limit = ([], why, r') := by
  rw [columns]
  split <;> simp_all

theorem columns_ok {value : Text} (h : r.nextColumn d limit = (.ok value, r')) :
    r.columns d limit =
      (.read d value r'.quoted :: (r'.columns d limit).1, (r'.columns d limit).2) := by
  rw [columns]
  split <;> simp_all

/-- A record that ends leaves less to read, and so does one given up for a dropped line. -/
theorem size_columns {start : Cursor} {fields : Record} {fault : Fault} {number : Int}
    {last : Reader} (hr : r.At start)
    (h : r.columns d limit = (fields, .fault fault number, last)) :
    (fault.family = .recordEnd → last.size < r.size) ∧
      (fault.family ≠ .recordEnd → last.skipLine.2.size < r.size) := by
  fun_induction columns d limit r generalizing start fields with
  | case1 r why r' hnext =>
      obtain ⟨-, rfl, rfl⟩ : [] = fields ∧ why = .fault fault number ∧ r' = last := by
        simpa using h
      rw [hr.size]
      cases hscan : scanColumn d limit start with
      | more => simp [nextColumn_more hr hscan] at hnext
      | last => simp [nextColumn_last hr hscan] at hnext
      | undivided => simp [nextColumn_undivided hr hscan] at hnext
      | unclosed earlier n =>
          obtain ⟨⟨rfl, rfl⟩, rfl⟩ : (.openQuote = fault ∧ n = number) ∧ _ = r' := by
            simpa [nextColumn_unclosed hr hscan] using hnext
          refine ⟨fun _ => ?_, fun hne => absurd rfl hne⟩
          simp only [size, sizeOfLines]
          omega
      | malformed fault' earlier stop =>
          obtain ⟨⟨rfl, rfl⟩, rfl⟩ : (fault' = fault ∧ stop.line.number = number) ∧ _ = r' := by
            simpa [nextColumn_malformed hr hscan] using hnext
          refine ⟨fun hend => absurd hend (family_scanColumn hscan), fun _ => ?_⟩
          rw [skipLine_malformed hscan]
          simp only [size]
          omega
  | case2 r value r' hnext fields' why last' hcolumns ih =>
      have hless := size_nextColumn hnext
      obtain ⟨-, rfl, rfl⟩ : _ = fields ∧ why = .fault fault number ∧ last' = last := by
        simpa using h
      cases hr' : r'.position with
      | within line rest =>
          obtain ⟨start', hat⟩ := exists_at hr'
          obtain ⟨hend, hskip⟩ := ih hat hcolumns
          exact ⟨fun hf => Nat.lt_trans (hend hf) hless, fun hf => Nat.lt_trans (hskip hf) hless⟩
      | between at_ =>
          rw [columns_error (nextColumn_between hr')] at hcolumns
          obtain ⟨-, ⟨rfl, -⟩, rfl⟩ :
              [] = fields' ∧ (.recordEnded = fault ∧ r'.number = number) ∧ r' = last' := by
            simpa using hcolumns
          exact ⟨fun _ => hless, fun hne => absurd rfl hne⟩

end Columns

theorem size_nextLine {skipEmpty : Bool} {number number' : Int} {lines pending : List Line}
    {line : Line} (h : nextLine skipEmpty number lines = (some line, number', pending)) :
    line.text.length + 1 + sizeOfLines pending ≤ sizeOfLines lines := by
  fun_induction nextLine skipEmpty number lines with
  | case1 => simp at h
  | case2 number first rest hblank ih =>
      have hle := ih h
      simp only [sizeOfLines]
      omega
  | case3 number first rest hblank =>
      obtain ⟨rfl, -, rfl⟩ : first = line ∧ first.number = number' ∧ rest = pending := by
        simpa using h
      simp only [sizeOfLines]
      omega

/-- Where a record is found the reader is inside it, and what is left to read has not grown. -/
theorem nextRecord_found {skipEmpty : Bool} {r r' : Reader}
    (h : r.nextRecord skipEmpty = (.ok true, r')) :
    (∃ start, r'.At start) ∧ r'.size ≤ r.size := by
  cases hr : r.position with
  | within line rest => simp [nextRecord, hr] at h
  | between at_ =>
      simp only [nextRecord, hr] at h
      rcases hline : nextLine skipEmpty r.number r.pending with ⟨_ | line, number, pending⟩
      · simp [hline] at h
      · obtain rfl : _ = r' := by simpa [hline] using h
        have hsize := size_nextLine hline
        simp only [size, hr]
        exact ⟨exists_at rfl, hsize⟩

/-- Divides what is left to read. A fault that ends a record leaves the fields before it. One of a
malformed column costs its record, and the line that is dropped for it. Any other refusal is the
answer. -/
def divide (d : Dialect) (skipEmpty : Bool) (limit : Int) (r : Reader) :
    Except Refusal Division :=
  match _hr : r.nextRecord skipEmpty with
  | (.error why, _) => .error why
  | (.ok false, _) => .ok {}
  | (.ok true, r') =>
    match _hc : r'.columns d limit with
    | (fields, .fault fault number, last) => match _hf : fault.family with
      | .recordEnd =>
        (divide d skipEmpty limit last).map fun s =>
          { s with records := fields :: s.records, openEnd := s.openEnd || fault = .openQuote }
      | .malformed | .oversized =>
        (divide d skipEmpty limit last.skipLine.2).map fun s =>
          { s with
            warnings := ⟨last.skipLine.1.getD ⟨last.number, []⟩, fault, number⟩ :: s.warnings }
      | _ => .error (.fault fault number)
    | (_, why, _) => .error why
termination_by r.size
decreasing_by
  all_goals
    obtain ⟨⟨start, hat⟩, hle⟩ := nextRecord_found _hr
    obtain ⟨hend, hskip⟩ := size_columns hat _hc
  · exact Nat.lt_of_lt_of_le (hend _hf) hle
  · exact Nat.lt_of_lt_of_le (hskip (by simp [_hf])) hle
  · exact Nat.lt_of_lt_of_le (hskip (by simp [_hf])) hle

end Reader

end Delimited
