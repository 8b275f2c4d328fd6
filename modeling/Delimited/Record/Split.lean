/- Lines divided into records. A line that cannot be divided is dropped with a warning, and the
lines read after it are read again; those of its record before it are in no record and in no
warning. -/
import Delimited.Record.Column

namespace Delimited

/-- One field of a record. A field without a value is one that held the null string. -/
structure Field where
  value : Option Text
  quoted : Bool := false
  deriving DecidableEq

abbrev Record := List Field

def Record.values (r : Record) : List (Option Text) := r.map Field.value

/-- A line that was dropped, and the fault found on the line with the number `place`. -/
structure Warning where
  dropped : Line
  fault : Fault
  place : Int
  deriving DecidableEq

def Warning.report (w : Warning) : Report := w.fault.report w.place

structure Division where
  records : List Record := []
  warnings : List Warning := []
  /-- The lines ran out inside quotes, and the last record holds the fields before them. -/
  openEnd : Bool := false
  deriving DecidableEq

def Division.rows (s : Division) : List (List (Option Text)) := s.records.map Record.values

/-- Only a bare field can be the null string. -/
def Field.read (d : Dialect) (value : Text) (quoted : Bool) : Field :=
  if !quoted && d.nullString == some value then ⟨none, quoted⟩ else ⟨some value, quoted⟩

/-- What reading one record comes to, with the lines that are read next. -/
inductive RecordScan
  | record (fields : Record) (pending : List Line)
  /-- The lines ran out inside quotes after these fields. -/
  | unclosed (fields : Record)
  | malformed (warning : Warning) (pending : List Line)
  /-- The delimiter is empty and meets a text. -/
  | undivided

namespace RecordScan

def pending : RecordScan → List Line
  | .record _ pending | .malformed _ pending => pending
  | .unclosed _ | .undivided => []

/-- A field before those of the record. A malformed value takes the whole record with it. -/
def cons (field : Field) : RecordScan → RecordScan
  | .record fields pending => .record (field :: fields) pending
  | .unclosed fields => .unclosed (field :: fields)
  | .malformed warning pending => .malformed warning pending
  | .undivided => .undivided

@[simp] theorem pending_cons (field : Field) (s : RecordScan) :
    (s.cons field).pending = s.pending := by cases s <;> rfl

end RecordScan

/-- Reads the columns from a cursor to the end of its record. Of the lines that a malformed value
was read from, the first is dropped and the others are read again. -/
def scanRecord (d : Dialect) (limit : Int) (start : Cursor) : RecordScan :=
  match _h : scanColumn d limit start with
  | .more value quoted _ stop => (scanRecord d limit stop).cons (.read d value quoted)
  | .last value quoted _ stop => .record [.read d value quoted] stop.pending
  | .unclosed _ _ => .unclosed []
  | .malformed fault _ stop => .malformed ⟨start.line, fault, stop.line.number⟩ start.pending
  | .undivided _ => .undivided
termination_by start.size
decreasing_by exact size_scanColumn _h

theorem suffix_of_append_eq {α : Type} {earlier rest later : List α} {a b : α}
    (h : earlier ++ a :: rest = b :: later) : rest <:+ later := by
  cases earlier with
  | nil => simp_all
  | cons x xs =>
    simp only [List.cons_append, List.cons.injEq] at h
    exact ⟨xs ++ [a], by simp [← h.2]⟩

/-- What is read after a record stood after its first line. -/
theorem pending_scanRecord (d : Dialect) (limit : Int) (start : Cursor) :
    (scanRecord d limit start).pending <:+ start.pending := by
  fun_induction scanRecord d limit start with
  | case1 start value quoted earlier stop h ih =>
    have hl := lines_scanColumn d limit start
    rw [h] at hl
    rw [RecordScan.pending_cons]
    exact ih.trans (suffix_of_append_eq hl)
  | case2 start value quoted earlier stop h =>
    have hl := lines_scanColumn d limit start
    rw [h] at hl
    exact suffix_of_append_eq hl
  | case3 => exact List.nil_suffix
  | case4 => exact List.suffix_refl _
  | case5 => exact List.nil_suffix

/-- Divides lines into records, with empty lines kept as records or left out. There is no answer
when the delimiter is empty and meets a text. -/
def split (d : Dialect) (skipEmpty : Bool) (limit : Int) : List Line → Option Division
  | [] => some {}
  | line :: pending =>
    if skipEmpty && line.text.isEmpty then split d skipEmpty limit pending
    else match _h : scanRecord d limit ⟨line, line.text, pending⟩ with
      | .record fields rest =>
        (split d skipEmpty limit rest).map fun s => { s with records := fields :: s.records }
      | .unclosed fields => some { records := [fields], openEnd := true }
      | .malformed warning rest =>
        (split d skipEmpty limit rest).map fun s => { s with warnings := warning :: s.warnings }
      | .undivided => none
termination_by lines => lines.length
decreasing_by
  · simp
  all_goals
    have := (pending_scanRecord d limit ⟨line, line.text, pending⟩).length_le
    rw [_h] at this
    exact Nat.lt_succ_of_le this

end Delimited
