/- A scan depends only on the lines that it passed over: whatever stands after them is left as it
is (`scanColumn_passed`, `scanRecord_passed`). Only a scan that runs out of lines looks at all. -/
import Delimited.Proofs.Record.Division

namespace Delimited

/-- The lines after the one in which a scan stopped. -/
def Scan.pending : Scan → List Line
  | .more _ _ _ stop | .last _ _ _ stop | .malformed _ _ stop | .undivided stop => stop.pending
  | .unclosed _ _ => []

/-- The same scan before other lines. -/
def Scan.before (later : List Line) : Scan → Scan
  | .more value quoted earlier stop => .more value quoted earlier { stop with pending := later }
  | .last value quoted earlier stop => .last value quoted earlier { stop with pending := later }
  | .malformed fault earlier stop => .malformed fault earlier { stop with pending := later }
  | .undivided stop => .undivided { stop with pending := later }
  | .unclosed earlier number => .unclosed earlier number

/-- The scan ran out of lines inside quotes. -/
def Scan.isUnclosed : Scan → Bool
  | .unclosed _ _ => true
  | _ => false

section Rest

variable (value : Text) (quoted : Bool) (earlier : List Line) (line : Line)
  (pending later : List Line) (rest : Option Text)

@[simp] theorem Scan.pending_ofRest :
    (Scan.ofRest value quoted earlier line pending rest).pending = pending := by
  cases rest <;> rfl

@[simp] theorem Scan.before_ofRest :
    (Scan.ofRest value quoted earlier line pending rest).before later =
      .ofRest value quoted earlier line later rest := by
  cases rest <;> rfl

@[simp] theorem Scan.isUnclosed_ofRest :
    (Scan.ofRest value quoted earlier line pending rest).isUnclosed = false := by
  cases rest <;> rfl

end Rest

theorem scanQuoted_passed (d : Dialect) (quote : Char) (limit : Int) (value : Text)
    (earlier : List Line) (line : Line) (rest : Text) (pending : List Line)
    (h : (scanQuoted d quote limit value earlier line rest pending).isUnclosed = false) :
    ∃ passed,
      pending = passed ++ (scanQuoted d quote limit value earlier line rest pending).pending ∧
      ∀ later, scanQuoted d quote limit value earlier line rest (passed ++ later) =
        (scanQuoted d quote limit value earlier line rest pending).before later := by
  fun_induction scanQuoted d quote limit value earlier line rest pending with
  | case1 value earlier line rest pending part rest' hcut rest'' hclose =>
      refine ⟨[], by simp, ?_⟩
      intro later
      rw [List.nil_append, scanQuoted.eq_def]
      simp [hcut, hclose]
  | case2 value earlier line rest pending part rest' hcut found rest'' hclose =>
      refine ⟨[], rfl, ?_⟩
      intro later
      rw [List.nil_append, scanQuoted.eq_def]
      simp [hcut, hclose, Scan.before]
  | case3 value earlier line rest pending part rest' hcut =>
      refine ⟨[], rfl, ?_⟩
      intro later
      rw [List.nil_append, scanQuoted.eq_def]
      simp [hcut, Scan.before]
  | case4 => simp [Scan.isUnclosed] at h
  | case5 value earlier line rest part next pending hcut ih =>
      obtain ⟨passed, hpending, hlater⟩ := ih h
      refine ⟨next :: passed, by rw [List.cons_append, ← hpending], ?_⟩
      intro later
      rw [List.cons_append, scanQuoted.eq_def]
      simp only [hcut]
      exact hlater later

theorem scanColumn_passed (d : Dialect) (limit : Int) (start : Cursor)
    (h : (scanColumn d limit start).isUnclosed = false) :
    ∃ passed, start.pending = passed ++ (scanColumn d limit start).pending ∧
      ∀ later, scanColumn d limit { start with pending := passed ++ later } =
        (scanColumn d limit start).before later := by
  obtain ⟨line, rest, pending⟩ := start
  unfold scanColumn at h ⊢
  cases hd : d.delimiter with
  | nil =>
      cases rest with
      | nil => exact ⟨[], rfl, fun later => rfl⟩
      | cons c rest => exact ⟨[], rfl, fun later => rfl⟩
  | cons a p =>
      simp only [hd] at h ⊢
      cases ho : opening d d.trim rest with
      | bare t => exact ⟨[], by simp, fun later => by simp⟩
      | quoted quote t =>
          simp only [ho] at h
          exact scanQuoted_passed d quote limit [] [] line t pending h

theorem scanColumn_append {d : Dialect} {limit : Int} {start : Cursor}
    (h : (scanColumn d limit start).isUnclosed = false) (later : List Line) :
    scanColumn d limit { start with pending := start.pending ++ later } =
      (scanColumn d limit start).before ((scanColumn d limit start).pending ++ later) := by
  obtain ⟨passed, hpending, hlater⟩ := scanColumn_passed d limit start h
  rw [← hlater, ← List.append_assoc, ← hpending]

/-- A record that ended is the same before any other lines. -/
theorem scanRecord_passed {d : Dialect} {limit : Int} {start : Cursor} {fields : Record}
    {left : List Line} (h : scanRecord d limit start = .record fields left) :
    ∃ passed, start.pending = passed ++ left ∧
      ∀ later, scanRecord d limit { start with pending := passed ++ later } =
        .record fields later := by
  fun_induction scanRecord d limit start generalizing fields left with
  | case1 start value quoted earlier stop hscan ih =>
      obtain ⟨passed, hpending, hlater⟩ :=
        scanColumn_passed d limit start (by rw [hscan]; rfl)
      rw [hscan] at hpending hlater
      cases hrest : scanRecord d limit stop with
      | record fields' left' =>
          rw [hrest] at h
          obtain ⟨rfl, rfl⟩ : _ :: fields' = fields ∧ left' = left := by
            simpa [RecordScan.cons] using h
          obtain ⟨passed', hpending', hlater'⟩ := ih hrest
          refine ⟨passed ++ passed', ?_, ?_⟩
          · rw [hpending, Scan.pending, hpending', List.append_assoc]
          · intro later
            rw [List.append_assoc, scanRecord_more (hlater (passed' ++ later)), hlater' later]
            rfl
      | unclosed | malformed | undivided => simp [hrest, RecordScan.cons] at h
  | case2 start value quoted earlier stop hscan =>
      obtain ⟨passed, hpending, hlater⟩ :=
        scanColumn_passed d limit start (by rw [hscan]; rfl)
      rw [hscan] at hpending hlater
      obtain ⟨rfl, rfl⟩ : [_] = fields ∧ stop.pending = left := by simpa using h
      exact ⟨passed, hpending, fun later => scanRecord_last (hlater later)⟩
  | case3 | case4 | case5 => simp at h

namespace RecordScan

/-- The lines ran out inside quotes. -/
def isUnclosed : RecordScan → Bool
  | .unclosed _ => true
  | _ => false

/-- The same with more lines to be read next. -/
def followedBy (later : List Line) : RecordScan → RecordScan
  | .record fields pending => .record fields (pending ++ later)
  | .malformed warning pending => .malformed warning (pending ++ later)
  | .unclosed fields => .unclosed fields
  | .undivided => .undivided

@[simp] theorem isUnclosed_cons (field : Field) (s : RecordScan) :
    (s.cons field).isUnclosed = s.isUnclosed := by
  cases s <;> rfl

@[simp] theorem isUnclosed_followedBy (s : RecordScan) (later : List Line) :
    (s.followedBy later).isUnclosed = s.isUnclosed := by
  cases s <;> rfl

@[simp] theorem followedBy_cons (field : Field) (s : RecordScan) (later : List Line) :
    (s.cons field).followedBy later = (s.followedBy later).cons field := by
  cases s <;> rfl

end RecordScan

/-- Lines after those that a record was read from, or given up in, are left for later. -/
theorem scanRecord_append {d : Dialect} {limit : Int} {start : Cursor}
    (h : (scanRecord d limit start).isUnclosed = false) (later : List Line) :
    scanRecord d limit { start with pending := start.pending ++ later } =
      (scanRecord d limit start).followedBy later := by
  fun_induction scanRecord d limit start with
  | case1 start value quoted earlier stop hscan ih =>
      have hlater := scanColumn_append (by rw [hscan]; rfl) later
      rw [hscan] at hlater
      rw [RecordScan.isUnclosed_cons] at h
      rw [scanRecord_more hlater, RecordScan.followedBy_cons, ← ih h]
      rfl
  | case2 start value quoted earlier stop hscan =>
      have hlater := scanColumn_append (by rw [hscan]; rfl) later
      rw [hscan] at hlater
      exact scanRecord_last hlater
  | case3 => simp [RecordScan.isUnclosed] at h
  | case4 start fault earlier stop hscan =>
      have hlater := scanColumn_append (by rw [hscan]; rfl) later
      rw [hscan, Scan.before] at hlater
      rw [scanRecord_malformed hlater]
      rfl
  | case5 start stop hscan =>
      have hlater := scanColumn_append (by rw [hscan]; rfl) later
      rw [hscan] at hlater
      exact scanRecord_of_undivided hlater

end Delimited
