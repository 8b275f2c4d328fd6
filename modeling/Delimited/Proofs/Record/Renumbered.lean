/- Lines under other numbers are divided in the same way: the numbers go along into the warnings,
and nothing else that is read depends on them (`split_renumbered`). -/
import Delimited.Proofs.Record.Division
import Delimited.Proofs.Record.Scanning

namespace Delimited

variable {d : Dialect} {limit : Int} (f : Int → Int)

/-- The same line under another number. -/
def Line.renumbered (line : Line) : Line := { line with number := f line.number }

@[simp] theorem Line.text_renumbered (line : Line) : (line.renumbered f).text = line.text := rfl

theorem Line.map_text_renumbered (lines : List Line) :
    (lines.map (Line.renumbered f)).map Line.text = lines.map Line.text := by
  rw [List.map_map]
  rfl

def Cursor.renumbered (at_ : Cursor) : Cursor :=
  ⟨at_.line.renumbered f, at_.rest, at_.pending.map (Line.renumbered f)⟩

def Scan.renumbered : Scan → Scan
  | .more value quoted earlier stop =>
    .more value quoted (earlier.map (Line.renumbered f)) (stop.renumbered f)
  | .last value quoted earlier stop =>
    .last value quoted (earlier.map (Line.renumbered f)) (stop.renumbered f)
  | .unclosed earlier number => .unclosed (earlier.map (Line.renumbered f)) (f number)
  | .malformed fault earlier stop =>
    .malformed fault (earlier.map (Line.renumbered f)) (stop.renumbered f)
  | .undivided stop => .undivided (stop.renumbered f)

def Warning.renumbered (w : Warning) : Warning := ⟨w.dropped.renumbered f, w.fault, f w.place⟩

def RecordScan.renumbered : RecordScan → RecordScan
  | .record fields pending => .record fields (pending.map (Line.renumbered f))
  | .unclosed fields => .unclosed fields
  | .malformed warning pending =>
    .malformed (warning.renumbered f) (pending.map (Line.renumbered f))
  | .undivided => .undivided

def Division.renumbered (s : Division) : Division :=
  { s with warnings := s.warnings.map (Warning.renumbered f) }

theorem Division.rows_renumbered (s : Division) : (s.renumbered f).rows = s.rows := rfl

theorem Scan.renumbered_ofRest (value : Text) (quoted : Bool) (earlier : List Line) (line : Line)
    (pending : List Line) (rest : Option Text) :
    (Scan.ofRest value quoted earlier line pending rest).renumbered f =
      .ofRest value quoted (earlier.map (Line.renumbered f)) (line.renumbered f)
        (pending.map (Line.renumbered f)) rest := by
  cases rest <;> rfl

theorem RecordScan.renumbered_cons (field : Field) (s : RecordScan) :
    (s.cons field).renumbered f = (s.renumbered f).cons field := by
  cases s <;> rfl

theorem scanQuoted_renumbered (quote : Char) (value : Text) (earlier : List Line) (line : Line)
    (rest : Text) (pending : List Line) :
    scanQuoted d quote limit value (earlier.map (Line.renumbered f)) (line.renumbered f) rest
        (pending.map (Line.renumbered f)) =
      (scanQuoted d quote limit value earlier line rest pending).renumbered f := by
  fun_induction scanQuoted d quote limit value earlier line rest pending with
  | case1 value earlier line rest pending part rest' hcut rest'' hclose =>
      rw [scanQuoted.eq_def]
      simp [hcut, hclose, Scan.renumbered_ofRest]
  | case2 value earlier line rest pending part rest' hcut found rest'' hclose =>
      rw [scanQuoted.eq_def]
      simp [hcut, hclose, Scan.renumbered, Cursor.renumbered]
  | case3 value earlier line rest pending part rest' hcut =>
      rw [scanQuoted.eq_def]
      simp [hcut, Scan.renumbered, Cursor.renumbered]
  | case4 value earlier line rest part hcut =>
      rw [scanQuoted.eq_def]
      simp [hcut, Scan.renumbered, Line.renumbered]
  | case5 value earlier line rest part next pending hcut ih =>
      rw [List.map_append, List.map_singleton] at ih
      rw [scanQuoted.eq_def]
      simp only [hcut, List.map_cons]
      exact ih

/-- A column is found by what stands in the lines. -/
theorem scanColumn_renumbered {start : Cursor} {s : Scan} (h : scanColumn d limit start = s) :
    scanColumn d limit (start.renumbered f) = s.renumbered f := by
  subst h
  obtain ⟨line, rest, pending⟩ := start
  by_cases hd : d.delimiter = []
  · cases rest <;> simp [scanColumn, hd, Cursor.renumbered, Scan.renumbered]
  · rw [Cursor.renumbered]
    cases ho : opening d d.trim rest with
    | bare t => rw [scanColumn_bare hd ho, scanColumn_bare hd ho, Scan.renumbered_ofRest]; rfl
    | quoted quote t =>
        rw [scanColumn_quoted hd ho, scanColumn_quoted hd ho, ← scanQuoted_renumbered]
        rfl

theorem scanRecord_renumbered (start : Cursor) :
    scanRecord d limit (start.renumbered f) = (scanRecord d limit start).renumbered f := by
  fun_induction scanRecord d limit start with
  | case1 start value quoted earlier stop hscan ih =>
      rw [scanRecord_more (scanColumn_renumbered f hscan), ih, RecordScan.renumbered_cons]
  | case2 start value quoted earlier stop hscan =>
      exact scanRecord_last (scanColumn_renumbered f hscan)
  | case3 start earlier number hscan => exact scanRecord_unclosed (scanColumn_renumbered f hscan)
  | case4 start fault earlier stop hscan =>
      exact scanRecord_malformed (scanColumn_renumbered f hscan)
  | case5 start stop hscan => exact scanRecord_of_undivided (scanColumn_renumbered f hscan)

/-- A record that starts at a line, whatever the numbers of that line and the ones after it. -/
theorem scanRecord_line_renumbered {line : Line} {pending : List Line} {s : RecordScan}
    (h : scanRecord d limit ⟨line, line.text, pending⟩ = s) :
    scanRecord d limit ⟨line.renumbered f, (line.renumbered f).text,
      pending.map (Line.renumbered f)⟩ = s.renumbered f := by
  rw [← h]
  exact scanRecord_renumbered f ⟨line, line.text, pending⟩

/-- Numbering lines anew numbers the warnings anew, and changes no record. -/
theorem split_renumbered (skipEmpty : Bool) (lines : List Line) :
    split d skipEmpty limit (lines.map (Line.renumbered f)) =
      (split d skipEmpty limit lines).map (Division.renumbered f) := by
  fun_induction split d skipEmpty limit lines with
  | case1 => exact split_nil
  | case2 line pending h ih => rw [List.map_cons, split_blank (by simpa using h), ih]
  | case3 line pending h fields rest hscan ih =>
      have hscan' := scanRecord_line_renumbered f hscan
      rw [List.map_cons, split_record (by simpa using h) hscan', ih, Option.map_map, Option.map_map]
      rfl
  | case4 line pending h fields hscan =>
      exact split_unclosed (by simpa using h) (scanRecord_line_renumbered f hscan)
  | case5 line pending h warning rest hscan ih =>
      have hscan' := scanRecord_line_renumbered f hscan
      rw [List.map_cons, split_malformed (by simpa using h) hscan', ih, Option.map_map,
        Option.map_map]
      rfl
  | case6 line pending h hscan =>
      exact split_undivided (by simpa using h) (scanRecord_line_renumbered f hscan)

end Delimited
