/- One column of a record: where it starts and ends, and the text it holds.
The lines that a column passes over, the one it stops in and the ones after it are together the
lines it started from (`lines_scanColumn`), and a delimiter leaves less to read
(`size_scanColumn`). -/
import Delimited.Dialect
import Delimited.Record.Fault
import Delimited.Sample.Line

namespace Delimited

/-- A bare field: the text up to the first delimiter, and what follows that delimiter if there is
one. -/
def cutBare (delimiter : Text) : Text → Text × Option Text
  | [] => ([], none)
  | c :: t => match Text.after? delimiter (c :: t) with
    | some rest => ([], some rest)
    | none => (c :: (cutBare delimiter t).1, (cutBare delimiter t).2)

inductive Opening
  | bare (rest : Text)
  /-- This quote opens the field, and its inside starts here. -/
  | quoted (quote : Char) (rest : Text)
  deriving DecidableEq

/-- Finds the opening of a column. With `trim`, spaces before a field are passed over; a space at
the very start is passed over even where it is the quote. -/
def opening (d : Dialect) (trim : Bool) : Text → Opening
  | [] => .bare []
  | c :: t =>
    if Text.startsWith d.delimiter (c :: t) then .bare (c :: t)
    else if trim && Text.isSpace c then afterSpace t
    else if d.quoteMark = some c then .quoted c t
    else .bare (c :: t)
where
  /-- The same after a space: the quote comes before further spaces. -/
  afterSpace : Text → Opening
    | [] => .bare []
    | c :: t =>
      if Text.startsWith d.delimiter (c :: t) then .bare (c :: t)
      else if d.quoteMark = some c then .quoted c t
      else if Text.isSpace c then afterSpace t
      else .bare (c :: t)

/-- How the part of an enclosed value that stands in one line ends. -/
inductive Stop
  | closed (rest : Text)
  | lineEnd
  | tooLong (rest : Text)
  deriving DecidableEq

/-- The part of an enclosed value in one line, after `size` code points of the value in earlier
lines. A doubled quote is a quote; the escape makes a quote and itself literal. The limit is
checked only where a code point stands for itself. -/
def cutQuoted (quote : Char) (escape : Option Char) (limit : Int) : (size : Nat) → Text → Text × Stop
  | _, [] => ([], .lineEnd)
  | size, [c] =>
    if c = quote then ([], .closed [])
    else if escape ≠ some c ∧ limit < (size : Int) + 1 then ([], .tooLong [])
    else ([c], .lineEnd)
  | size, c :: c' :: t =>
    if c = quote then
      if c' = quote then
        let r := cutQuoted quote escape limit (size + 1) t
        (quote :: r.1, r.2)
      else ([], .closed (c' :: t))
    else if escape = some c then
      if c' = quote ∨ escape = some c' then
        let r := cutQuoted quote escape limit (size + 1) t
        (c' :: r.1, r.2)
      else
        let r := cutQuoted quote escape limit (size + 1) (c' :: t)
        (c :: r.1, r.2)
    else if limit < (size : Int) + 1 then ([], .tooLong (c' :: t))
    else
      let r := cutQuoted quote escape limit (size + 1) (c' :: t)
      (c :: r.1, r.2)

inductive Closing
  /-- A delimiter before this rest, or the end of the line. -/
  | ended (rest : Option Text)
  | stray (found : Char) (rest : Text)
  deriving DecidableEq

/-- Spaces may stand between a closing quote and the next delimiter. -/
def closing (delimiter : Text) : Text → Closing
  | [] => .ended none
  | c :: t => match Text.after? delimiter (c :: t) with
    | some rest => .ended (some rest)
    | none => if Text.isSpace c then closing delimiter t else .stray c t

/-- A place inside the lines: the line being read, what is left of it, and the lines after it. -/
structure Cursor where
  line : Line
  rest : Text
  pending : List Line
  deriving DecidableEq

/-- The size of what is still to be read in these lines; a line end counts as one code point. -/
def sizeOfLines : List Line → Nat
  | [] => 0
  | line :: lines => line.text.length + 1 + sizeOfLines lines

def Cursor.size (c : Cursor) : Nat := c.rest.length + sizeOfLines c.pending

/-- What reading one column comes to. `earlier` are the lines that the column began in and passed
over, in order; the cursor stands where reading stopped. -/
inductive Scan
  | more (value : Text) (quoted : Bool) (earlier : List Line) (stop : Cursor)
  /-- A value at the end of its line, the last one of its record. -/
  | last (value : Text) (quoted : Bool) (earlier : List Line) (stop : Cursor)
  /-- The lines ran out inside quotes; the number is that of the last line. -/
  | unclosed (earlier : List Line) (number : Int)
  | malformed (fault : Fault) (earlier : List Line) (stop : Cursor)
  /-- Nothing can be divided by an empty delimiter. -/
  | undivided (stop : Cursor)
  deriving DecidableEq

/-- A finished value: the rest of the line, if a delimiter came before it. -/
def Scan.ofRest (value : Text) (quoted : Bool) (earlier : List Line) (line : Line)
    (pending : List Line) : Option Text → Scan
  | some rest => .more value quoted earlier ⟨line, rest, pending⟩
  | none => .last value quoted earlier ⟨line, [], pending⟩

/-- Reads on inside quotes. A line end inside them is part of the value. -/
def scanQuoted (d : Dialect) (quote : Char) (limit : Int) :
    (value : Text) → (earlier : List Line) → Line → Text → List Line → Scan
  | value, earlier, line, rest, pending =>
    match cutQuoted quote d.escapeMark limit value.length rest, pending with
    | (part, .closed rest), pending => match closing d.delimiter rest with
      | .ended rest => .ofRest (value ++ part) true earlier line pending rest
      | .stray found rest => .malformed (.strayCharacter found quote) earlier ⟨line, rest, pending⟩
    | (_, .tooLong rest), pending => .malformed (.oversized limit) earlier ⟨line, rest, pending⟩
    | (_, .lineEnd), [] => .unclosed (earlier ++ [line]) line.number
    | (part, .lineEnd), next :: pending =>
      scanQuoted d quote limit (value ++ part ++ ['\n']) (earlier ++ [line]) next next.text pending

def scanColumn (d : Dialect) (limit : Int) (at_ : Cursor) : Scan :=
  match d.delimiter, at_.rest with
  | [], _ :: rest => .undivided { at_ with rest := rest }
  | [], [] => .last [] false [] at_
  | delimiter, rest => match opening d d.trim rest with
    | .quoted quote rest => scanQuoted d quote limit [] [] at_.line rest at_.pending
    | .bare rest =>
      let (field, rest) := cutBare delimiter rest
      .ofRest (if d.trim then Text.trimRight field else field) false [] at_.line at_.pending rest

/-! ### Progress and conservation -/

theorem length_of_cutBare {delimiter t rest : Text} (hd : delimiter ≠ [])
    (h : (cutBare delimiter t).2 = some rest) : rest.length < t.length := by
  fun_induction cutBare delimiter t with
  | case1 => simp at h
  | case2 c t r hr =>
    obtain rfl : r = rest := by simpa using h
    have := Text.length_of_after? hr
    have := List.length_pos_iff.2 hd
    omega
  | case3 c t hr ih =>
    have := ih h
    simp only [List.length_cons]
    omega

theorem length_of_closing {delimiter t rest : Text}
    (h : closing delimiter t = .ended (some rest)) : rest.length ≤ t.length := by
  fun_induction closing delimiter t with
  | case1 => simp at h
  | case2 c t r hr =>
    obtain rfl : r = rest := by simpa using h
    have := Text.length_of_after? hr
    omega
  | case3 c t hr hs ih =>
    have := ih h
    simp only [List.length_cons]
    omega
  | case4 => simp at h

theorem length_of_cutQuoted {quote : Char} {escape : Option Char} {limit : Int} {size : Nat}
    {t rest : Text} (h : (cutQuoted quote escape limit size t).2 = .closed rest) :
    rest.length < t.length := by
  fun_induction cutQuoted quote escape limit size t <;> simp_all <;> grind

theorem length_of_opening_bare {d : Dialect} {trim : Bool} {t rest : Text}
    (h : opening d trim t = .bare rest) : rest.length ≤ t.length := by
  have hs : ∀ t rest, opening.afterSpace d t = .bare rest → rest.length ≤ t.length := by
    intro t
    induction t with
    | nil => simp [opening.afterSpace]
    | cons c t ih => grind [opening.afterSpace]
  cases t with
  | nil => simp_all [opening]
  | cons c t => grind [opening]

theorem length_of_opening_quoted {d : Dialect} {trim : Bool} {quote : Char} {t rest : Text}
    (h : opening d trim t = .quoted quote rest) : rest.length < t.length := by
  have hs : ∀ t quote rest, opening.afterSpace d t = .quoted quote rest → rest.length < t.length := by
    intro t
    induction t with
    | nil => simp [opening.afterSpace]
    | cons c t ih => grind [opening.afterSpace]
  cases t with
  | nil => simp [opening] at h
  | cons c t => grind [opening]

def Scan.lines : Scan → List Line
  | .more _ _ earlier stop | .last _ _ earlier stop | .malformed _ earlier stop =>
    earlier ++ stop.line :: stop.pending
  | .unclosed earlier _ => earlier
  | .undivided stop => stop.line :: stop.pending

@[simp] theorem Scan.lines_ofRest (value : Text) (quoted : Bool) (earlier : List Line)
    (line : Line) (pending : List Line) (rest : Option Text) :
    (Scan.ofRest value quoted earlier line pending rest).lines = earlier ++ line :: pending := by
  cases rest <;> rfl

theorem lines_scanQuoted (d : Dialect) (quote : Char) (limit : Int) (value : Text)
    (earlier : List Line) (line : Line) (rest : Text) (pending : List Line) :
    (scanQuoted d quote limit value earlier line rest pending).lines
      = earlier ++ line :: pending := by
  fun_induction scanQuoted d quote limit value earlier line rest pending with
  | case1 => exact Scan.lines_ofRest ..
  | case2 | case3 | case4 => rfl
  | case5 value earlier line rest part next pending hcut ih => simpa using ih

/-- Reading a column neither loses a line nor changes the order of lines. -/
theorem lines_scanColumn (d : Dialect) (limit : Int) (start : Cursor) :
    (scanColumn d limit start).lines = start.line :: start.pending := by
  unfold scanColumn
  split
  · rfl
  · rfl
  · split
    · exact lines_scanQuoted ..
    · simp

theorem size_scanQuoted {d : Dialect} {quote : Char} {limit : Int} {value : Text}
    {earlier : List Line} {line : Line} {rest : Text} {pending : List Line} {value' : Text}
    {quoted : Bool} {earlier' : List Line} {stop : Cursor}
    (h : scanQuoted d quote limit value earlier line rest pending
      = .more value' quoted earlier' stop) : stop.size < rest.length + sizeOfLines pending := by
  fun_induction scanQuoted d quote limit value earlier line rest pending with
  | case1 value earlier line rest pending part rest' hcut rest'' hclose =>
    have h1 := length_of_cutQuoted (congrArg Prod.snd hcut)
    cases rest'' with
    | none => simp [Scan.ofRest] at h
    | some rest'' =>
      have h2 := length_of_closing hclose
      simp only [Scan.ofRest, Scan.more.injEq] at h
      obtain ⟨-, -, -, rfl⟩ := h
      simp only [Cursor.size]
      omega
  | case2 | case3 | case4 => simp at h
  | case5 value earlier line rest next pending part hcut ih =>
    have := ih h
    simp only [sizeOfLines]
    omega

theorem size_scanColumn {d : Dialect} {limit : Int} {start : Cursor} {value : Text}
    {quoted : Bool} {earlier : List Line} {stop : Cursor}
    (h : scanColumn d limit start = .more value quoted earlier stop) : stop.size < start.size := by
  unfold scanColumn at h
  split at h
  · simp at h
  · simp at h
  · rename_i hd _
    have hd : d.delimiter ≠ [] := by
      intro hd'
      cases hr : start.rest <;> simp_all
    split at h
    · rename_i quote rest ho
      have h1 := length_of_opening_quoted ho
      have h2 := size_scanQuoted h
      simp only [Cursor.size] at h2 ⊢
      omega
    · rename_i rest ho
      have h1 := length_of_opening_bare ho
      cases hc : (cutBare d.delimiter rest).2 with
      | none => simp [hc, Scan.ofRest] at h
      | some rest' =>
        have h2 := length_of_cutBare hd hc
        simp only [hc, Scan.ofRest, Scan.more.injEq] at h
        obtain ⟨-, -, -, rfl⟩ := h
        simp only [Cursor.size]
        omega

end Delimited
