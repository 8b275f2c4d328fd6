/- Reading records column by column, on demand. A call that fails leaves the reader where reading
stopped, and the next call goes on from there. -/
import Delimited.Record.Column

namespace Delimited

inductive Position
  /-- Inside a record, before this rest of a line. -/
  | within (line : Line) (rest : Text)
  /-- Between records, after this line if it is still at hand. -/
  | between (line : Option Line)
  deriving DecidableEq

/-- A reader of records and their columns. -/
structure Reader where
  pending : List Line
  position : Position := .between none
  /-- The lines that the column read last began in and passed over. -/
  earlier : List Line := []
  /-- The number of the line taken up last; zero before the first. -/
  number : Int := 0
  quoted : Bool := false
  deriving DecidableEq

inductive Refusal
  /-- The columns of the record before have not all been read. -/
  | recordOpen
  | fault (fault : Fault) (number : Int)
  /-- Nothing can be divided by an empty delimiter. -/
  | emptyDelimiter
  deriving DecidableEq

inductive Call
  | nextRecord (skipEmpty : Bool)
  | nextColumn
  | skipLine
  deriving DecidableEq

inductive Reply
  | record (found : Bool)
  | column (value : Text)
  | dropped (line : Option Line)
  | refused (why : Refusal)
  deriving DecidableEq

namespace Reader

def ofLines (lines : List Line) : Reader := { pending := lines }

def current (r : Reader) : Option Line :=
  match r.position with
  | .within line _ => some line
  | .between line => line

/-- Takes up the next line; empty ones are passed over on request. -/
def nextLine (skipEmpty : Bool) (number : Int) : List Line → Option Line × Int × List Line
  | [] => (none, number, [])
  | line :: pending =>
    if skipEmpty && line.text.isEmpty then nextLine skipEmpty line.number pending
    else (some line, line.number, pending)

/-- Goes to the next record, and answers whether there is one. -/
def nextRecord (skipEmpty : Bool) (r : Reader) : Except Refusal Bool × Reader :=
  match r.position with
  | .within _ _ => (.error .recordOpen, r)
  | .between _ =>
    let (line, number, pending) := nextLine skipEmpty r.number r.pending
    match line with
    | some line => (.ok true, { r with pending, number, position := .within line line.text })
    | none => (.ok false, { r with pending, number, position := .between none })

def nextColumn (d : Dialect) (limit : Int) (r : Reader) : Except Refusal Text × Reader :=
  match r.position with
  | .between _ => (.error (.fault .recordEnded r.number), r)
  | .within line rest => match scanColumn d limit ⟨line, rest, r.pending⟩ with
    | .more value quoted earlier stop =>
      (.ok value, ⟨stop.pending, .within stop.line stop.rest, earlier, stop.line.number, quoted⟩)
    | .last value quoted earlier stop =>
      (.ok value, ⟨stop.pending, .between (some stop.line), earlier, stop.line.number, quoted⟩)
    | .unclosed earlier number =>
      (.error (.fault .openQuote number), ⟨[], .between none, earlier, number, true⟩)
    | .malformed fault earlier stop =>
      (.error (.fault fault stop.line.number),
        ⟨stop.pending, .within stop.line stop.rest, earlier, stop.line.number, true⟩)
    | .undivided stop =>
      (.error .emptyDelimiter,
        ⟨stop.pending, .within stop.line stop.rest, [], stop.line.number, false⟩)

/-- Ends the record and drops a line: the first of those that the column read last passed over, or
else the line at hand. The other lines passed over and the line at hand are read again. -/
def skipLine (r : Reader) : Option Line × Reader :=
  match r.earlier with
  | [] => (r.current, { r with position := .between r.current })
  | first :: later =>
    (some first,
      { r with
        pending := later ++ r.current.toList ++ r.pending
        position := .between r.current
        earlier := [] })

/-- Answers a call with a limit on the size of enclosed values. -/
def perform (d : Dialect) (limit : Int) (r : Reader) : Call → Reply × Reader
  | .nextRecord skipEmpty => match r.nextRecord skipEmpty with
    | (.ok found, r) => (.record found, r)
    | (.error why, r) => (.refused why, r)
  | .nextColumn => match r.nextColumn d limit with
    | (.ok value, r) => (.column value, r)
    | (.error why, r) => (.refused why, r)
  | .skipLine => (.dropped r.skipLine.1, r.skipLine.2)

/-- The replies to calls in order, each with the reader after it. -/
def replies (d : Dialect) (limit : Int) : Reader → List Call → List (Reply × Reader)
  | _, [] => []
  | r, call :: calls => r.perform d limit call :: replies d limit (r.perform d limit call).2 calls

/-- The reader after calls in order, those that were refused among them. -/
def after (d : Dialect) (limit : Int) (r : Reader) (calls : List Call) : Reader :=
  calls.foldl (fun r call => (r.perform d limit call).2) r

end Reader

end Delimited
