/- What becomes of each line of a division. The lines of a malformed record are of two kinds: the one
its malformed column starts in is dropped with a warning, and those before it are lost. -/
import Delimited.Proofs.Record.Course

namespace Delimited

inductive Fate
  /-- Left out because it is empty. -/
  | blank
  /-- A line of a record. -/
  | read
  /-- Dropped with a warning. -/
  | dropped
  /-- Neither in a record nor in a warning. -/
  | lost
  deriving DecidableEq

def Fate.isKept : Fate → Bool
  | .blank | .read => true
  | .dropped | .lost => false

/-- Every line with its fate, in order. -/
def fates (d : Dialect) (skipEmpty : Bool) (limit : Int) : List Line → List (Line × Fate)
  | [] => []
  | line :: pending =>
    if skipEmpty && line.text.isEmpty then (line, .blank) :: fates d skipEmpty limit pending
    else match _h : scanRecord d limit ⟨line, line.text, pending⟩ with
      | .record _ rest =>
        ((line :: pending).take (pending.length + 1 - rest.length)).map (·, .read) ++
          fates d skipEmpty limit rest
      | .malformed warning rest =>
        ((line :: pending).take (pending.length - rest.length)).map (·, .lost) ++
          (warning.dropped, .dropped) :: fates d skipEmpty limit rest
      | .unclosed _ | .undivided => (line :: pending).map (·, .read)
termination_by lines => lines.length
decreasing_by
  · simp
  all_goals
    have := (pending_scanRecord d limit ⟨line, line.text, pending⟩).length_le
    rw [_h] at this
    exact Nat.lt_succ_of_le this

/-- The lines of some fates, in order. -/
def linesOf (p : Fate → Bool) (fs : List (Line × Fate)) : List Line :=
  (fs.filter fun x => p x.2).map Prod.fst

/-- The lines that a division keeps. -/
def keptLines (d : Dialect) (skipEmpty : Bool) (limit : Int) (lines : List Line) : List Line :=
  linesOf Fate.isKept (fates d skipEmpty limit lines)

/-- The lines that a division loses without a warning. -/
def lostLines (d : Dialect) (skipEmpty : Bool) (limit : Int) (lines : List Line) : List Line :=
  linesOf (· == .lost) (fates d skipEmpty limit lines)

section Equations

variable {d : Dialect} {skipEmpty : Bool} {limit : Int} {line : Line}
  {pending passed lost rest : List Line} {fields : Record} {warning : Warning}

/-- The lines of a record are told by how many are left after it. -/
theorem take_passed : (line :: (passed ++ rest)).take ((passed ++ rest).length + 1 - rest.length) =
    line :: passed := by
  have hlength : (passed ++ rest).length + 1 - rest.length = (line :: passed).length := by
    simp only [List.length_append, List.length_cons]
    omega
  rw [hlength, ← List.cons_append, List.take_left]

@[simp] theorem fates_nil : fates d skipEmpty limit [] = [] := by
  rw [fates]

theorem fates_blank (h : (skipEmpty && line.text.isEmpty) = true) :
    fates d skipEmpty limit (line :: pending) = (line, .blank) :: fates d skipEmpty limit pending := by
  rw [fates, if_pos h]

theorem fates_record (h : (skipEmpty && line.text.isEmpty) = false)
    (hscan : scanRecord d limit ⟨line, line.text, passed ++ rest⟩ = .record fields rest) :
    fates d skipEmpty limit (line :: (passed ++ rest)) =
      (line :: passed).map (·, .read) ++ fates d skipEmpty limit rest := by
  rw [fates, if_neg (by simp [h])]
  split
  · next fields' rest' hscan' =>
      obtain ⟨-, rfl⟩ : fields = fields' ∧ rest = rest' := by
        simpa using hscan.symm.trans hscan'
      rw [take_passed]
  all_goals simp_all

theorem fates_unclosed (h : (skipEmpty && line.text.isEmpty) = false)
    (hscan : scanRecord d limit ⟨line, line.text, pending⟩ = .unclosed fields) :
    fates d skipEmpty limit (line :: pending) = (line :: pending).map (·, .read) := by
  rw [fates, if_neg (by simp [h])]
  split <;> simp_all

theorem fates_malformed (h : (skipEmpty && line.text.isEmpty) = false)
    (hscan : scanRecord d limit ⟨line, line.text, pending⟩ = .malformed warning rest)
    (hlines : line :: pending = lost ++ warning.dropped :: rest) :
    fates d skipEmpty limit (line :: pending) =
      lost.map (·, .lost) ++ (warning.dropped, .dropped) :: fates d skipEmpty limit rest := by
  have hlength : pending.length - rest.length = lost.length := by
    have := congrArg List.length hlines
    simp only [List.length_append, List.length_cons] at this
    omega
  have htake : (line :: pending).take lost.length = lost := by
    rw [hlines, List.take_left]
  rw [fates, if_neg (by simp [h])]
  split <;> simp_all

end Equations

section LinesOf

variable (p : Fate → Bool)

@[simp] theorem linesOf_nil : linesOf p [] = [] := rfl

@[simp] theorem linesOf_cons (line : Line) (fate : Fate) (fs : List (Line × Fate)) :
    linesOf p ((line, fate) :: fs) = if p fate then line :: linesOf p fs else linesOf p fs := by
  cases h : p fate <;> simp [linesOf, h]

@[simp] theorem linesOf_append (fs gs : List (Line × Fate)) :
    linesOf p (fs ++ gs) = linesOf p fs ++ linesOf p gs := by
  simp [linesOf]

@[simp] theorem linesOf_map (lines : List Line) (fate : Fate) :
    linesOf p (lines.map (·, fate)) = if p fate then lines else [] := by
  cases h : p fate <;> simp [linesOf, List.filter_map, Function.comp_def, h]

theorem linesOf_sublist (fs : List (Line × Fate)) : (linesOf p fs).Sublist (fs.map Prod.fst) :=
  List.filter_sublist.map Prod.fst

end LinesOf

section Kept

variable {d : Dialect} {skipEmpty : Bool} {limit : Int} {line : Line}
  {pending passed lost rest : List Line} {fields : Record} {warning : Warning}

@[simp] theorem keptLines_nil : keptLines d skipEmpty limit [] = [] := by
  rw [keptLines, fates_nil, linesOf_nil]

@[simp] theorem lostLines_nil : lostLines d skipEmpty limit [] = [] := by
  rw [lostLines, fates_nil, linesOf_nil]

theorem keptLines_blank (h : (skipEmpty && line.text.isEmpty) = true) :
    keptLines d skipEmpty limit (line :: pending) = line :: keptLines d skipEmpty limit pending := by
  simp [keptLines, fates_blank h, Fate.isKept]

theorem lostLines_blank (h : (skipEmpty && line.text.isEmpty) = true) :
    lostLines d skipEmpty limit (line :: pending) = lostLines d skipEmpty limit pending := by
  simp [lostLines, fates_blank h]

theorem keptLines_record (h : (skipEmpty && line.text.isEmpty) = false)
    (hscan : scanRecord d limit ⟨line, line.text, passed ++ rest⟩ = .record fields rest) :
    keptLines d skipEmpty limit (line :: (passed ++ rest)) =
      line :: (passed ++ keptLines d skipEmpty limit rest) := by
  simp only [keptLines, fates_record h hscan, linesOf_append, linesOf_map, Fate.isKept, if_true,
    List.cons_append]

theorem lostLines_record (h : (skipEmpty && line.text.isEmpty) = false)
    (hscan : scanRecord d limit ⟨line, line.text, passed ++ rest⟩ = .record fields rest) :
    lostLines d skipEmpty limit (line :: (passed ++ rest)) = lostLines d skipEmpty limit rest := by
  simp [lostLines, fates_record h hscan, -List.map_cons]

theorem keptLines_unclosed (h : (skipEmpty && line.text.isEmpty) = false)
    (hscan : scanRecord d limit ⟨line, line.text, pending⟩ = .unclosed fields) :
    keptLines d skipEmpty limit (line :: pending) = line :: pending := by
  simp only [keptLines, fates_unclosed h hscan, linesOf_map, Fate.isKept, if_true]

theorem lostLines_unclosed (h : (skipEmpty && line.text.isEmpty) = false)
    (hscan : scanRecord d limit ⟨line, line.text, pending⟩ = .unclosed fields) :
    lostLines d skipEmpty limit (line :: pending) = [] := by
  simp [lostLines, fates_unclosed h hscan, -List.map_cons]

theorem keptLines_malformed (h : (skipEmpty && line.text.isEmpty) = false)
    (hscan : scanRecord d limit ⟨line, line.text, pending⟩ = .malformed warning rest)
    (hlines : line :: pending = lost ++ warning.dropped :: rest) :
    keptLines d skipEmpty limit (line :: pending) = keptLines d skipEmpty limit rest := by
  simp [keptLines, fates_malformed h hscan hlines, Fate.isKept]

theorem lostLines_malformed (h : (skipEmpty && line.text.isEmpty) = false)
    (hscan : scanRecord d limit ⟨line, line.text, pending⟩ = .malformed warning rest)
    (hlines : line :: pending = lost ++ warning.dropped :: rest) :
    lostLines d skipEmpty limit (line :: pending) = lost ++ lostLines d skipEmpty limit rest := by
  simp [lostLines, fates_malformed h hscan hlines]

end Kept

section Laws

variable {d : Dialect} (hd : d.delimiter ≠ []) (skipEmpty : Bool) (limit : Int) (lines : List Line)

include hd

/-- Each line has one fate, and lines stay in order. -/
theorem lines_fates : (fates d skipEmpty limit lines).map Prod.fst = lines := by
  induction course hd skipEmpty limit lines with
  | done => rw [fates_nil, List.map_nil]
  | blank h _ ih => rw [fates_blank h, List.map_cons, ih]
  | record h hlater _ ih =>
      rw [fates_record h (hlater _), List.map_append, List.map_map, ih]
      simp [Function.comp_def]
  | unclosed h hscan =>
      rw [fates_unclosed h hscan, List.map_map]
      simp [Function.comp_def]
  | malformed h hscan hlines _ ih =>
      rw [fates_malformed h hscan hlines, hlines, List.map_append, List.map_cons, ih, List.map_map]
      simp [Function.comp_def]

/-- The lines with the fate of being dropped are those of the warnings. -/
theorem dropped_fates : linesOf (· == .dropped) (fates d skipEmpty limit lines) =
    (division d skipEmpty limit lines).warnings.map Warning.dropped := by
  induction course hd skipEmpty limit lines with
  | done => simp
  | blank h _ ih => simpa [fates_blank h, division_blank h] using ih
  | record h hlater _ ih =>
      simpa [fates_record h (hlater _), division_record hd h (hlater _)] using ih
  | unclosed h hscan => simp [fates_unclosed h hscan, division_unclosed h hscan]
  | malformed h hscan hlines _ ih =>
      simpa [fates_malformed h hscan hlines, division_malformed hd h hscan] using ih

theorem keptLines_sublist : (keptLines d skipEmpty limit lines).Sublist lines := by
  have hsublist := linesOf_sublist Fate.isKept (fates d skipEmpty limit lines)
  rwa [lines_fates hd] at hsublist

theorem dropped_division_sublist :
    ((division d skipEmpty limit lines).warnings.map Warning.dropped).Sublist lines := by
  have hsublist := linesOf_sublist (· == .dropped) (fates d skipEmpty limit lines)
  rwa [lines_fates hd, dropped_fates hd] at hsublist

/-- Each record and each warning takes up a line of its own. -/
theorem length_division_le :
    (division d skipEmpty limit lines).records.length +
      (division d skipEmpty limit lines).warnings.length ≤ lines.length := by
  induction course hd skipEmpty limit lines with
  | done => simp
  | blank h _ ih =>
      rw [division_blank h, List.length_cons]
      omega
  | record h hlater _ ih =>
      rw [division_record hd h (hlater _)]
      simp only [List.length_cons, List.length_append]
      omega
  | unclosed h hscan =>
      rw [division_unclosed h hscan]
      simp
  | malformed h hscan hlines _ ih =>
      rw [division_malformed hd h hscan, hlines]
      simp only [List.length_cons, List.length_append]
      omega

/-- The kept lines alone divide into the same records. -/
theorem division_keptLines : division d skipEmpty limit (keptLines d skipEmpty limit lines) =
    { division d skipEmpty limit lines with warnings := [] } := by
  induction course hd skipEmpty limit lines with
  | done => simp
  | blank h _ ih => rw [keptLines_blank h, division_blank h, division_blank h, ih]
  | record h hlater _ ih =>
      rw [keptLines_record h (hlater _), division_record hd h (hlater _),
        division_record hd h (hlater _), ih]
  | unclosed h hscan => rw [keptLines_unclosed h hscan, division_unclosed h hscan]
  | malformed h hscan hlines _ ih =>
      rw [keptLines_malformed h hscan hlines, division_malformed hd h hscan, ih]

variable {skipEmpty limit lines}

/-- Without a warning every line is kept. -/
theorem keptLines_of_warnings_eq_nil
    (hwarnings : (division d skipEmpty limit lines).warnings = []) :
    keptLines d skipEmpty limit lines = lines := by
  induction course hd skipEmpty limit lines with
  | done => exact keptLines_nil
  | blank h _ ih =>
      rw [division_blank h] at hwarnings
      rw [keptLines_blank h, ih hwarnings]
  | record h hlater _ ih =>
      rw [division_record hd h (hlater _)] at hwarnings
      rw [keptLines_record h (hlater _), ih hwarnings]
  | unclosed h hscan => exact keptLines_unclosed h hscan
  | malformed h hscan _ _ _ => simp [division_malformed hd h hscan] at hwarnings

end Laws

end Delimited
