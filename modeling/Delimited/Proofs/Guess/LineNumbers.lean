/- The numbers of lines do not reach a guess. Each stage gives the same for lines under other
numbers (`make_renumbered`), so samples of the same texts give the same fragment, however their
lines are numbered (`guess_of_same_texts`). -/
import Delimited.Proofs.Guess.Stages
import Delimited.Proofs.Record.Renumbered

namespace Delimited

variable (f : Int → Int)

namespace Evidence

/-- A filter that looks at texts keeps the same lines under any numbers. -/
theorem filter_text_renumbered (keep : Text → Bool) (lines : List Line) :
    (lines.map (Line.renumbered f)).filter (fun line => keep line.text) =
      (lines.filter fun line => keep line.text).map (Line.renumbered f) := by
  rw [List.filter_map]
  rfl

theorem dropComments_renumbered (marker : Text) (lines : List Line) :
    dropComments marker (lines.map (Line.renumbered f)) =
      (dropComments marker lines).map (Line.renumbered f) :=
  filter_text_renumbered f (fun t => !Text.startsWith marker t) lines

theorem unmarked_renumbered (delimiter : Text) (quote nullString : Option Text) (marker : Text)
    (lines : List Line) :
    unmarked delimiter quote nullString marker (lines.map (Line.renumbered f)) =
      (unmarked delimiter quote nullString marker lines).map (Line.renumbered f) :=
  filter_text_renumbered f
    (fun t => !(Text.startsWith marker t && !isData delimiter quote nullString t)) lines

theorem commentMarker_renumbered (c : Tunables) (delimiter : Text) (quote nullString : Option Text)
    (lines : List Line) :
    commentMarker c delimiter quote nullString (lines.map (Line.renumbered f)) =
      (commentMarker c delimiter quote nullString lines).map id (List.map (Line.renumbered f)) := by
  simp only [commentMarker, unmarked_renumbered, List.length_map]
  split <;> rfl

end Evidence

def SkipPlan.renumbered (plan : SkipPlan) : SkipPlan :=
  { plan with lines := plan.lines.map (Line.renumbered f) }

theorem SkipPlan.lines_renumbered (plan : SkipPlan) :
    (plan.renumbered f).lines = plan.lines.map (Line.renumbered f) := rfl

def Guess.renumbered (g : Guess) : Guess :=
  { g with
    skipPlan := g.skipPlan.renumbered f
    warnings := g.warnings.map (Warning.renumbered f) }

namespace Guess

variable {c : Tunables} {o : Overrides} {d : Dialect}

theorem divide_renumbered (skipEmpty : Bool) (lines : List Line) :
    divide c d skipEmpty (lines.map (Line.renumbered f)) =
      (divide c d skipEmpty lines).map (Division.renumbered f) := by
  rw [divide, split_renumbered, divide]
  cases split d skipEmpty c.maxQuotedSize lines <;> rfl

theorem chooseMarker_renumbered (lines : List Line) :
    chooseMarker c o d (lines.map (Line.renumbered f)) =
      (chooseMarker c o d lines).map id (List.map (Line.renumbered f)) := by
  unfold chooseMarker
  split
  · rfl
  · rw [Evidence.dropComments_renumbered]
    rfl
  · exact Evidence.commentMarker_renumbered f c d.delimiter d.quote d.nullString lines

theorem planSkip_renumbered (lines : List Line) :
    planSkip c o d (lines.map (Line.renumbered f)) =
      (planSkip c o d lines).map (SkipPlan.renumbered f) := by
  simp only [planSkip_eq, divide_renumbered, ← List.map_drop, chooseMarker_renumbered]
  cases divide c d false lines <;> rfl

theorem tuneTrim_renumbered (plan : SkipPlan) (types : List ColumnType) (bodyStart : Nat) :
    tuneTrim c (plan.renumbered f) d types bodyStart = tuneTrim c plan d types bodyStart := by
  simp only [tuneTrim, SkipPlan.renumbered, divide_renumbered]
  cases divide c { d with trim := true } true plan.lines <;> rfl

theorem readTable_renumbered (plan : SkipPlan) (rows : List (List (Option Text))) :
    readTable c o (plan.renumbered f) d rows = readTable c o plan d rows := by
  have htrim : ∀ types bodyStart, chooseTrim c o (plan.renumbered f) d types bodyStart =
      chooseTrim c o plan d types bodyStart := by
    intro types bodyStart
    simp only [chooseTrim, tuneTrim_renumbered]
  match rows with
  | [] => rfl
  | [row] => simp only [readTable, htrim]
  | first :: second :: body => simp only [readTable, htrim]

/-- A guess from lines under other numbers is the same guess, with its lines and warnings under the
other numbers. -/
theorem make_renumbered (lines : List Line) :
    make c o (lines.map (Line.renumbered f)) =
      (make c o lines).map (Option.map (Guess.renumbered f)) := by
  unfold make
  rw [Line.map_text_renumbered]
  refine bind_eq_map fun ⟨d, escapeResolved⟩ => ?_
  simp only [planSkip_renumbered]
  refine map_bind_eq_map fun plan => ?_
  simp only [SkipPlan.lines_renumbered, divide_renumbered]
  refine map_bind_eq_map fun final => ?_
  simp only [Division.rows_renumbered, readTable_renumbered]
  cases final.rows with
  | nil => rfl
  | cons first body =>
      refine bind_eq_map fun ⟨d', header, types⟩ => ?_
      cases types.isEmpty <;> rfl

/-- Two guesses that may differ in the numbers of their lines, and in nothing else. -/
structure SameButNumbers (g g' : Guess) : Prop where
  dialect : g.dialect = g'.dialect
  escapeResolved : g.escapeResolved = g'.escapeResolved
  skipped : g.skipPlan.skipped = g'.skipPlan.skipped
  commentMarker : g.skipPlan.commentMarker = g'.skipPlan.commentMarker
  texts : g.skipPlan.lines.map Line.text = g'.skipPlan.lines.map Line.text
  header : g.header = g'.header
  columns : g.columns = g'.columns
  allowExtraColumns : g.allowExtraColumns = g'.allowExtraColumns
  allowOptionalColumns : g.allowOptionalColumns = g'.allowOptionalColumns
  dropped : g.warnings.map (fun w => w.dropped.text) = g'.warnings.map (fun w => w.dropped.text)
  faults : g.warnings.map Warning.fault = g'.warnings.map Warning.fault
  base : g.base = g'.base

theorem sameButNumbers_of_renumbered_eq {g g' : Guess} (h : g.renumbered f = g'.renumbered f) :
    SameButNumbers g g' := by
  have hview : ∀ {α : Type} (view : Guess → α),
      view (g.renumbered f) = view (g'.renumbered f) := fun view => congrArg view h
  have htexts := hview fun g => g.skipPlan.lines.map Line.text
  have hdropped := hview fun g => g.warnings.map fun w => w.dropped.text
  have hfaults := hview fun g => g.warnings.map Warning.fault
  simp only [renumbered, SkipPlan.lines_renumbered, Line.map_text_renumbered] at htexts
  simp only [renumbered, List.map_map, Function.comp_def, Warning.renumbered,
    Line.text_renumbered] at hdropped hfaults
  exact {
    dialect := hview Guess.dialect
    escapeResolved := hview Guess.escapeResolved
    skipped := hview fun g => g.skipPlan.skipped
    commentMarker := hview fun g => g.skipPlan.commentMarker
    texts := htexts
    header := hview Guess.header
    columns := hview Guess.columns
    allowExtraColumns := hview Guess.allowExtraColumns
    allowOptionalColumns := hview Guess.allowOptionalColumns
    dropped := hdropped
    faults := hfaults
    base := hview Guess.base }

theorem ofLines_renumbered (settings : Value) (lines : List Line) :
    ofLines c settings (lines.map (Line.renumbered f)) =
      (ofLines c settings lines).map (Option.map (Guess.renumbered f)) := by
  unfold ofLines
  refine bind_eq_map fun type => ?_
  split
  · rfl
  · exact bind_eq_map fun o => make_renumbered f lines

/-- Numbered alike, the lines of samples are told apart by their texts alone. -/
theorem lines_numbered_alike {sample sample' : List SampleItem}
    (h : sample.map SampleItem.text = sample'.map SampleItem.text) (n : Int) :
    (SampleItem.lines sample).map (Line.renumbered fun _ => n) =
      (SampleItem.lines sample').map (Line.renumbered fun _ => n) := by
  have hnumbered : ∀ lines : List Line, lines.map (Line.renumbered fun _ => n) =
      (lines.map Line.text).map fun t => ⟨n, t⟩ := by
    intro lines
    rw [List.map_map]
    rfl
  rw [hnumbered, hnumbered, SampleItem.map_text_lines, SampleItem.map_text_lines, h]

end Guess

end Delimited
