/- The extent of records: the lines they fill, counted from their fields alone. Where no line holds a
line feed, each line after the first of a record has left one in a value, so the records of a
division tell how many lines it kept (`weight_keptLines`). -/
import Delimited.Proofs.Record.Fates
import Mathlib.Algebra.Ring.Nat
import Mathlib.Tactic.ByContra

namespace Delimited

/-- How many lines there are, without those left out as empty. -/
def weight (skipEmpty : Bool) (lines : List Line) : Nat :=
  lines.countP fun line => !(skipEmpty && line.text.isEmpty)

/-- How many lines a value went on to, without those left out as empty: such a line leaves a line
feed right before another one. -/
def further (skipEmpty : Bool) : Text → Nat
  | [] => 0
  | c :: t =>
    (if c = '\n' ∧ ¬ (skipEmpty = true ∧ t.head? = some '\n') then 1 else 0) + further skipEmpty t

def Field.further (skipEmpty : Bool) (f : Field) : Nat :=
  match f.value with
  | none => 0
  | some value => Delimited.further skipEmpty value

def Record.extent (skipEmpty : Bool) (r : Record) : Nat :=
  1 + (r.map (Field.further skipEmpty)).sum

/-- No text of these lines holds a line feed, as is so of the lines of a file. -/
def NoLineFeed (lines : List Line) : Prop := ∀ line ∈ lines, '\n' ∉ line.text

theorem NoLineFeed.append {earlier later : List Line} :
    NoLineFeed (earlier ++ later) ↔ NoLineFeed earlier ∧ NoLineFeed later :=
  List.forall_mem_append

theorem NoLineFeed.cons {line : Line} {lines : List Line} :
    NoLineFeed (line :: lines) ↔ '\n' ∉ line.text ∧ NoLineFeed lines :=
  List.forall_mem_cons

section Weight

variable {skipEmpty : Bool} {line : Line}

@[simp] theorem weight_nil : weight skipEmpty [] = 0 := rfl

@[simp] theorem weight_append (earlier later : List Line) :
    weight skipEmpty (earlier ++ later) = weight skipEmpty earlier + weight skipEmpty later :=
  List.countP_append

@[simp] theorem weight_false (lines : List Line) : weight false lines = lines.length := by
  simp [weight]

theorem weight_blank (h : (skipEmpty && line.text.isEmpty) = true) (lines : List Line) :
    weight skipEmpty (line :: lines) = weight skipEmpty lines := by
  simpa [weight, List.countP_cons] using h

theorem weight_cons (h : (skipEmpty && line.text.isEmpty) = false) (lines : List Line) :
    weight skipEmpty (line :: lines) = 1 + weight skipEmpty lines := by
  simpa [weight, List.countP_cons, Nat.add_comm] using h

end Weight

section Further

variable (skipEmpty : Bool)

theorem further_append {part : Text} (h : '\n' ∉ part) (t : Text) :
    further skipEmpty (part ++ t) = further skipEmpty t := by
  induction part with
  | nil => rfl
  | cons c part ih =>
      have hc : c ≠ '\n' := fun hc => h (hc ▸ List.mem_cons_self)
      have hpart : '\n' ∉ part := fun hmem => h (List.mem_cons_of_mem c hmem)
      rw [List.cons_append, further, if_neg (fun hlf => hc hlf.1), ih hpart, Nat.zero_add]

theorem further_of_notMem {t : Text} (h : '\n' ∉ t) : further skipEmpty t = 0 := by
  have happend := further_append skipEmpty h []
  rwa [List.append_nil] at happend

theorem further_pos {t : Text} (h : '\n' ∈ t) : 0 < further skipEmpty t := by
  induction t with
  | nil => contradiction
  | cons c t ih =>
      by_cases hmem : '\n' ∈ t
      · exact Nat.add_pos_right _ (ih hmem)
      · have hc : '\n' = c := (List.mem_cons.mp h).resolve_right hmem
        have hhead : t.head? ≠ some '\n' := fun hhead => hmem (List.mem_of_mem_head? hhead)
        rw [further, if_pos ⟨hc.symm, fun hblank => hhead hblank.2⟩]
        omega

/-- A line that a value goes on to counts once, unless it is empty and left out. -/
theorem further_lineEnd {line : Line} {t : Text} {lines : List Line}
    (h : further skipEmpty t = weight skipEmpty lines)
    (hempty : t.head? = some '\n' ↔ line.text = []) :
    further skipEmpty ('\n' :: t) = weight skipEmpty (line :: lines) := by
  rw [further, h]
  cases hblank : skipEmpty && line.text.isEmpty with
  | true =>
      obtain ⟨hskip, hline⟩ : skipEmpty = true ∧ line.text = [] := by simpa using hblank
      rw [weight_blank hblank, if_neg (by simp [hskip, hempty.mpr hline]), Nat.zero_add]
  | false =>
      have hkept : ¬ (skipEmpty = true ∧ t.head? = some '\n') := by
        rintro ⟨hskip, hlf⟩
        simp [hskip, hempty.mp hlf] at hblank
      rw [weight_cons hblank, if_pos ⟨rfl, hkept⟩]

end Further

/-! ### What a scan leaves of its line -/

theorem subset_of_cutBare (delimiter t : Text) :
    (cutBare delimiter t).1 ⊆ t ∧ ∀ rest ∈ (cutBare delimiter t).2, rest ⊆ t := by
  refine ⟨?_, fun rest hrest => (suffix_of_cutBare hrest).subset⟩
  fun_induction cutBare delimiter t with
  | case1 => exact List.Subset.refl _
  | case2 c t rest h => exact List.nil_subset _
  | case3 c t h ih => exact List.cons_subset_cons c ih

theorem subset_of_closing {delimiter t : Text} {rest : Option Text}
    (h : closing delimiter t = .ended rest) : ∀ r ∈ rest, r ⊆ t := by
  rintro r rfl
  exact (suffix_of_closing h).subset

/-- What a column is opened with is not more than what stood there. -/
def Opening.rest : Opening → Text
  | .bare rest | .quoted _ rest => rest

theorem subset_of_opening (d : Dialect) (trim : Bool) (t : Text) :
    (opening d trim t).rest ⊆ t := by
  have hspace : ∀ t, (opening.afterSpace d t).rest ⊆ t := by
    intro t
    fun_induction opening.afterSpace d t with
    | case1 | case2 | case5 => exact List.Subset.refl _
    | case3 c t => exact List.subset_cons_self c t
    | case4 c t _ _ _ ih => exact List.subset_cons_of_subset c ih
  fun_cases opening d trim t with
  | case1 | case2 | case5 => exact List.Subset.refl _
  | case3 c t => exact List.subset_cons_of_subset c (hspace t)
  | case4 c t => exact List.subset_cons_self c t

theorem subset_of_trimRight (t : Text) : Text.trimRight t ⊆ t := by
  fun_induction Text.trimRight t with
  | case1 => exact List.Subset.refl _
  | case2 c t h hspace => exact List.nil_subset _
  | case3 c t h hspace => exact List.cons_subset_cons c (List.nil_subset _)
  | case4 c t h ih => exact List.cons_subset_cons c ih

/-- The part in one line is made of code points of the line; only an empty line makes an empty
part without the closing quote. -/
theorem cutQuoted_part (quote : Char) (escape : Option Char) (limit : Int) (size : Nat) (t : Text) :
    (cutQuoted quote escape limit size t).1 ⊆ t ∧
      (∀ rest, (cutQuoted quote escape limit size t).2 = .closed rest → rest ⊆ t ∧ t ≠ []) ∧
      ((cutQuoted quote escape limit size t).2 = .lineEnd →
        ((cutQuoted quote escape limit size t).1 = [] ↔ t = [])) := by
  fun_induction cutQuoted quote escape limit size t <;> grind

/-! ### The extent of a field and of a record -/

theorem notMem_getD {c : Char} {t : Text} {rest : Option Text} (ht : c ∉ t)
    (h : ∀ r ∈ rest, r ⊆ t) : c ∉ rest.getD [] := by
  cases rest with
  | none => exact List.not_mem_nil
  | some r => exact fun hc => ht (h r rfl hc)

section Scans

variable {d : Dialect} {limit : Int} {quoted : Bool} {stop : Cursor} (skipEmpty : Bool)

/-- What a quoted value grows by: a line feed for each line it goes on to, and none else. -/
theorem scanQuoted_extent {quote : Char} {value value' : Text} {earlier : List Line} {line : Line}
    {rest : Text} {pending : List Line} (hrest : '\n' ∉ rest) (hpending : NoLineFeed pending)
    (h : (scanQuoted d quote limit value earlier line rest pending).ended =
      some (value', quoted, stop)) :
    ∃ tail passed, value' = value ++ tail ∧ quoted = true ∧ pending = passed ++ stop.pending ∧
      further skipEmpty tail = weight skipEmpty passed ∧ (passed ≠ [] → '\n' ∈ tail) ∧
      (tail.head? = some '\n' ↔ rest = []) ∧ '\n' ∉ stop.rest := by
  fun_induction scanQuoted d quote limit value earlier line rest pending with
  | case1 value earlier line rest part rest' pending hcut rest'' hclose =>
      obtain ⟨hpart, hclosed, -⟩ := cutQuoted_part quote d.escapeMark limit value.length rest
      rw [hcut] at hpart hclosed
      obtain ⟨hrest', hne⟩ := hclosed rest' rfl
      have hlf : '\n' ∉ part := fun hmem => hrest (hpart hmem)
      obtain ⟨rfl, rfl, rfl⟩ : value ++ part = value' ∧ true = quoted ∧ _ = stop := by
        simpa using h
      refine ⟨part, [], rfl, rfl, rfl, further_of_notMem skipEmpty hlf, ?_, ?_, ?_⟩
      · exact fun hne => absurd rfl hne
      · exact iff_of_false (fun hhead => hlf (List.mem_of_mem_head? hhead)) hne
      · exact notMem_getD (fun hmem => hrest (hrest' hmem)) (subset_of_closing hclose)
  | case2 | case3 | case4 => simp [Scan.ended] at h
  | case5 value earlier line rest part next pending hcut ih =>
      obtain ⟨hpart, -, hempty⟩ := cutQuoted_part quote d.escapeMark limit value.length rest
      rw [hcut] at hpart hempty
      have hlf : '\n' ∉ part := fun hmem => hrest (hpart hmem)
      obtain ⟨hnext, hpending'⟩ := NoLineFeed.cons.mp hpending
      obtain ⟨tail, passed, rfl, rfl, rfl, hextent, -, hhead, hstop⟩ := ih hnext hpending' h
      refine ⟨part ++ '\n' :: tail, next :: passed, ?_, rfl, rfl, ?_, ?_, ?_, hstop⟩
      · simp only [List.append_assoc, List.singleton_append]
      · rw [further_append skipEmpty hlf]
        exact further_lineEnd skipEmpty hextent hhead
      · exact fun _ => List.mem_append_right part List.mem_cons_self
      · rw [← hempty rfl]
        cases part with
        | nil => simp
        | cons c part =>
            have hc : c ≠ '\n' := fun hc => hlf (hc ▸ List.mem_cons_self)
            simp [hc]

theorem scanColumn_extent (hd : d.delimiter ≠ []) {start : Cursor} {value : Text}
    (hrest : '\n' ∉ start.rest) (hpending : NoLineFeed start.pending)
    (h : (scanColumn d limit start).ended = some (value, quoted, stop)) :
    ∃ passed, start.pending = passed ++ stop.pending ∧
      (Field.read d value quoted).further skipEmpty = weight skipEmpty passed ∧
      (passed ≠ [] → 0 < weight skipEmpty passed) ∧ '\n' ∉ stop.rest := by
  obtain ⟨line, rest, pending⟩ := start
  have hopening := subset_of_opening d d.trim rest
  cases ho : opening d d.trim rest with
  | bare t =>
      rw [ho] at hopening
      rw [scanColumn_bare hd ho] at h
      obtain ⟨hfield, hleft⟩ := subset_of_cutBare d.delimiter t
      have ht : '\n' ∉ t := fun hmem => hrest (hopening hmem)
      obtain ⟨hvalue, rfl, rfl⟩ : _ = value ∧ false = quoted ∧ _ = stop := by
        simpa using h
      have hlf : '\n' ∉ value := by
        rw [← hvalue]
        split
        · exact fun hmem => ht (hfield (subset_of_trimRight _ hmem))
        · exact fun hmem => ht (hfield hmem)
      refine ⟨[], rfl, ?_, fun hne => absurd rfl hne, notMem_getD ht hleft⟩
      rw [Field.read]
      split
      · rfl
      · exact further_of_notMem skipEmpty hlf
  | quoted quote t =>
      rw [ho] at hopening
      rw [scanColumn_quoted hd ho] at h
      have ht : '\n' ∉ t := fun hmem => hrest (hopening hmem)
      obtain ⟨tail, passed, rfl, rfl, hpassed, hextent, hlf, -, hstop⟩ :=
        scanQuoted_extent skipEmpty ht hpending h
      refine ⟨passed, hpassed, hextent, ?_, hstop⟩
      intro hne
      rw [← hextent]
      exact further_pos skipEmpty (hlf hne)

/-- The lines that a record goes on to are counted from its fields. -/
theorem scanRecord_extent (hd : d.delimiter ≠ []) {start : Cursor} {fields : Record}
    {left : List Line} (hrest : '\n' ∉ start.rest) (hpending : NoLineFeed start.pending)
    (h : scanRecord d limit start = .record fields left) :
    ∃ passed, start.pending = passed ++ left ∧
      (fields.map (Field.further skipEmpty)).sum = weight skipEmpty passed ∧
      (passed ≠ [] → 0 < weight skipEmpty passed) := by
  fun_induction scanRecord d limit start generalizing fields left with
  | case1 start value quoted earlier stop hscan ih =>
      obtain ⟨passed, hpassed, hextent, hpos, hstop⟩ :=
        scanColumn_extent skipEmpty hd hrest hpending (by rw [hscan]; rfl)
      obtain ⟨-, hlater⟩ := NoLineFeed.append.mp (hpassed ▸ hpending)
      cases hscan' : scanRecord d limit stop with
      | record fields' left' =>
          rw [hscan'] at h
          obtain ⟨rfl, rfl⟩ : _ :: fields' = fields ∧ left' = left := by
            simpa [RecordScan.cons] using h
          obtain ⟨passed', hpassed', hextent', hpos'⟩ := ih hstop hlater hscan'
          refine ⟨passed ++ passed', by rw [hpassed, hpassed', List.append_assoc], ?_, ?_⟩
          · rw [List.map_cons, List.sum_cons, hextent, hextent', weight_append]
          · intro hne
            rw [weight_append]
            by_cases hnil : passed = []
            · rw [hnil, List.nil_append] at hne
              exact Nat.add_pos_right _ (hpos' hne)
            · exact Nat.add_pos_left (hpos hnil) _
      | unclosed | malformed | undivided => simp [hscan', RecordScan.cons] at h
  | case2 start value quoted earlier stop hscan =>
      obtain ⟨passed, hpassed, hextent, hpos, -⟩ :=
        scanColumn_extent skipEmpty hd hrest hpending (by rw [hscan]; rfl)
      obtain ⟨rfl, rfl⟩ : [_] = fields ∧ stop.pending = left := by simpa using h
      refine ⟨passed, hpassed, ?_, hpos⟩
      rw [List.map_singleton, List.sum_singleton, hextent]
  | case3 | case4 | case5 => simp at h

/-- The fields before an open quote fill no more lines than there are. -/
theorem sum_further_le_of_unclosed (hd : d.delimiter ≠ []) {start : Cursor} {fields : Record}
    (hrest : '\n' ∉ start.rest) (hpending : NoLineFeed start.pending)
    (h : scanRecord d limit start = .unclosed fields) :
    (fields.map (Field.further skipEmpty)).sum ≤ weight skipEmpty start.pending := by
  fun_induction scanRecord d limit start generalizing fields with
  | case1 start value quoted earlier stop hscan ih =>
      obtain ⟨passed, hpassed, hextent, -, hstop⟩ :=
        scanColumn_extent skipEmpty hd hrest hpending (by rw [hscan]; rfl)
      obtain ⟨-, hlater⟩ := NoLineFeed.append.mp (hpassed ▸ hpending)
      cases hscan' : scanRecord d limit stop with
      | unclosed fields' =>
          rw [hscan'] at h
          obtain rfl : _ :: fields' = fields := by simpa [RecordScan.cons] using h
          have hle := ih hstop hlater hscan'
          rw [List.map_cons, List.sum_cons, hextent, hpassed, weight_append]
          omega
      | record | malformed | undivided => simp [hscan', RecordScan.cons] at h
  | case3 start earlier number hscan =>
      obtain rfl : [] = fields := by simpa using h
      exact Nat.zero_le _
  | case2 | case4 | case5 => simp at h

end Scans

/-! ### The extent of a division -/

section Divisions

variable {d : Dialect} {skipEmpty : Bool} {limit : Int} {lines : List Line}

/-- The records of a division that ended tell how many lines it kept. -/
theorem weight_keptLines (hd : d.delimiter ≠ []) (hlines : NoLineFeed lines)
    (hopen : (division d skipEmpty limit lines).openEnd = false) :
    weight skipEmpty (keptLines d skipEmpty limit lines) =
      ((division d skipEmpty limit lines).records.map (Record.extent skipEmpty)).sum := by
  induction course hd skipEmpty limit lines with
  | done => simp
  | blank h _ ih =>
      obtain ⟨-, hpending⟩ := NoLineFeed.cons.mp hlines
      rw [division_blank h] at hopen ⊢
      rw [keptLines_blank h, weight_blank h, ih hpending hopen]
  | @record line passed rest fields h hlater _ ih =>
      obtain ⟨hline, hpending⟩ := NoLineFeed.cons.mp hlines
      obtain ⟨passed', hpassed', hextent, -⟩ :=
        scanRecord_extent skipEmpty hd hline hpending (hlater rest)
      obtain rfl : passed = passed' := List.append_cancel_right hpassed'
      rw [division_record hd h (hlater _)] at hopen ⊢
      rw [keptLines_record h (hlater _), weight_cons h, weight_append, ← hextent,
        ih (NoLineFeed.append.mp hpending).2 hopen, List.map_cons, List.sum_cons, Record.extent,
        Nat.add_assoc]
  | unclosed h hscan => simp [division_unclosed h hscan] at hopen
  | malformed h hscan hfates _ ih =>
      rw [hfates] at hlines
      obtain ⟨-, hrest⟩ := NoLineFeed.cons.mp (NoLineFeed.append.mp hlines).2
      rw [division_malformed hd h hscan] at hopen ⊢
      rw [keptLines_malformed h hscan hfates, ih hrest hopen]

/-- Also the records of a division that did not end fill no more lines than it kept. -/
theorem sum_extent_le (hd : d.delimiter ≠ []) (hlines : NoLineFeed lines) :
    ((division d skipEmpty limit lines).records.map (Record.extent skipEmpty)).sum ≤
      weight skipEmpty (keptLines d skipEmpty limit lines) := by
  induction course hd skipEmpty limit lines with
  | done => simp
  | blank h _ ih =>
      obtain ⟨-, hpending⟩ := NoLineFeed.cons.mp hlines
      rw [division_blank h, keptLines_blank h, weight_blank h]
      exact ih hpending
  | @record line passed rest fields h hlater _ ih =>
      obtain ⟨hline, hpending⟩ := NoLineFeed.cons.mp hlines
      obtain ⟨passed', hpassed', hextent, -⟩ :=
        scanRecord_extent skipEmpty hd hline hpending (hlater rest)
      obtain rfl : passed = passed' := List.append_cancel_right hpassed'
      have hle := ih (NoLineFeed.append.mp hpending).2
      rw [division_record hd h (hlater _), keptLines_record h (hlater _), weight_cons h,
        weight_append, List.map_cons, List.sum_cons, Record.extent, hextent]
      omega
  | unclosed h hscan =>
      obtain ⟨hline, hpending⟩ := NoLineFeed.cons.mp hlines
      have hle := sum_further_le_of_unclosed skipEmpty hd hline hpending hscan
      rw [division_unclosed h hscan, keptLines_unclosed h hscan, weight_cons h, List.map_singleton,
        List.sum_singleton, Record.extent]
      exact Nat.add_le_add_left hle 1
  | malformed h hscan hfates _ ih =>
      rw [hfates] at hlines
      obtain ⟨-, hrest⟩ := NoLineFeed.cons.mp (NoLineFeed.append.mp hlines).2
      rw [division_malformed hd h hscan, keptLines_malformed h hscan hfates]
      exact ih hrest

/-- Lines are lost only as the first ones of a record, and that one is not left out as empty. -/
theorem weight_lostLines_pos (hd : d.delimiter ≠ [])
    (hlost : lostLines d skipEmpty limit lines ≠ []) :
    0 < weight skipEmpty (lostLines d skipEmpty limit lines) := by
  induction course hd skipEmpty limit lines with
  | done => simp at hlost
  | blank h _ ih =>
      rw [lostLines_blank h] at hlost ⊢
      exact ih hlost
  | record h hlater _ ih =>
      rw [lostLines_record h (hlater _)] at hlost ⊢
      exact ih hlost
  | unclosed h hscan => simp [lostLines_unclosed h hscan] at hlost
  | @malformed line pending lost rest warning h hscan hfates _ ih =>
      rw [lostLines_malformed h hscan hfates] at hlost ⊢
      rw [weight_append]
      cases lost with
      | nil => exact Nat.add_pos_right _ (ih hlost)
      | cons first lost =>
          obtain ⟨rfl, -⟩ := List.cons.inj hfates
          rw [weight_cons h]
          omega

/-- Where a reading of further lines makes the records after the first one, the first line is a
record of its own. -/
theorem scanRecord_of_records_eq_drop (hd : d.delimiter ≠ []) {line : Line} {pending : List Line}
    (hlines : NoLineFeed (line :: pending))
    (hopen : (division d skipEmpty limit (line :: pending)).openEnd = false)
    (hopen' : (division d skipEmpty limit pending).openEnd = false)
    (hwarnings : (division d skipEmpty limit (line :: pending)).warnings = [])
    (hwarnings' : (division d skipEmpty limit pending).warnings = [])
    (hne : (division d skipEmpty limit (line :: pending)).records ≠ [])
    (hrecords : (division d skipEmpty limit pending).records =
      (division d skipEmpty limit (line :: pending)).records.drop 1) :
    (skipEmpty && line.text.isEmpty) = false ∧
      ∃ fields, scanRecord d limit ⟨line, line.text, pending⟩ = .record fields pending := by
  obtain ⟨hline, hpending⟩ := NoLineFeed.cons.mp hlines
  have hall := weight_keptLines hd hlines hopen
  have hlater := weight_keptLines hd hpending hopen'
  obtain ⟨first, others, hcons⟩ := List.exists_cons_of_ne_nil hne
  rw [keptLines_of_warnings_eq_nil hd hwarnings, hcons, List.map_cons, List.sum_cons,
    Record.extent] at hall
  rw [keptLines_of_warnings_eq_nil hd hwarnings', hrecords, hcons, List.drop_one,
    List.tail_cons] at hlater
  have hblank : (skipEmpty && line.text.isEmpty) = false := by
    by_contra h
    rw [weight_blank (by simpa using h)] at hall
    omega
  rw [weight_cons hblank] at hall
  refine ⟨hblank, ?_⟩
  cases hscan : scanRecord d limit ⟨line, line.text, pending⟩ with
  | record fields left =>
      obtain ⟨passed, hpassed, hextent, hpos⟩ :=
        scanRecord_extent skipEmpty hd hline hpending hscan
      rw [division_record hd hblank hscan] at hcons
      obtain rfl : fields = first := (List.cons.inj hcons).1
      have hnone : passed = [] := by
        by_contra hsome
        have := hpos hsome
        omega
      rw [hnone, List.nil_append] at hpassed
      obtain rfl : pending = left := hpassed
      exact ⟨fields, rfl⟩
  | unclosed fields => simp [division_unclosed hblank hscan] at hopen
  | malformed warning left => simp [division_malformed hd hblank hscan] at hwarnings
  | undivided => exact absurd hscan (scanRecord_ne_undivided hd limit _)

end Divisions

end Delimited
