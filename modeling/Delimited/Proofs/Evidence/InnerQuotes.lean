/- Quotes after something else. A quote counts as data where it comes up after the start of a line
or after a delimiter, and not right there; a delimiter between quotes counts like any other. So a
line of neat fields has such a quote just when a bare field stands before a quoted one, or a quoted
field holds the delimiter before its last code point (`quoteIsData_neat_iff`). -/
import Delimited.Proofs.Text.Pattern
import Delimited.Evidence.Quote

namespace Delimited.Evidence

/-- The quote comes up in a text, and not at its start. -/
def ComesUp (quote : Char) (t : Text) : Prop := quote ∈ t ∧ t.head? ≠ some quote

/-- The quote comes up in the line or in what follows one of its delimiters. -/
def HasInner (delimiter quote : Char) (line : Text) : Prop :=
  ComesUp quote line ∨ ∃ u, delimiter :: u <:+ line ∧ ComesUp quote u

theorem comesUp_iff {quote : Char} {t : Text} :
    ComesUp quote t ↔ ∃ c u v, (∀ x ∈ c :: u, x ≠ quote) ∧ t = c :: u ++ quote :: v := by
  constructor
  · rintro ⟨hmem, hhead⟩
    obtain ⟨u, v, rfl, hu⟩ := List.eq_append_cons_of_mem hmem
    cases u with
    | nil => exact absurd rfl hhead
    | cons c u => exact ⟨c, u, v, fun x hx h => hu (h ▸ hx), rfl⟩
  · rintro ⟨c, u, v, hu, rfl⟩
    refine ⟨List.mem_append_right _ (.head v), fun hhead => ?_⟩
    exact hu c (.head u) (Option.some.inj hhead)

/-- White space before it makes no difference, since no quote is white space. -/
theorem comesUp_afterBlanks_iff {quote : Char} (hquote : Text.isBlank quote = false) {t : Text} :
    ComesUp quote t ↔ ∃ space c u v, (∀ x ∈ space, Text.isBlank x = true) ∧
      (∀ x ∈ c :: u, x ≠ quote) ∧ t = space ++ c :: u ++ quote :: v := by
  rw [comesUp_iff]
  constructor
  · rintro ⟨c, u, v, hu, rfl⟩
    exact ⟨[], c, u, v, nofun, hu, rfl⟩
  · rintro ⟨space, c, u, v, hspace, hu, rfl⟩
    have hclear : ∀ x ∈ space ++ c :: u, x ≠ quote := by
      intro x hx
      obtain hx | hx := List.mem_append.mp hx
      · rintro rfl
        exact absurd (hspace x hx) (by simp [hquote])
      · exact hu x hx
    cases space with
    | nil => exact ⟨c, u, v, hclear, rfl⟩
    | cons c' space => exact ⟨c', space ++ c :: u, v, hclear, rfl⟩

theorem occurs_innerQuote_iff {delimiter quote : Char} (hquote : Text.isBlank quote = false)
    {line : Text} :
    (innerQuote [delimiter] [quote]).occurs line = true ↔ HasInner delimiter quote line := by
  have hother : ∀ c, (!([quote].contains c)) = true ↔ c ≠ quote := by simp
  have hhere : ∀ t, (∃ rest, rest ∈ Pattern.both blanks (Pattern.both (Pattern.both
      (Pattern.one (Pattern.before fun c => !([quote].contains c)))
      (Pattern.run (Pattern.before fun c => !([quote].contains c)))) (Pattern.literal [quote]))
        false t) ↔ ComesUp quote t := by
    intro t
    simp only [blanks, Pattern.mem_both, Pattern.mem_run, Pattern.mem_one, Pattern.mem_literal,
      hother, comesUp_afterBlanks_iff hquote]
    constructor
    · rintro ⟨rest, _, ⟨space, hspace, rfl⟩, _, ⟨_, ⟨c, hc, rfl⟩, u, hu, rfl⟩, rfl⟩
      exact ⟨space, c, u, rest, hspace, List.forall_mem_cons.mpr ⟨hc, hu⟩, by simp⟩
    · rintro ⟨space, c, u, v, hspace, hu, rfl⟩
      obtain ⟨hc, hu⟩ := List.forall_mem_cons.mp hu
      exact ⟨v, _, ⟨space, hspace, List.append_assoc ..⟩, quote :: v,
        ⟨_, ⟨c, hc, rfl⟩, u, hu, rfl⟩, rfl⟩
  rw [innerQuote, fieldStart, Pattern.occurs_start_or_iff]
  simp only [hhere, List.singleton_append, HasInner]

/-! ### Lines of neat fields -/

/-- A field, to be written bare or between quotes. -/
inductive Cell
  | bare (t : Text)
  | quoted (body : Text)

namespace Cell

def isQuoted : Cell → Bool
  | .bare _ => false
  | .quoted _ => true

def text (quote : Char) : Cell → Text
  | .bare t => t
  | .quoted body => quote :: body ++ [quote]

/-- No quote stands inside, and a bare field holds no delimiter. -/
def IsNeat (delimiter quote : Char) : Cell → Prop
  | .bare t => quote ∉ t ∧ delimiter ∉ t
  | .quoted body => quote ∉ body

/-- The delimiter stands in it only right before its closing quote. -/
def IsSettled (delimiter : Char) : Cell → Prop
  | .bare _ => True
  | .quoted body => delimiter ∉ body.dropLast

end Cell

/-- The cells with the delimiter between them. -/
def lineOf (delimiter quote : Char) (cells : List Cell) : Text :=
  [delimiter].intercalate (cells.map (Cell.text quote))

/-- The quoted cells come first, and no delimiter in them could be taken for the start of a
field. -/
def IsUnmistaken (delimiter : Char) (cells : List Cell) : Prop :=
  cells.Pairwise (fun a b => b.isQuoted = true → a.isQuoted = true) ∧
    ∀ cell ∈ cells, cell.IsSettled delimiter

variable {delimiter quote : Char} {cells : List Cell}

theorem lineOf_singleton (cell : Cell) : lineOf delimiter quote [cell] = cell.text quote := by
  rw [lineOf, List.map_singleton, List.intercalate_singleton]

theorem lineOf_cons_cons (cell next : Cell) (cells : List Cell) :
    lineOf delimiter quote (cell :: next :: cells) =
      cell.text quote ++ delimiter :: lineOf delimiter quote (next :: cells) := by
  simp only [lineOf, List.map_cons, List.intercalate_cons_cons, List.append_assoc,
    List.singleton_append]

theorem quote_mem_text_iff {cell : Cell} (hneat : cell.IsNeat delimiter quote) :
    quote ∈ cell.text quote ↔ cell.isQuoted = true := by
  cases cell with
  | bare t => simpa [Cell.text, Cell.isQuoted] using hneat.1
  | quoted body => simp [Cell.text, Cell.isQuoted]

theorem quote_mem_lineOf_iff (happart : delimiter ≠ quote)
    (hneat : ∀ cell ∈ cells, cell.IsNeat delimiter quote) :
    quote ∈ lineOf delimiter quote cells ↔ ∃ cell ∈ cells, cell.isQuoted = true := by
  induction cells with
  | nil => simp [lineOf]
  | cons cell cells ih =>
      obtain ⟨hcell, hcells⟩ := List.forall_mem_cons.mp hneat
      cases cells with
      | nil => rw [lineOf_singleton, quote_mem_text_iff hcell]; simp
      | cons next cells =>
          rw [lineOf_cons_cons, List.mem_append, List.mem_cons, quote_mem_text_iff hcell, ih hcells]
          simp [happart.symm]

/-! #### What follows a delimiter -/

theorem cons_suffix_append_iff {x t u : Text} : delimiter :: u <:+ x ++ delimiter :: t ↔
    (∃ v, delimiter :: v <:+ x ∧ v ++ delimiter :: t = u) ∨ t = u ∨ delimiter :: u <:+ t := by
  induction x with
  | nil => simp [List.suffix_cons_iff, eq_comm]
  | cons c x ih =>
      rw [List.cons_append, List.suffix_cons_iff, ih]
      simp only [List.suffix_cons_iff, List.cons.injEq]
      grind

/-- The delimiters of a line are those in its first field, the one after it, and those further
on. -/
theorem hasInner_append_iff {x t : Text} : HasInner delimiter quote (x ++ delimiter :: t) ↔
    ComesUp quote (x ++ delimiter :: t) ∨
      (∃ v, delimiter :: v <:+ x ∧ ComesUp quote (v ++ delimiter :: t)) ∨
        HasInner delimiter quote t := by
  simp only [HasInner, cons_suffix_append_iff]
  grind

theorem HasInner.mem {t : Text} (h : HasInner delimiter quote t) : quote ∈ t := by
  obtain h | ⟨u, hu, h⟩ := h
  · exact h.1
  · exact hu.subset (.tail _ h.1)

theorem mem_dropLast_iff {α : Type} {a : α} {l : List α} :
    a ∈ l.dropLast ↔ ∃ u b v, l = u ++ a :: b :: v := by
  induction l with
  | nil => simp
  | cons c l ih =>
      cases l with
      | nil =>
          refine iff_of_false List.not_mem_nil ?_
          rintro ⟨u, b, v, h⟩
          have hlength := congrArg List.length h
          simp only [List.length_cons, List.length_nil, List.length_append] at hlength
          omega
      | cons b l =>
          rw [List.dropLast_cons_cons, List.mem_cons, ih]
          constructor
          · rintro (rfl | ⟨u, b', v, h⟩)
            · exact ⟨[], b, l, rfl⟩
            · exact ⟨c :: u, b', v, by rw [h, List.cons_append]⟩
          · rintro ⟨u, b', v, h⟩
            cases u with
            | nil => exact .inl (List.cons.inj h).1.symm
            | cons c' u => exact .inr ⟨u, b', v, (List.cons.inj h).2⟩

/-- In a quoted field the quote comes up after a delimiter, whatever follows the field, unless the
delimiter is the last of its inside. -/
theorem exists_delimiter_in_quoted_iff (happart : delimiter ≠ quote) {body : Text}
    (hbody : quote ∉ body) (rest : Text) :
    (∃ v, delimiter :: v <:+ quote :: body ++ [quote] ∧ ComesUp quote (v ++ rest)) ↔
      delimiter ∈ body.dropLast := by
  rw [mem_dropLast_iff]
  constructor
  · rintro ⟨v, ⟨u, hu⟩, -, hhead⟩
    cases u with
    | nil => exact absurd (List.cons.inj hu).1 happart
    | cons c u =>
        -- The delimiter is no quote, so it stands inside, and no quote follows it.
        obtain ⟨w, rfl, hv⟩ | ⟨w, rfl, hv⟩ := List.append_eq_append_iff.mp (List.cons.inj hu).2
        · match w with
          | [] => exact absurd (List.cons.inj hv).1 happart
          | [_] =>
              obtain ⟨-, rfl⟩ := List.cons.inj hv
              exact absurd rfl hhead
          | _ :: b :: w =>
              obtain ⟨rfl, -⟩ := List.cons.inj hv
              exact ⟨u, b, w, rfl⟩
        · cases w with
          | nil => exact absurd (List.cons.inj hv).1.symm happart
          | cons _ w => simp at hv
  · rintro ⟨u, b, v, rfl⟩
    refine ⟨b :: v ++ [quote], ⟨quote :: u, by simp⟩, by simp, fun hhead => ?_⟩
    obtain rfl : b = quote := Option.some.inj hhead
    exact hbody (by simp)

theorem isUnmistaken_quoted_cons {body : Text} : IsUnmistaken delimiter (.quoted body :: cells) ↔
    delimiter ∉ body.dropLast ∧ IsUnmistaken delimiter cells := by
  simp only [IsUnmistaken, List.pairwise_cons, List.forall_mem_cons, Cell.isQuoted, Cell.IsSettled]
  grind

/-- No quoted cell may stand after a bare one, and without quoted cells nothing is mistaken. -/
theorem isUnmistaken_bare_cons {t : Text} : IsUnmistaken delimiter (.bare t :: cells) ↔
    ¬ ∃ cell ∈ cells, cell.isQuoted = true := by
  constructor
  · rintro ⟨hfirst, -⟩ ⟨cell, hcell, hquoted⟩
    exact absurd ((List.pairwise_cons.mp hfirst).1 cell hcell hquoted) nofun
  · intro hnone
    have hbare : ∀ cell ∈ Cell.bare t :: cells, cell.isQuoted = false := by
      simpa [Cell.isQuoted] using hnone
    refine ⟨List.pairwise_of_forall_mem_list fun a _ b hb hquoted => ?_, fun cell hcell => ?_⟩
    · exact absurd (hbare b hb) (by simp [hquoted])
    · cases cell with
      | bare => trivial
      | quoted => exact absurd (hbare _ hcell) nofun

/-- Behind a bare field every quote comes up after something else. -/
theorem hasInner_bare_iff (happart : delimiter ≠ quote) {t rest : Text} (ht : quote ∉ t) :
    HasInner delimiter quote (t ++ delimiter :: rest) ↔ quote ∈ rest := by
  constructor
  · intro h
    have hmem := h.mem
    simp only [List.mem_append, ht, List.mem_cons, happart.symm, false_or] at hmem
    exact hmem
  · intro h
    refine .inl ⟨List.mem_append_right _ (.tail _ h), ?_⟩
    cases t with
    | nil => exact fun hhead => happart (Option.some.inj hhead)
    | cons c t => exact fun hhead => ht (Option.some.inj hhead ▸ .head t)

theorem not_comesUp_quoted (body rest : Text) : ¬ ComesUp quote (quote :: body ++ rest) :=
  fun h => h.2 rfl

/-- A line of neat cells has no quote after something else just where none could be mistaken. -/
theorem not_hasInner_lineOf_iff (happart : delimiter ≠ quote)
    (hneat : ∀ cell ∈ cells, cell.IsNeat delimiter quote) :
    ¬ HasInner delimiter quote (lineOf delimiter quote cells) ↔ IsUnmistaken delimiter cells := by
  induction cells with
  | nil => exact iff_of_true (fun h => absurd h.mem List.not_mem_nil) ⟨.nil, nofun⟩
  | cons cell cells ih =>
      obtain ⟨hcell, hcells⟩ := List.forall_mem_cons.mp hneat
      cases cell with
      | bare t =>
          rw [isUnmistaken_bare_cons, ← quote_mem_lineOf_iff happart hcells]
          apply not_congr
          cases cells with
          | nil =>
              rw [lineOf_singleton]
              exact iff_of_false (fun h => hcell.1 h.mem) List.not_mem_nil
          | cons next cells => rw [lineOf_cons_cons, Cell.text, hasInner_bare_iff happart hcell.1]
      | quoted body =>
          rw [isUnmistaken_quoted_cons, ← ih hcells, ← not_or]
          apply not_congr
          cases cells with
          | nil =>
              have hinside := exists_delimiter_in_quoted_iff happart hcell []
              simp only [List.append_nil] at hinside
              have hnothing : ¬ HasInner delimiter quote (lineOf delimiter quote []) :=
                fun h => absurd h.mem List.not_mem_nil
              rw [lineOf_singleton, Cell.text, HasInner, hinside, or_iff_left hnothing]
              exact or_iff_right (not_comesUp_quoted body [quote])
          | cons next cells =>
              rw [lineOf_cons_cons, Cell.text, hasInner_append_iff,
                exists_delimiter_in_quoted_iff happart hcell, List.append_assoc]
              exact or_iff_right (not_comesUp_quoted body _)

/-- Whether a quote of neat lines is data is a matter of the order of the fields and of the
delimiters between quotes: it is not, just when no quoted field could be mistaken. -/
theorem quoteIsData_neat_iff (happart : delimiter ≠ quote) (hquote : Text.isBlank quote = false)
    {lines : List (List Cell)}
    (hneat : ∀ cells ∈ lines, ∀ cell ∈ cells, cell.IsNeat delimiter quote) :
    quoteIsData (lines.map (lineOf delimiter quote)) [delimiter] [quote] = false ↔
      ∀ cells ∈ lines, IsUnmistaken delimiter cells := by
  rw [quoteIsData, List.any_map, List.any_eq_false]
  refine forall₂_congr fun cells hcells => ?_
  rw [Function.comp_apply, occurs_innerQuote_iff hquote]
  exact not_hasInner_lineOf_iff happart (hneat cells hcells)

/-- A quoted field before a bare one, and a delimiter right before the closing quote. -/
theorem quoteIsData_neat_iff_quoted_first :
    (∀ cells ∈ [[Cell.quoted ['a'], .bare ['b']], [.quoted ['x', ',']]],
        (∀ cell ∈ cells, cell.IsNeat ',' '"') ∧ IsUnmistaken ',' cells) ∧
      quoteIsData ([[.quoted ['a'], .bare ['b']], [.quoted ['x', ',']]].map (lineOf ',' '"'))
        [','] ['"'] = false := by
  have hlines : ∀ cells ∈ [[Cell.quoted ['a'], .bare ['b']], [.quoted ['x', ',']]],
      (∀ cell ∈ cells, cell.IsNeat ',' '"') ∧ IsUnmistaken ',' cells := by
    simp [Cell.IsNeat, IsUnmistaken, Cell.isQuoted, Cell.IsSettled]
  refine ⟨hlines, (quoteIsData_neat_iff (by decide) (by decide) ?_).mpr ?_⟩
  · exact fun cells hcells => (hlines cells hcells).1
  · exact fun cells hcells => (hlines cells hcells).2

/-- Neat lines where the quote is data all the same: a bare field before a quoted one, and a
delimiter between quotes. -/
theorem quoteIsData_mistaken :
    (∀ cells ∈ [[Cell.bare ['a'], .quoted ['b']], [.quoted ['a', ',', 'b']]],
        ∀ cell ∈ cells, cell.IsNeat ',' '"') ∧
      quoteIsData [lineOf ',' '"' [.bare ['a'], .quoted ['b']]] [','] ['"'] = true ∧
      quoteIsData [lineOf ',' '"' [.quoted ['a', ',', 'b']]] [','] ['"'] = true := by
  refine ⟨by simp [Cell.IsNeat], by decide, by decide⟩

end Delimited.Evidence
