/- Lines without quotes. A line is cut wherever the delimiter is met, from left to right, whatever the
delimiter is made of, and its fields are the pieces (`split_unquoted`). -/
import Delimited.Proofs.Record.RoundTrip
import Mathlib.Data.List.Infix

namespace Delimited

/-- The pieces of a text that is cut at the delimiter: where it is met first, and then on from
behind it. -/
inductive Pieces (delimiter : Text) : Text → List Text → Prop
  | whole {t : Text} : ¬ delimiter <:+: t → Pieces delimiter t [t]
  | cut {piece rest : Text} {pieces : List Text} :
      (∀ k < piece.length, ¬ delimiter <+: (piece ++ delimiter ++ rest).drop k) →
      Pieces delimiter rest pieces → Pieces delimiter (piece ++ delimiter ++ rest) (piece :: pieces)

/-! ### The pieces of a text -/

section Cut

variable {delimiter : Text} (hd : delimiter ≠ [])

include hd

/-- A bare field ends where the delimiter is met first, or with its line. -/
theorem cutBare_cases (t : Text) :
    (cutBare delimiter t = (t, none) ∧ ¬ delimiter <:+: t) ∨
      ∃ piece rest, cutBare delimiter t = (piece, some rest) ∧ t = piece ++ delimiter ++ rest ∧
        ∀ k < piece.length, ¬ delimiter <+: t.drop k := by
  fun_induction cutBare delimiter t with
  | case1 => exact .inl ⟨rfl, fun h => hd (List.eq_nil_of_infix_nil h)⟩
  | case2 c t rest hafter =>
      refine .inr ⟨[], rest, rfl, ?_, fun k hk => absurd hk (Nat.not_lt_zero k)⟩
      exact Text.after?_eq_some_iff.mp hafter
  | case3 c t hafter ih =>
      have hhere : ¬ delimiter <+: c :: t := by
        rw [← Text.startsWith_iff, Text.startsWith, hafter]
        exact Bool.false_ne_true
      rcases ih with ⟨hcut, hnone⟩ | ⟨piece, rest, hcut, rfl, hfirst⟩
      · refine .inl ⟨by rw [hcut], ?_⟩
        rw [List.infix_cons_iff]
        exact not_or.mpr ⟨hhere, hnone⟩
      · refine .inr ⟨c :: piece, rest, by rw [hcut], rfl, ?_⟩
        intro k hk
        cases k with
        | zero => exact hhere
        | succ k => exact hfirst k (Nat.lt_of_succ_lt_succ hk)

/-- Every text has pieces, since what stands behind a delimiter is shorter. -/
theorem exists_pieces (t : Text) : ∃ pieces, Pieces delimiter t pieces := by
  rcases cutBare_cases hd t with ⟨-, hnone⟩ | ⟨piece, rest, hcut, heq, hfirst⟩
  · exact ⟨[t], .whole hnone⟩
  · have hshorter : rest.length < t.length := length_of_cutBare hd (congrArg Prod.snd hcut)
    obtain ⟨pieces, hpieces⟩ := exists_pieces rest
    subst heq
    exact ⟨piece :: pieces, .cut hfirst hpieces⟩
termination_by t.length

end Cut

/-! ### The fields of a line -/

section Fields

variable {d : Dialect} (hd : d.delimiter ≠ []) (htrim : d.trim = false) {limit : Int}

include hd

theorem cutBare_piece {piece rest : Text}
    (h : ∀ k < piece.length, ¬ d.delimiter <+: (piece ++ d.delimiter ++ rest).drop k) :
    cutBare d.delimiter (piece ++ d.delimiter ++ rest) = (piece, some rest) := by
  have hfirst : ∀ k < piece.length, ¬ d.delimiter <+: (piece ++ d.delimiter).drop k := by
    intro k hk hprefix
    apply h k hk
    rw [List.drop_append_of_le_length (by simp; omega)]
    exact hprefix.trans (List.prefix_append _ rest)
  have hcut := cutBare_afterField hd hfirst (some rest)
  rwa [afterField, ← List.append_assoc] at hcut

include htrim

/-- Where the quote is not met a column is bare. -/
theorem scanColumn_unquoted (limit : Int) {t : Text} (hquote : ∀ quote ∈ d.quoteMark, quote ∉ t)
    (line : Line) (pending : List Line) :
    scanColumn d limit ⟨line, t, pending⟩ =
      .ofRest (cutBare d.delimiter t).1 false [] line pending (cutBare d.delimiter t).2 := by
  have hbare : opening d d.trim t = .bare t := by
    rw [htrim]
    rcases opening_untrimmed d t with hbare | ⟨quote, inside, rfl, hmark, -⟩
    · exact hbare
    · exact absurd List.mem_cons_self (hquote quote hmark)
  rw [scanColumn_bare hd hbare, htrim]
  rfl

/-- Where the quote is not met, the fields of a record are the pieces of its line. -/
theorem scanRecord_pieces {t : Text} {pieces : List Text} (h : Pieces d.delimiter t pieces)
    (hquote : ∀ quote ∈ d.quoteMark, quote ∉ t) (line : Line) (pending : List Line) :
    scanRecord d limit ⟨line, t, pending⟩ =
      .record (pieces.map fun piece => .read d piece false) pending := by
  induction h with
  | @whole t hnone =>
      have hcut : cutBare d.delimiter t = (t, none) := by
        rcases cutBare_cases hd t with ⟨hcut, -⟩ | ⟨piece, rest, -, rfl, -⟩
        · exact hcut
        · exact absurd ⟨piece, rest, rfl⟩ hnone
      have hscan := scanColumn_unquoted hd htrim limit hquote line pending
      rw [hcut] at hscan
      exact scanRecord_last hscan
  | @cut piece rest pieces hfirst _ ih =>
      have hscan := scanColumn_unquoted hd htrim limit hquote line pending
      rw [cutBare_piece hd hfirst] at hscan
      rw [scanRecord_more hscan, ih fun quote hmark hmem => hquote quote hmark (by simp [hmem])]
      rfl

end Fields

/-- Without a quote, or where no line holds it, each line is one record (an empty one may be left
out), and its fields are the pieces of the line, none of them quoted. There are no warnings. -/
theorem split_unquoted {d : Dialect} (hd : d.delimiter ≠ []) (htrim : d.trim = false)
    (skipEmpty : Bool) (limit : Int) {lines : List Line}
    (hquote : ∀ quote ∈ d.quote, quote ≠ [] → ∀ line ∈ lines, ¬ quote <:+: line.text) :
    ∃ cuts, List.Forall₂ (fun line pieces => Pieces d.delimiter line.text pieces)
        (lines.filter fun line => !(skipEmpty && line.text.isEmpty)) cuts ∧
      split d skipEmpty limit lines =
        some { records := cuts.map (List.map fun piece =>
          ⟨if d.nullString = some piece then none else some piece, false⟩) } := by
  have hmark : ∀ line ∈ lines, ∀ quote ∈ d.quoteMark, quote ∉ line.text := by
    intro line hline quote hmark hmem
    have hsingle : d.quote = some [quote] := Dialect.mark_eq_some_iff.mp hmark
    exact hquote [quote] hsingle (List.cons_ne_nil _ _) line hline
      ((List.singleton_infix_iff _ _).mpr hmem)
  clear hquote
  induction lines with
  | nil => exact ⟨[], .nil, split_nil⟩
  | cons line pending ih =>
      obtain ⟨hline, hpending⟩ := List.forall_mem_cons.mp hmark
      obtain ⟨cuts, hcuts, hsplit⟩ := ih hpending
      cases hblank : skipEmpty && line.text.isEmpty with
      | true =>
          refine ⟨cuts, ?_, ?_⟩
          · rwa [List.filter_cons_of_neg (by simp [hblank])]
          · rw [split_blank hblank, hsplit]
      | false =>
          obtain ⟨pieces, hpieces⟩ := exists_pieces hd line.text
          refine ⟨pieces :: cuts, ?_, ?_⟩
          · rw [List.filter_cons_of_pos (by simp [hblank])]
            exact .cons hpieces hcuts
          · rw [split_record hblank (scanRecord_pieces hd htrim hpieces hline line pending), hsplit]
            simp only [Field.read_bare, Option.map_some, List.map_cons]

/-- A delimiter that overlaps itself, with one code point too many and with one too few, an empty null
string, and an empty line that is kept. -/
theorem split_unquoted_overlapping :
    (⟨['-', '-'], some ['"'], none, some [], false⟩ : Dialect).trim = false ∧
      ∃ cuts, List.Forall₂ (fun (line : Line) pieces => Pieces ['-', '-'] line.text pieces)
          [⟨1, ['a', '-', '-', '-', 'b', '-', '-']⟩, ⟨2, []⟩, ⟨3, ['-', 'c', '-']⟩] cuts ∧
        split ⟨['-', '-'], some ['"'], none, some [], false⟩ false 0
            [⟨1, ['a', '-', '-', '-', 'b', '-', '-']⟩, ⟨2, []⟩, ⟨3, ['-', 'c', '-']⟩] =
          some { records := cuts.map (List.map fun piece =>
            ⟨if some [] = some piece then none else some piece, false⟩) } ∧
        cuts.map (List.map fun piece =>
            (⟨if some [] = some piece then none else some piece, false⟩ : Field)) =
          [[⟨some ['a'], false⟩, ⟨some ['-', 'b'], false⟩, ⟨none, false⟩], [⟨none, false⟩],
            [⟨some ['-', 'c', '-'], false⟩]] := by
  have hquote : ∀ quote ∈ some ['"'], quote ≠ [] → ∀ line ∈ ([⟨1, ['a', '-', '-', '-', 'b', '-', '-']⟩,
      ⟨2, []⟩, ⟨3, ['-', 'c', '-']⟩] : List Line), ¬ quote <:+: line.text := by
    simp [List.infix_cons_iff]
  obtain ⟨cuts, hcuts, hcut⟩ :=
    split_unquoted (d := ⟨['-', '-'], some ['"'], none, some [], false⟩) (by decide) rfl false 0 hquote
  have hsplit : split ⟨['-', '-'], some ['"'], none, some [], false⟩ false 0
      [⟨1, ['a', '-', '-', '-', 'b', '-', '-']⟩, ⟨2, []⟩, ⟨3, ['-', 'c', '-']⟩] =
        some { records := [[⟨some ['a'], false⟩, ⟨some ['-', 'b'], false⟩, ⟨none, false⟩],
          [⟨none, false⟩], [⟨some ['-', 'c', '-'], false⟩]] } := by decide +kernel
  have hrecords := congrArg Division.records (Option.some.inj (hcut.symm.trans hsplit))
  exact ⟨rfl, cuts, hcuts, hcut, hrecords⟩

end Delimited
