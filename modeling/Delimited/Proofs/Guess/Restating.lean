/- A guess made again with its own marks set: whichever of them the settings state, nothing about
the guess changes but the section that it extends. -/
import Delimited.Proofs.Evidence.Candidates
import Delimited.Proofs.Guess.Stages
import Delimited.Proofs.Settings.Restating

namespace Delimited.Guess

variable {c : Tunables} {o : Overrides} {texts : List Text} {d : Dialect} {escapeResolved : Bool}
  {entries : Table} {chosen : List DialectEntry}

theorem chooseDelimiter_ne_nil (hc : c.Admissible)
    (hdelimiter : Overrides.delimiterOf entries = .ok o.delimiter) {delimiter : Text}
    (h : chooseDelimiter c o texts = .ok delimiter) : delimiter ≠ [] := by
  unfold chooseDelimiter at h
  cases ho : o.delimiter with
  | unset =>
      rw [ho] at h
      exact hc.delimiter_ne_nil (mapError_eq_ok.mp h)
  | given given =>
      rw [ho] at h hdelimiter
      cases h
      exact Overrides.ne_nil_of_delimiterOf hdelimiter

theorem length_chooseQuote (hc : c.Admissible)
    (hquote : Overrides.markOf entries "quote" = .ok o.quote) {delimiter q : Text}
    (h : chooseQuote c o texts delimiter = .ok (some q)) : q.length = 1 := by
  obtain ⟨quote, hchosen, h⟩ := bind_eq_ok.mp h
  split at h
  · cases h
    rfl
  · next hne =>
    obtain rfl : quote = some q := Except.ok.inj h
    cases ho : o.quote with
    | unset =>
        rw [ho] at hchosen
        exact hc.length_quote (mapError_eq_ok.mp hchosen)
    | given given =>
        rw [ho] at hchosen hquote
        obtain rfl : given = some q := Except.ok.inj hchosen
        have hle := Overrides.length_of_markOf hquote
        have hpos : 0 < q.length := List.length_pos_iff.mpr fun hq => hne (congrArg some hq)
        omega

theorem length_chooseEscape (hc : c.Admissible)
    (hescape : Overrides.escapeOf entries = .ok o.escape) {delimiter e : Text}
    {quote : Option Text} (hquote : ∀ q ∈ quote, q.length = 1)
    (h : chooseEscape c o texts delimiter quote = (some e, escapeResolved)) : e.length = 1 := by
  unfold chooseEscape at h
  split at h
  · next escape _ ho =>
    cases h
    rw [ho] at hescape
    exact Overrides.length_of_escapeOf hescape
  · next quote _ =>
    exact hc.length_escape (hquote quote rfl) (Prod.mk.inj h).1
  · cases h

theorem isSettable_of_chooseDialect (hc : c.Admissible) (ho : Overrides.OfSection entries o)
    (h : chooseDialect c o texts = .ok (d, escapeResolved)) : d.IsSettable := by
  obtain ⟨hdelimiter, hquote, hescape, -, -⟩ := chooseDialect_eq_ok_iff.mp h
  have hmark : ∀ q ∈ d.quote, q.length = 1 := by
    intro q hq
    exact length_chooseQuote hc ho.quote (hquote.trans (congrArg Except.ok hq))
  refine ⟨chooseDelimiter_ne_nil hc ho.delimiter hdelimiter, hmark, ?_⟩
  intro e he
  exact length_chooseEscape hc ho.escape hmark (hescape.trans (congrArg (·, escapeResolved) he))

theorem Stages.isSettable {lines : List Line} {g : Guess} (st : Stages c o lines g)
    (hc : c.Admissible) (ho : Overrides.OfSection entries o) : g.dialect.IsSettable := by
  have hsettable := isSettable_of_chooseDialect hc ho st.chosen
  rw [st.read.1] at hsettable
  exact ⟨hsettable.delimiter, hsettable.quote, hsettable.escape⟩

theorem chooseDelimiter_restate (h : chooseDelimiter c o texts = .ok d.delimiter) :
    chooseDelimiter c (o.restate d chosen) texts = .ok d.delimiter := by
  by_cases he : .delimiter ∈ chosen
  · simp only [chooseDelimiter, Overrides.restate, if_pos he, choose]
  · simpa only [chooseDelimiter, Overrides.restate, if_neg he] using h

theorem chooseQuote_restate (hd : ∀ q ∈ d.quote, q.length = 1)
    (h : chooseQuote c o texts d.delimiter = .ok d.quote) :
    chooseQuote c (o.restate d chosen) texts d.delimiter = .ok d.quote := by
  by_cases he : .quote ∈ chosen
  · simp only [chooseQuote, Overrides.restate, if_pos he, choose]
    refine bind_eq_ok.mpr ⟨d.quote, rfl, ?_⟩
    split
    · next hempty => exact absurd (hd [] hempty) (by decide)
    · rfl
  · simpa only [chooseQuote, Overrides.restate, if_neg he] using h

theorem chooseEscape_restate (hescape : .escape ∈ chosen → escapeResolved = true)
    (h : chooseEscape c o texts d.delimiter d.quote = (d.escape, escapeResolved)) :
    chooseEscape c (o.restate d chosen) texts d.delimiter d.quote =
      (d.escape, escapeResolved) := by
  by_cases he : .escape ∈ chosen
  · simp only [chooseEscape, Overrides.restate, if_pos he, hescape he]
  · simpa only [chooseEscape, Overrides.restate, if_neg he] using h

theorem chooseDialect_restate {trim : Bool} (hd : d.IsSettable)
    (hescape : .escape ∈ chosen → escapeResolved = true)
    (h : chooseDialect c o texts = .ok ({ d with trim }, escapeResolved)) :
    chooseDialect c (o.restate d chosen) texts = .ok ({ d with trim }, escapeResolved) := by
  obtain ⟨hdelimiter, hquote, hchosen, hnull, htrim⟩ := chooseDialect_eq_ok_iff.mp h
  refine chooseDialect_eq_ok_iff.mpr ⟨chooseDelimiter_restate hdelimiter,
    chooseQuote_restate hd.quote hquote, chooseEscape_restate hescape hchosen, ?_, htrim⟩
  by_cases he : .nullString ∈ chosen
  · simp only [Overrides.restate, if_pos he, Override.getD]
  · simpa only [Overrides.restate, if_neg he] using hnull

/-- Where a guess is made, setting any of its marks in the settings (the escape only where it is
known) leads to the same guess again. -/
theorem ofSample_restateIn {settings : Value} {sample : List SampleItem} {g : Guess}
    (hc : c.Admissible) (h : ofSample c settings sample = .ok (some g))
    (chosen : List DialectEntry) (hescape : .escape ∈ chosen → g.escapeResolved = true) :
    ofSample c (g.dialect.restateIn chosen settings) sample =
      .ok (some { g with base := g.dialect.restate chosen g.base }) := by
  obtain ⟨o, hread, hcsv, ⟨st⟩⟩ := ofSample_eq_ok_iff.mp h
  have hdialect : st.dialect = { g.dialect with trim := o.trim.getD false } := st.read.1
  have hd : g.dialect.IsSettable := st.isSettable hc (Overrides.read_eq_ok_iff.mp hread).2
  have hchosen : chooseDialect c (o.restate g.dialect chosen)
      ((SampleItem.lines sample).map Line.text) = .ok (st.dialect, g.escapeResolved) := by
    rw [hdialect]
    exact chooseDialect_restate hd hescape (hdialect ▸ st.chosen)
  refine ofSample_eq_ok_iff.mpr ⟨_, Overrides.read_restateIn hd hread, hcsv, ⟨?_⟩⟩
  -- The stages after the dialect look at none of the restated overrides.
  exact { st with
    chosen := hchosen
    based := congrArg (g.dialect.restate chosen) st.based }

theorem ofSample_restateIn_all :
    ∃ g, ofSample {} (.table [("parser".toList, .table [("quote".toList, .text [])])])
        (plainSample [['a', ';', 'b'], ['1', ';', '2'], ['3', ';', '4']]) = .ok (some g) ∧
      ofSample {} (g.dialect.restateIn [.delimiter, .quote, .escape, .nullString]
          (.table [("parser".toList, .table [("quote".toList, .text [])])]))
          (plainSample [['a', ';', 'b'], ['1', ';', '2'], ['3', ';', '4']]) =
        .ok (some { g with
          base := g.dialect.restate [.delimiter, .quote, .escape, .nullString] g.base }) := by
  obtain ⟨g, hg, hescape⟩ : ∃ g,
      ofSample {} (.table [("parser".toList, .table [("quote".toList, .text [])])])
        (plainSample [['a', ';', 'b'], ['1', ';', '2'], ['3', ';', '4']]) = .ok (some g) ∧
      g.escapeResolved = true := exists_of_made _ (by decide +kernel)
  exact ⟨g, hg, ofSample_restateIn Tunables.admissible_default hg _ fun _ => hescape⟩

end Delimited.Guess
