/- The evidence decides between candidates: each mark that is found is one of them, or the one that
stands for a file without evidence. So marks that can be set come from candidates that can. -/
import Delimited.Evidence.Comment
import Delimited.Evidence.Delimiter
import Delimited.Evidence.Escape
import Delimited.Evidence.Quote
import Delimited.Proofs.Outcome
import Mathlib.Data.List.Induction

namespace Delimited

section Strongest

variable {α β : Type} [LT β] [DecidableLT β]

/-- One more candidate is taken only where it exceeds the best so far. -/
theorem strongest_concat (weight : α → β) (least : β) (candidates : List α) (a : α) :
    strongest weight least (candidates ++ [a]) =
      if ((strongest weight least candidates).map Prod.snd).getD least < weight a then
        some (a, weight a)
      else strongest weight least candidates := by
  rw [strongest, List.foldl_append]
  rfl

theorem mem_of_strongest {weight : α → β} {least : β} {candidates : List α} {a : α} {w : β}
    (h : strongest weight least candidates = some (a, w)) : a ∈ candidates := by
  induction candidates using List.reverseRecOn with
  | nil => cases h
  | append_singleton candidates candidate ih =>
      rw [strongest_concat] at h
      split at h
      · cases h
        exact List.mem_append_right candidates (.head [])
      · exact List.mem_append_left [candidate] (ih h)

end Strongest

namespace Tunables

variable {c : Tunables}

/-- Every candidate could be set as it is. Of the markers of comments nothing is asked. -/
structure Admissible (c : Tunables) : Prop where
  delimiter : ∀ t ∈ c.delimiters, t ≠ []
  quote : ∀ t ∈ c.quotes, t.length = 1
  defaultQuote : c.defaultQuote.length = 1
  escape : ∀ t, some t ∈ c.escapes → t.length = 1

theorem admissible_default : Admissible {} where
  delimiter := by decide
  quote := by decide
  defaultQuote := by decide
  escape := by simp

theorem eraseDups_concat (texts : List Text) (t : Text) :
    (texts ++ [t]).eraseDups = if t ∈ texts then texts.eraseDups else texts.eraseDups ++ [t] := by
  rw [List.eraseDups_append]
  by_cases hmem : t ∈ texts
  · simp [List.removeAll, List.filter, hmem]
  · simp [List.removeAll, List.filter, hmem, List.eraseDups_cons]

/-- The escapes to consider are those given, without repetitions. -/
theorem escapesFor_eq_eraseDups (c : Tunables) (quote : Text) :
    c.escapesFor quote = (c.escapes.map (·.getD quote)).eraseDups := by
  have hfold : ∀ texts : List Text,
      texts.foldl (fun found t => if found.contains t then found else found ++ [t]) [] =
        texts.eraseDups := by
    intro texts
    induction texts using List.reverseRecOn with
    | nil => rfl
    | append_singleton texts t ih =>
        rw [List.foldl_append, List.foldl_cons, List.foldl_nil, ih, eraseDups_concat]
        simp only [List.contains_iff_mem, List.mem_eraseDups]
  rw [← hfold, List.foldl_map]
  rfl

theorem mem_escapesFor_iff {quote t : Text} :
    t ∈ c.escapesFor quote ↔ ∃ given ∈ c.escapes, given.getD quote = t := by
  rw [escapesFor_eq_eraseDups, List.mem_eraseDups, List.mem_map]

theorem mem_of_mem_escapesFor {quote t : Text} (h : t ∈ c.escapesFor quote) :
    t = quote ∨ some t ∈ c.escapes := by
  obtain ⟨given, hgiven, ht⟩ := mem_escapesFor_iff.mp h
  cases given with
  | none => exact .inl ht.symm
  | some given =>
      obtain rfl : given = t := ht
      exact .inr hgiven

end Tunables

namespace Evidence

variable {c : Tunables} {texts : List Text} {d : Text}

theorem mem_of_delimiter (h : delimiter c texts = .ok d) : d ∈ c.delimiters := by
  obtain ⟨weighed, hweighed, h⟩ := bind_eq_ok.mp h
  split at h
  · next candidate weight w first rest hstrongest hdelimiters =>
    have hmem := mem_of_strongest hstrongest
    obtain ⟨candidate', hmem', hfound⟩ := exists_mem_of_mapM hweighed _ hmem
    obtain ⟨weight', -, hfound⟩ := bind_eq_ok.mp hfound
    cases hfound
    simp only [pure, Except.pure, Except.ok.injEq] at h
    split at h
    · exact h ▸ hmem'
    · rw [hdelimiters, ← h]
      exact .head rest
  · next first rest _ hdelimiters =>
    simp only [pure, Except.pure, Except.ok.injEq] at h
    rw [hdelimiters, ← h]
    exact .head rest
  · cases h

theorem mem_of_quote {q : Text} (h : quote c texts d = .ok (some q)) :
    q ∈ c.quotes ∨ q = c.defaultQuote := by
  have hunquoted : quote.unquoted c texts d = some q → q = c.defaultQuote := by
    intro h
    unfold quote.unquoted at h
    split at h
    · cases h
    · exact (Option.some.inj h).symm
  obtain ⟨scored, hscored, h⟩ := bind_eq_ok.mp h
  split at h
  · next candidate score w hstrongest =>
    obtain ⟨candidate', hmem, hfound⟩ := exists_mem_of_mapM hscored _ (mem_of_strongest hstrongest)
    obtain ⟨score', -, hfound⟩ := bind_eq_ok.mp hfound
    cases hfound
    simp only [pure, Except.pure, Except.ok.injEq] at h
    split at h
    · cases h
      exact .inl hmem
    · exact .inr (hunquoted h)
  · exact .inr (hunquoted (Except.ok.inj h))

theorem mem_of_escape {q e : Text} (h : escape c texts d q = some e) :
    e = q ∨ some e ∈ c.escapes ∨ e = ['"'] := by
  unfold escape at h
  split at h
  · next candidate count hstrongest =>
    cases h
    exact (Tunables.mem_of_mem_escapesFor (mem_of_strongest hstrongest)).imp_right .inl
  · split at h
    · exact .inr (.inr (Option.some.inj h).symm)
    · cases h

/-- The marker of comments is a candidate, and the lines kept are those it does not mark; or there
is none, and all lines are kept. -/
theorem commentMarker_cases (c : Tunables) (d : Text) (quote nullString : Option Text)
    (lines : List Line) :
    commentMarker c d quote nullString lines = (none, lines) ∨
      ∃ m ∈ c.commentMarkers, commentMarker c d quote nullString lines =
        (some m, unmarked d quote nullString m lines) := by
  simp only [commentMarker]
  cases h : strongest (fun marker => lines.length -
      (unmarked d quote nullString marker lines).length) 0 c.commentMarkers with
  | none => exact .inl rfl
  | some found => exact .inr ⟨found.1, mem_of_strongest h, rfl⟩

end Evidence

namespace Tunables.Admissible

variable {c : Tunables} {texts : List Text} {d : Text}

theorem delimiter_ne_nil (hc : c.Admissible) (h : Evidence.delimiter c texts = .ok d) : d ≠ [] :=
  hc.delimiter d (Evidence.mem_of_delimiter h)

theorem length_quote (hc : c.Admissible) {q : Text} (h : Evidence.quote c texts d = .ok (some q)) :
    q.length = 1 := by
  obtain hmem | rfl := Evidence.mem_of_quote h
  · exact hc.quote q hmem
  · exact hc.defaultQuote

theorem length_escape (hc : c.Admissible) {q e : Text} (hq : q.length = 1)
    (h : Evidence.escape c texts d q = some e) : e.length = 1 := by
  obtain rfl | hmem | rfl := Evidence.mem_of_escape h
  · exact hq
  · exact hc.escape e hmem
  · rfl

end Tunables.Admissible

end Delimited
