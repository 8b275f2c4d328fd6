/- Computations that give a value or a fault: what is known of the parts from what came out. -/
namespace Delimited

variable {ε ε' α β : Type}

theorem bind_eq_ok {x : Except ε α} {f : α → Except ε β} {b : β} :
    (x >>= f) = .ok b ↔ ∃ a, x = .ok a ∧ f a = .ok b := by
  cases x with
  | error e => simp [bind, Except.bind]
  | ok a => simp [bind, Except.bind]

theorem bind_eq_error {x : Except ε α} {f : α → Except ε β} {e : ε} :
    (x >>= f) = .error e ↔ x = .error e ∨ ∃ a, x = .ok a ∧ f a = .error e := by
  cases x with
  | error e' => simp [bind, Except.bind]
  | ok a => simp [bind, Except.bind]

theorem mapError_eq_ok {x : Except ε α} {f : ε → ε'} {a : α} :
    x.mapError f = .ok a ↔ x = .ok a := by
  cases x with
  | error e => exact iff_of_false nofun nofun
  | ok b =>
      constructor
      · intro h
        exact congrArg Except.ok (Except.ok.inj h)
      · intro h
        exact congrArg Except.ok (Except.ok.inj h)

theorem mapError_eq_error {x : Except ε α} {f : ε → ε'} {e' : ε'} :
    x.mapError f = .error e' ↔ ∃ e, x = .error e ∧ f e = e' := by
  cases x with
  | error e =>
      constructor
      · intro h
        exact ⟨e, rfl, Except.error.inj h⟩
      · rintro ⟨e, h, rfl⟩
        rw [h]
        rfl
  | ok a => exact iff_of_false nofun nofun

/-- A change that every outcome of the second part goes through is one of the outcome of both. -/
theorem bind_eq_map {β' : Type} {x : Except ε α} {g : α → Except ε β'} {h : α → Except ε β}
    {k : β → β'} (hg : ∀ a, g a = (h a).map k) : (x >>= g) = (x >>= h).map k := by
  cases x with
  | error e => rfl
  | ok a => exact hg a

theorem map_bind_eq_map {α' β' : Type} {x : Except ε α} {f : α → α'} {g : α' → Except ε β'}
    {h : α → Except ε β} {k : β → β'} (hg : ∀ a, g (f a) = (h a).map k) :
    (x.map f >>= g) = (x >>= h).map k := by
  cases x with
  | error e => rfl
  | ok a => exact hg a

theorem exists_mapM {f : α → Except ε β} {l : List α} (h : ∀ a ∈ l, ∃ b, f a = .ok b) :
    ∃ found, l.mapM f = .ok found := by
  induction l with
  | nil => exact ⟨[], rfl⟩
  | cons a l ih =>
      obtain ⟨b, hb⟩ := h a List.mem_cons_self
      obtain ⟨found, hfound⟩ := ih fun a ha => h a (List.mem_cons_of_mem _ ha)
      refine ⟨b :: found, ?_⟩
      rw [List.mapM_cons]
      exact bind_eq_ok.mpr ⟨b, hb, bind_eq_ok.mpr ⟨found, hfound, rfl⟩⟩

theorem exists_mem_of_mapM {f : α → Except ε β} {l : List α} {found : List β}
    (h : l.mapM f = .ok found) : ∀ b ∈ found, ∃ a ∈ l, f a = .ok b := by
  induction l generalizing found with
  | nil =>
      cases h
      exact fun b hb => absurd hb List.not_mem_nil
  | cons a l ih =>
      rw [List.mapM_cons] at h
      obtain ⟨first, hfirst, h⟩ := bind_eq_ok.mp h
      obtain ⟨rest, hrest, h⟩ := bind_eq_ok.mp h
      cases h
      intro b hb
      cases hb with
      | head => exact ⟨a, .head l, hfirst⟩
      | tail _ hb =>
          obtain ⟨a', ha', hfound⟩ := ih hrest b hb
          exact ⟨a', .tail a ha', hfound⟩

theorem exists_of_mapM_eq_error {f : α → Except ε β} {l : List α} {e : ε}
    (h : l.mapM f = .error e) : ∃ a ∈ l, f a = .error e := by
  induction l with
  | nil => cases h
  | cons a l ih =>
      rw [List.mapM_cons] at h
      rcases bind_eq_error.mp h with hfirst | ⟨b, -, h⟩
      · exact ⟨a, .head l, hfirst⟩
      · rcases bind_eq_error.mp h with hrest | ⟨found, -, h⟩
        · obtain ⟨a', ha', hfault⟩ := ih hrest
          exact ⟨a', .tail a ha', hfault⟩
        · cases h

theorem exists_of_mapM_eq_ok {f : α → Except ε β} {l : List α} {found : List β}
    (h : l.mapM f = .ok found) : ∀ a ∈ l, ∃ b, f a = .ok b := by
  induction l generalizing found with
  | nil => exact fun a ha => absurd ha List.not_mem_nil
  | cons a l ih =>
      rw [List.mapM_cons] at h
      obtain ⟨first, hfirst, h⟩ := bind_eq_ok.mp h
      obtain ⟨rest, hrest, -⟩ := bind_eq_ok.mp h
      exact List.forall_mem_cons.mpr ⟨⟨first, hfirst⟩, ih hrest⟩

end Delimited
