import Mathlib

/-! Computations in `Except` that end well. -/

namespace NoreplyGateway.Outcome

variable {ε α β : Type*} {a : α} {b : β} {e : ε}

section

variable {γ δ : Type*}

@[simp] theorem bind_eq_ok {x : Except ε γ} {f : γ → Except ε δ} {d : δ} :
    x.bind f = .ok d ↔ ∃ c, x = .ok c ∧ f c = .ok d := by
  cases x <;> simp [Except.bind]

@[simp] theorem map_eq_ok {x : Except ε γ} {f : γ → δ} {d : δ} :
    x.map f = .ok d ↔ ∃ c, x = .ok c ∧ f c = d := by
  cases x <;> simp [Except.map]

end

section Monadic

variable {γ δ : Type}

@[simp] theorem do_eq_ok {x : Except ε γ} {f : γ → Except ε δ} {d : δ} :
    x >>= f = .ok d ↔ ∃ c, x = .ok c ∧ f c = .ok d := bind_eq_ok

@[simp] theorem pure_eq_ok {c d : γ} : (pure c : Except ε γ) = .ok d ↔ c = d := by
  simp [pure, Except.pure]

/-- A check that throws has been passed. -/
theorem guard_eq_ok {p : Prop} [Decidable p] {f : γ → Except ε δ} {x : Except ε δ} {d : δ} :
    (if p then throw e >>= f else x) = .ok d ↔ ¬p ∧ x = .ok d := by
  split_ifs with hp <;> simp [hp]

theorem mapM_eq_ok {f : γ → Except ε δ} {l : List γ} {r : List δ} :
    l.mapM f = .ok r ↔ List.Forall₂ (fun c d ↦ f c = .ok d) l r := by
  induction l generalizing r with
  | nil =>
    rw [List.mapM_nil, pure_eq_ok, List.forall₂_nil_left_iff]
    exact eq_comm
  | cons c l ih =>
    rw [List.mapM_cons]
    simp only [do_eq_ok, pure_eq_ok, ih, List.forall₂_cons_left_iff]
    constructor
    · rintro ⟨d, hd, ds, hds, rfl⟩
      exact ⟨d, ds, hd, hds, rfl⟩
    · rintro ⟨d, ds, hd, hds, rfl⟩
      exact ⟨d, hd, ds, hds, rfl⟩

theorem exists_of_mapM {f : γ → Except ε δ} {l : List γ} {r : List δ} {c : γ}
    (h : l.mapM f = .ok r) (hc : c ∈ l) : ∃ d ∈ r, f c = .ok d := by
  have hall := mapM_eq_ok.mp h
  induction hall with
  | nil => cases hc
  | cons hd hds ih =>
    rcases List.mem_cons.mp hc with rfl | hc
    · exact ⟨_, List.mem_cons_self, hd⟩
    · obtain ⟨d, hmem, hd'⟩ := ih (mapM_eq_ok.mpr hds) hc
      exact ⟨d, List.mem_cons_of_mem _ hmem, hd'⟩

theorem exists_source_of_mapM {f : γ → Except ε δ} {l : List γ} {r : List δ} {d : δ}
    (h : l.mapM f = .ok r) (hd : d ∈ r) : ∃ c ∈ l, f c = .ok d := by
  have hall := mapM_eq_ok.mp h
  induction hall with
  | nil => cases hd
  | cons hc hcs ih =>
    rcases List.mem_cons.mp hd with rfl | hd
    · exact ⟨_, List.mem_cons_self, hc⟩
    · obtain ⟨c, hmem, hc'⟩ := ih (mapM_eq_ok.mpr hcs) hd
      exact ⟨c, List.mem_cons_of_mem _ hmem, hc'⟩

theorem forM_eq_ok {f : γ → Except ε PUnit} {l : List γ} {u : PUnit} :
    l.forM f = .ok u ↔ ∀ c ∈ l, f c = .ok () := by
  induction l with
  | nil => exact ⟨by simp, fun _ ↦ rfl⟩
  | cons c l ih =>
    have hcons : (c :: l).forM f = f c >>= fun _ ↦ l.forM f := rfl
    rw [hcons, do_eq_ok, List.forall_mem_cons]
    constructor
    · rintro ⟨_, hc, hl⟩
      exact ⟨hc, ih.mp hl⟩
    · rintro ⟨hc, hl⟩
      exact ⟨_, hc, ih.mpr hl⟩

/-- What one step keeps, a whole fold keeps. -/
theorem foldlM_invariant {f : δ → γ → Except ε δ} {l : List γ} {d d' : δ} {P : δ → Prop}
    (hP : ∀ d c d', P d → f d c = .ok d' → P d') (h : l.foldlM f d = .ok d') (h₀ : P d) : P d' := by
  induction l generalizing d with
  | nil =>
    obtain rfl := pure_eq_ok.mp h
    exact h₀
  | cons c l ih =>
    rw [List.foldlM_cons] at h
    obtain ⟨d₁, hd, hl⟩ := do_eq_ok.mp h
    exact ih hl (hP d c d₁ h₀ hd)

end Monadic

end NoreplyGateway.Outcome
