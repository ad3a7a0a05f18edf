import Mathlib

namespace NoreplyGateway.Machine

variable {σ α τ β : Type*} {step : σ → α → Option σ}

/-- Execute a list of actions. An action that is not enabled in the state it
meets ends the execution without a state. -/
def run (step : σ → α → Option σ) : List α → σ → Option σ
  | [], s => some s
  | a :: l, s => (step s a).bind (run step l)

def Runs (step : σ → α → Option σ) (s : σ) (l : List α) (t : σ) : Prop := run step l s = some t

@[simp] theorem runs_nil {s t : σ} : Runs step s [] t ↔ s = t := by
  simp [Runs, run]

@[simp] theorem runs_cons {s t : σ} {a : α} {l : List α} :
    Runs step s (a :: l) t ↔ ∃ u, step s a = some u ∧ Runs step u l t := by
  simp only [Runs, run, Option.bind_eq_some_iff]

theorem runs_append {s t : σ} {l k : List α} :
    Runs step s (l ++ k) t ↔ ∃ u, Runs step s l u ∧ Runs step u k t := by
  induction l generalizing s with
  | nil => simp
  | cons a l ih =>
    simp only [List.cons_append, runs_cons, ih]
    constructor
    · rintro ⟨u, hu, v, hl, hk⟩
      exact ⟨v, ⟨u, hu, hl⟩, hk⟩
    · rintro ⟨v, ⟨u, hu, hl⟩, hk⟩
      exact ⟨u, hu, v, hl, hk⟩

theorem runs_concat {s t : σ} {a : α} {l : List α} :
    Runs step s (l ++ [a]) t ↔ ∃ u, Runs step s l u ∧ step u a = some t := by
  simp only [runs_append, runs_cons, runs_nil, exists_eq_right]

theorem Runs.deterministic {s t u : σ} {l : List α} (h : Runs step s l t)
    (h' : Runs step s l u) : t = u := Option.some.inj (h.symm.trans h')

/-- The invariant may speak of the actions taken so far as well as of the
state they lead to. -/
theorem Runs.trace_invariant {s t : σ} {l : List α} {P : List α → σ → Prop} (h₀ : P [] s)
    (hP : ∀ k u a v, Runs step s k u → P k u → step u a = some v → P (k ++ [a]) v)
    (h : Runs step s l t) : P l t := by
  induction l using List.reverseRecOn generalizing t with
  | nil =>
    obtain rfl := runs_nil.mp h
    exact h₀
  | append_singleton l a ih =>
    obtain ⟨u, hu, ha⟩ := runs_concat.mp h
    exact hP l u a t hu (ih hu) ha

theorem Runs.invariant {s t : σ} {l : List α} {P : σ → Prop}
    (hP : ∀ u a v, P u → step u a = some v → P v) (h : Runs step s l t) (h₀ : P s) : P t :=
  h.trace_invariant (P := fun _ ↦ P) h₀ (fun _ u a v _ hu ha ↦ hP u a v hu ha)

/-- Every action of the run meets the condition in the state it is taken in. -/
def Throughout (step : σ → α → Option σ) (C : σ → α → Prop) (s : σ) (l : List α) : Prop :=
  ∀ k a k' u, l = k ++ a :: k' → Runs step s k u → C u a

theorem Throughout.mono {C D : σ → α → Prop} {s : σ} {l : List α}
    (h : Throughout step C s l) (hCD : ∀ u a, C u a → D u a) : Throughout step D s l :=
  fun k a k' u hl hu ↦ hCD u a (h k a k' u hl hu)

theorem Throughout.init {C : σ → α → Prop} {s : σ} {l k : List α}
    (h : Throughout step C s (l ++ k)) : Throughout step C s l := by
  rintro l₁ a l₂ u rfl hu
  exact h l₁ a (l₂ ++ k) u (by simp) hu

theorem Throughout.last {C : σ → α → Prop} {s u : σ} {l : List α} {a : α}
    (h : Throughout step C s (l ++ [a])) (hu : Runs step s l u) : C u a :=
  h l a [] u rfl hu

theorem Throughout.tail {C : σ → α → Prop} {s u : σ} {l k : List α}
    (h : Throughout step C s (l ++ k)) (hu : Runs step s l u) : Throughout step C u k := by
  rintro k₁ a k₂ v rfl hv
  exact h (l ++ k₁) a k₂ v (by simp) (runs_append.mpr ⟨u, hu, hv⟩)

@[simp] theorem throughout_nil {C : σ → α → Prop} {s : σ} : Throughout step C s [] := by
  rintro k a k' u hk
  simp at hk

@[simp] theorem throughout_cons {C : σ → α → Prop} {s : σ} {a : α} {l : List α} :
    Throughout step C s (a :: l) ↔ C s a ∧ ∀ u, step s a = some u → Throughout step C u l := by
  constructor
  · intro h
    refine ⟨h [] a l s rfl (runs_nil.mpr rfl), ?_⟩
    rintro u hu k b k' v rfl hv
    exact h (a :: k) b k' v rfl (runs_cons.mpr ⟨u, hu, hv⟩)
  · rintro ⟨ha, h⟩ k b k' v hk hv
    cases k with
    | nil =>
      obtain ⟨rfl, rfl⟩ := List.cons.inj hk
      obtain rfl := runs_nil.mp hv
      exact ha
    | cons c k =>
      obtain ⟨rfl, rfl⟩ := List.cons.inj hk
      obtain ⟨u, hu, hv⟩ := runs_cons.mp hv
      exact h u hu k b k' v rfl hv

def decidableThroughout {C : σ → α → Prop} [∀ s a, Decidable (C s a)] :
    ∀ (l : List α) (s : σ), Decidable (Throughout step C s l)
  | [], _ => .isTrue throughout_nil
  | a :: l, s =>
    have : Decidable (∀ u, step s a = some u → Throughout step C u l) :=
      match step s a with
      | none => .isTrue (by simp)
      | some u =>
        match decidableThroughout (C := C) l u with
        | .isTrue h => .isTrue (by simpa using h)
        | .isFalse h => .isFalse (by simpa using h)
    decidable_of_iff _ throughout_cons.symm

instance {C : σ → α → Prop} [∀ s a, Decidable (C s a)] {s : σ} {l : List α} :
    Decidable (Throughout step C s l) := decidableThroughout l s

/-- The run rule for steps that keep the invariant only under a condition on
the step. -/
theorem Runs.invariant_of_throughout {s t : σ} {l : List α} {C : σ → α → Prop} {P : σ → Prop}
    (hP : ∀ u a v, P u → C u a → step u a = some v → P v)
    (h : Runs step s l t) (hC : Throughout step C s l) (h₀ : P s) : P t := by
  induction l using List.reverseRecOn generalizing t with
  | nil =>
    obtain rfl := runs_nil.mp h
    exact h₀
  | append_singleton l a ih =>
    obtain ⟨u, hu, ha⟩ := runs_concat.mp h
    exact hP u a t (ih hu hC.init) (hC.last hu) ha

/-- A property that only excused steps can break still holds at the end of a
run, or the run contains an excused step taken while it held. -/
theorem Runs.until {s t : σ} {l : List α} {P : σ → Prop} {E : σ → α → Prop}
    (hP : ∀ u a v, P u → ¬ E u a → step u a = some v → P v)
    (h : Runs step s l t) (h₀ : P s) :
    P t ∨ ∃ k a k' u, l = k ++ a :: k' ∧ Runs step s k u ∧ P u ∧ E u a := by
  induction l generalizing s with
  | nil =>
    obtain rfl := runs_nil.mp h
    exact .inl h₀
  | cons a l ih =>
    obtain ⟨u, ha, hu⟩ := runs_cons.mp h
    by_cases he : E s a
    · exact .inr ⟨[], a, l, s, rfl, runs_nil.mpr rfl, h₀, he⟩
    · rcases ih hu (hP s a u h₀ he ha) with ht | ⟨k, b, k', v, rfl, hv, hPv, hEv⟩
      · exact .inl ht
      · exact .inr ⟨a :: k, b, k', v, rfl, runs_cons.mpr ⟨u, ha, hv⟩, hPv, hEv⟩

/-- Every step of the first machine is matched by a run of the second one,
possibly empty, between the images of its states. -/
theorem Runs.simulate {step' : τ → β → Option τ} (f : σ → τ)
    (hf : ∀ u a v, step u a = some v → ∃ k, Runs step' (f u) k (f v))
    {s t : σ} {l : List α} (h : Runs step s l t) : ∃ l', Runs step' (f s) l' (f t) := by
  induction l generalizing s with
  | nil =>
    obtain rfl := runs_nil.mp h
    exact ⟨[], runs_nil.mpr rfl⟩
  | cons a l ih =>
    obtain ⟨u, ha, hu⟩ := runs_cons.mp h
    obtain ⟨k, hk⟩ := hf s a u ha
    obtain ⟨l', hl'⟩ := ih hu
    exact ⟨k ++ l', runs_append.mpr ⟨f u, hk, hl'⟩⟩

end NoreplyGateway.Machine
