import NoreplyGateway.Machine

namespace NoreplyGateway.Machine

variable {σ α η : Type*} {step : σ → α → Option σ} {note : η → σ → α → σ → η}

/-- A machine with a history variable, which reads the steps and does not
influence them. -/
def observe (step : σ → α → Option σ) (note : η → σ → α → σ → η) (w : σ × η) (a : α) :
    Option (σ × η) :=
  (step w.1 a).map fun t ↦ (t, note w.2 w.1 a t)

theorem observe_eq_some {w w' : σ × η} {a : α} :
    observe step note w a = some w' ↔ step w.1 a = some w'.1 ∧ w'.2 = note w.2 w.1 a w'.1 := by
  obtain ⟨t, h⟩ := w'
  simp only [observe, Option.map_eq_some_iff, Prod.mk.injEq]
  constructor
  · rintro ⟨u, hu, rfl, rfl⟩
    exact ⟨hu, rfl⟩
  · rintro ⟨ht, rfl⟩
    exact ⟨t, ht, rfl, rfl⟩

/-- Every run can be observed. -/
theorem Runs.observed {s t : σ} {l : List α} (h : Runs step s l t) (x : η) :
    ∃ y, Runs (observe step note) (s, x) l (t, y) := by
  induction l generalizing s x with
  | nil => exact ⟨x, runs_nil.mpr (congrArg (·, x) (runs_nil.mp h))⟩
  | cons a l ih =>
    obtain ⟨u, hu, hl⟩ := runs_cons.mp h
    obtain ⟨y, hy⟩ := ih hl (note x s a u)
    exact ⟨y, runs_cons.mpr ⟨(u, _), observe_eq_some.mpr ⟨hu, rfl⟩, hy⟩⟩

/-- What is observed is a run. -/
theorem Runs.forget {w w' : σ × η} {l : List α} (h : Runs (observe step note) w l w') :
    Runs step w.1 l w'.1 := by
  induction l generalizing w with
  | nil =>
    obtain rfl := runs_nil.mp h
    exact runs_nil.mpr rfl
  | cons a l ih =>
    obtain ⟨u, hu, hl⟩ := runs_cons.mp h
    exact runs_cons.mpr ⟨u.1, (observe_eq_some.mp hu).1, ih hl⟩

end NoreplyGateway.Machine
