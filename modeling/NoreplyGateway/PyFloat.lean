import Mathlib

namespace NoreplyGateway

/-- A number or an infinity, as a database column of type REAL holds it. -/
abbrev Extended := WithBot (WithTop ℚ)

/-- A Python float. Arithmetic on the finite numbers is exact. -/
inductive PyFloat
  | nan
  | num (x : Extended)
  deriving DecidableEq

namespace PyFloat

instance : Coe ℚ PyFloat := ⟨fun q ↦ .num ((q : WithTop ℚ) : Extended)⟩

def inf : PyFloat := .num ⊤

def add : PyFloat → PyFloat → PyFloat
  | .num x, .num y => if x = ⊤ ∧ y = ⊥ ∨ x = ⊥ ∧ y = ⊤ then .nan else .num (x + y)
  | _, _ => .nan

/-- Every comparison with nan is false. -/
def lt : PyFloat → PyFloat → Bool
  | .num x, .num y => x < y
  | _, _ => false

def le : PyFloat → PyFloat → Bool
  | .num x, .num y => x ≤ y
  | _, _ => false

/-- Division by a positive number. -/
def divBy (x : PyFloat) (q : ℚ) : PyFloat :=
  match x with
  | .nan => .nan
  | .num x => .num (x.map (·.map (· / q)))

/-- The built-in `max` of two arguments: the first, unless the second is greater. -/
def max (x y : PyFloat) : PyFloat := if lt x y then y else x

def min (x y : PyFloat) : PyFloat := if lt y x then y else x

/-- The value that a REAL column stores. A nan is stored as NULL. -/
def toReal : PyFloat → Option Extended
  | .nan => none
  | .num x => some x

@[simp] theorem toReal_num (x : Extended) : (num x).toReal = some x := rfl

theorem lt_num {x y : Extended} : lt (.num x) (.num y) = true ↔ x < y := by simp [lt]

theorem max_num (x y : Extended) : max (.num x) (.num y) = .num (x ⊔ y) := by
  unfold max
  by_cases h : x < y
  · rw [if_pos (lt_num.mpr h), sup_eq_right.mpr h.le]
  · rw [if_neg (fun hl ↦ h (lt_num.mp hl)), sup_eq_left.mpr (not_lt.mp h)]

theorem toReal_eq_some {x : PyFloat} {y : Extended} : x.toReal = some y ↔ x = .num y := by
  cases x <;> simp [toReal]

theorem le_num {x y : Extended} : le (.num x) (.num y) = true ↔ x ≤ y := by simp [le]

/-- The maximum is not below either argument, whatever they are. -/
theorem not_max_lt_left (x y : PyFloat) : lt (max x y) x = false := by
  cases x with
  | nan => cases y <;> rfl
  | num x =>
    cases y with
    | nan => simp [max, lt]
    | num y => simp [max_num, lt]

theorem not_max_lt_right (x y : PyFloat) : lt (max x y) y = false := by
  cases x with
  | nan => cases y <;> rfl
  | num x =>
    cases y with
    | nan => simp [max, lt]
    | num y => simp [max_num, lt]

/-- Neither nan nor an infinity. -/
def Finite (x : PyFloat) : Prop := ∃ q : ℚ, x = q

/-- A finite number of seconds, and not a negative one. -/
def IsDelay (x : PyFloat) : Prop := ∃ q : ℚ, 0 ≤ q ∧ x = q

theorem finite_coe (q : ℚ) : Finite q := ⟨q, rfl⟩

theorem isDelay_coe {q : ℚ} (h : 0 ≤ q) : IsDelay q := ⟨q, h, rfl⟩

theorem IsDelay.finite {x : PyFloat} (h : x.IsDelay) : x.Finite := by
  obtain ⟨q, -, rfl⟩ := h
  exact finite_coe q

theorem max_coe (p q : ℚ) : max (p : PyFloat) (q : PyFloat) = ((p ⊔ q : ℚ) : PyFloat) := by
  rw [max_num, ← WithBot.coe_sup, ← WithTop.coe_sup]

theorem add_coe (p q : ℚ) : add (p : PyFloat) (q : PyFloat) = ((p + q : ℚ) : PyFloat) := by
  have hp : ((p : WithTop ℚ) : Extended) ≠ ⊤ := by simp [← WithBot.coe_top]
  have hq : ((q : WithTop ℚ) : Extended) ≠ ⊤ := by simp [← WithBot.coe_top]
  simp only [add, hp, hq, false_and, and_false, or_self, if_false]
  rfl

theorem Finite.max {x y : PyFloat} (hx : x.Finite) (hy : y.Finite) : (PyFloat.max x y).Finite := by
  obtain ⟨p, rfl⟩ := hx
  obtain ⟨q, rfl⟩ := hy
  exact ⟨_, max_coe p q⟩

theorem Finite.add {x y : PyFloat} (hx : x.Finite) (hy : y.Finite) : (PyFloat.add x y).Finite := by
  obtain ⟨p, rfl⟩ := hx
  obtain ⟨q, rfl⟩ := hy
  exact ⟨_, add_coe p q⟩

theorem IsDelay.max {x : PyFloat} (hx : x.IsDelay) (q : ℚ) : (PyFloat.max x q).IsDelay := by
  obtain ⟨p, hp, rfl⟩ := hx
  exact ⟨_, hp.trans le_sup_left, max_coe p q⟩

end PyFloat

end NoreplyGateway
