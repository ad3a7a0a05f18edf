import Mathlib

namespace NoreplyGateway.RollingLedger

/-- One entry of a ledger that limits the weight charged within a time window.
A pending charge may still be taken back. -/
structure Charge (κ τ : Type*) where
  holder : κ
  instant : τ
  weight : ℕ
  pending : Bool

variable {κ τ : Type*} [LinearOrder τ]

def after (θ : τ) (l : List (Charge κ τ)) : List (Charge κ τ) := l.filter (θ < ·.instant)

def spent (θ : τ) (l : List (Charge κ τ)) : ℕ := ((after θ l).map (·.weight)).sum

/-- Pending charges become permanent. -/
def close (l : List (Charge κ τ)) : List (Charge κ τ) := l.map (fun c ↦ { c with pending := false })

/-- The pending charges of one holder become permanent or are taken back. -/
def conclude [DecidableEq κ] (k : κ) (kept : Bool) (l : List (Charge κ τ)) : List (Charge κ τ) :=
  if kept then l.map (fun c ↦ if c.holder = k ∧ c.pending then { c with pending := false } else c)
  else l.filter (fun c ↦ ¬(c.holder = k ∧ c.pending))

/-- Permanent charges from before `θ` are forgotten. -/
def trim (θ : τ) (l : List (Charge κ τ)) : List (Charge κ τ) :=
  l.filter (fun c ↦ ¬(c.instant < θ ∧ c.pending = false))

/-- Two ledgers hold the same charges since `θ`. -/
def Agree (θ : τ) (l l' : List (Charge κ τ)) : Prop := after θ l = after θ l'

variable {θ θ' : τ} {l l' : List (Charge κ τ)} {c : Charge κ τ}

@[simp] theorem after_append : after θ (l ++ l') = after θ l ++ after θ l' := List.filter_append ..

theorem after_after (h : θ ≤ θ') : after θ' (after θ l) = after θ' l := by
  rw [after, after, List.filter_filter]
  refine List.filter_congr (fun c _ ↦ ?_)
  by_cases hc : θ' < c.instant
  · simp [hc, h.trans_lt hc]
  · simp [hc]

@[simp] theorem after_close : after θ (close l) = close (after θ l) := by
  rw [after, close, List.filter_map]
  rfl

theorem after_conclude [DecidableEq κ] {k : κ} {kept : Bool} :
    after θ (conclude k kept l) = conclude k kept (after θ l) := by
  unfold conclude
  split_ifs
  · rw [after, List.filter_map]
    congr 1
    refine List.filter_congr (fun c _ ↦ ?_)
    simp only [Function.comp_apply]
    split_ifs <;> rfl
  · rw [after, after, List.filter_filter, List.filter_filter]
    exact List.filter_congr (fun c _ ↦ Bool.and_comm _ _)

omit [LinearOrder τ] in
theorem conclude_cons_of_not [DecidableEq κ] {k : κ} {kept : Bool}
    (h : ¬(c.holder = k ∧ c.pending = true)) : conclude k kept (c :: l) = c :: conclude k kept l := by
  unfold conclude
  split_ifs
  · rw [List.map_cons, if_neg h]
  · exact List.filter_cons_of_pos (decide_eq_true h)

theorem after_trim : after θ (trim θ l) = after θ l := by
  rw [after, trim, List.filter_filter]
  refine List.filter_congr (fun c _ ↦ ?_)
  by_cases hc : θ < c.instant
  · simp [hc, hc.le.not_gt]
  · simp [hc]

theorem spent_anti (h : θ ≤ θ') : spent θ' l ≤ spent θ l := by
  rw [spent, ← after_after h]
  exact (List.filter_sublist.map _).sum_le_sum (fun _ _ ↦ Nat.zero_le _)

theorem spent_append : spent θ (l ++ [c]) ≤ spent θ l + c.weight := by
  rw [spent, after_append, List.map_append, List.sum_append, ← spent]
  by_cases hc : θ < c.instant <;> simp [after, hc]

theorem Agree.refl : Agree θ l l := rfl

theorem Agree.mono (h : Agree θ l l') (hθ : θ ≤ θ') : Agree θ' l l' := by
  rw [Agree, ← after_after hθ, h, after_after hθ]

theorem Agree.append (h : Agree θ l l') : Agree θ (l ++ [c]) (l' ++ [c]) := by
  rw [Agree, after_append, after_append, h]

theorem Agree.close (h : Agree θ l l') : Agree θ (close l) (close l') := by
  rw [Agree, after_close, after_close, h]

theorem Agree.conclude [DecidableEq κ] {k : κ} {kept : Bool} (h : Agree θ l l') :
    Agree θ (conclude k kept l) (conclude k kept l') := by
  rw [Agree, after_conclude, after_conclude, h]

theorem Agree.trim (h : Agree θ l l') : Agree θ (trim θ l) l' := by
  rw [Agree, after_trim, h]

theorem Agree.spent (h : Agree θ l l') : spent θ l = spent θ l' := by
  rw [RollingLedger.spent, h, RollingLedger.spent]

/-- Concluding a charge never raises what is spent. -/
theorem spent_conclude [DecidableEq κ] {k : κ} {kept : Bool} :
    spent θ (conclude k kept l) ≤ spent θ l := by
  rw [spent, spent, after_conclude]
  unfold conclude
  split_ifs
  · rw [List.map_map]
    refine le_of_eq (congrArg List.sum (List.map_congr_left (fun c _ ↦ ?_)))
    simp only [Function.comp_apply]
    split_ifs <;> rfl
  · exact (List.filter_sublist.map _).sum_le_sum (fun _ _ ↦ Nat.zero_le _)

theorem spent_close : spent θ (close l) = spent θ l := by
  rw [spent, after_close, close, List.map_map]
  rfl

end NoreplyGateway.RollingLedger
