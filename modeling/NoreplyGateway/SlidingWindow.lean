import Mathlib

namespace NoreplyGateway.SlidingWindow

section Since

variable {τ : Type*} [LinearOrder τ]

/-- The instants from `θ` on. -/
def since (θ : τ) (l : List τ) : List τ := l.filter (θ ≤ ·)

variable {θ θ' b : τ} {l l' : List τ}

@[simp] theorem since_append : since θ (l ++ l') = since θ l ++ since θ l' := List.filter_append ..

theorem since_since (h : θ ≤ θ') : since θ' (since θ l) = since θ' l := by
  rw [since, since, List.filter_filter]
  refine List.filter_congr fun x _ ↦ ?_
  by_cases hx : θ' ≤ x
  · simp [hx, h.trans hx]
  · simp [hx]

/-- Dropping old instants from the front keeps the recent ones. -/
theorem dropWhile_eq_since (hl : l.Pairwise (· ≤ ·)) : l.dropWhile (· < θ) = since θ l := by
  induction l with
  | nil => rfl
  | cons x l ih =>
    obtain ⟨hx, hl⟩ := List.pairwise_cons.mp hl
    by_cases hold : x < θ
    · simp [since, hold, hold.not_ge] at ih ⊢
      exact ih hl
    · have hrecent : ∀ y ∈ l, θ ≤ y := fun y hy ↦ (not_lt.mp hold).trans (hx y hy)
      simp only [List.dropWhile_cons, hold, decide_false, Bool.false_eq_true, if_false]
      refine (List.filter_eq_self.mpr fun y hy ↦ ?_).symm
      rcases List.mem_cons.mp hy with rfl | hy
      · exact decide_eq_true (not_lt.mp hold)
      · exact decide_eq_true (hrecent y hy)

theorem since_sorted (hl : l.Pairwise (· ≤ ·)) : (since θ l).Pairwise (· ≤ ·) := hl.filter _

/-- Nothing is forgotten until the oldest recent instant is. -/
theorem since_of_le_head (hl : l.Pairwise (· ≤ ·)) (hb : (since θ l).head? = some b)
    (hle : θ' ≤ b) (h : θ ≤ θ') : since θ' l = since θ l := by
  rw [← since_since h]
  refine List.filter_eq_self.mpr fun x hx ↦ decide_eq_true (hle.trans ?_)
  obtain ⟨rest, hrest⟩ := List.head?_eq_some_iff.mp hb
  have hsorted := since_sorted (θ := θ) hl
  rw [hrest] at hsorted hx
  rcases List.mem_cons.mp hx with rfl | hx
  · exact le_rfl
  · exact (List.pairwise_cons.mp hsorted).1 x hx

/-- Once the oldest recent instant is forgotten, there are fewer. -/
theorem length_since_lt (hb : (since θ l).head? = some b) (hlt : b < θ') (h : θ ≤ θ') :
    (since θ' l).length < (since θ l).length := by
  obtain ⟨rest, hrest⟩ := List.head?_eq_some_iff.mp hb
  rw [← since_since h, hrest, since, List.filter_cons_of_neg (by simpa using hlt), List.length_cons]
  exact Nat.lt_succ_of_le (List.length_filter_le ..)

end Since

section Window

variable {τ : Type*} [AddCommGroup τ] [LinearOrder τ] [IsOrderedAddMonoid τ]

/-- Every instant has fewer than `n` earlier ones within `w` before it. -/
inductive Spaced (w : τ) (n : ℕ) : List τ → Prop
  | nil : Spaced w n []
  | concat {l : List τ} {x : τ} (h : Spaced w n l) (hx : (since (x - w) l).length < n) :
      Spaced w n (l ++ [x])

/-- Every closed window has `n` instants at most. -/
theorem Spaced.window {w : τ} {n : ℕ} {l : List τ} (h : Spaced w n l) (a : τ) :
    (l.filter fun x ↦ a ≤ x ∧ x ≤ a + w).length ≤ n := by
  induction h with
  | nil => exact Nat.zero_le n
  | @concat l x h hx ih =>
    rw [List.filter_append, List.length_append]
    by_cases hin : a ≤ x ∧ x ≤ a + w
    · have hsub : (l.filter fun y ↦ a ≤ y ∧ y ≤ a + w).Sublist (since (x - w) l) := by
        refine List.monotone_filter_right l fun y hy ↦ ?_
        obtain ⟨hy, -⟩ := of_decide_eq_true hy
        exact decide_eq_true ((sub_le_iff_le_add.mpr hin.2).trans hy)
      have hle := hsub.length_le
      simp only [List.filter_cons, hin, and_self, decide_true, if_true, List.filter_nil,
        List.length_singleton]
      omega
    · simp only [List.filter_cons, hin, decide_false, Bool.false_eq_true, if_false,
        List.filter_nil, List.length_nil]
      exact ih

end Window

section Apart

variable {τ : Type*} [AddCommGroup τ] [LinearOrder τ] [IsOrderedAddMonoid τ]

/-- Instants, the newest one first, with a least distance between two. -/
def Apart (δ : τ) (l : List τ) : Prop := l.IsChain (fun x y ↦ y + δ ≤ x)

/-- Instants that are apart take their time. -/
theorem Apart.length_nsmul_le {δ b x : τ} {l : List τ} (h : Apart δ (x :: l))
    (hb : ∀ y ∈ x :: l, b ≤ y) : b + l.length • δ ≤ x := by
  induction l generalizing x with
  | nil => simpa using hb
  | cons y l ih =>
    obtain ⟨hxy, hl⟩ := List.isChain_cons_cons.mp h
    have hy := ih hl fun z hz ↦ hb z (List.mem_cons_of_mem _ hz)
    calc b + (y :: l).length • δ = b + l.length • δ + δ := by
          rw [List.length_cons, succ_nsmul, add_assoc]
      _ ≤ y + δ := by gcongr
      _ ≤ x := hxy

end Apart

section Log

variable {κ τ : Type*} [DecidableEq κ] {k : κ} {x : κ × τ} {l l' : List (κ × τ)}

/-- The instants of one key in a log. -/
def instants (k : κ) (l : List (κ × τ)) : List τ := (l.filter (·.1 = k)).map Prod.snd

@[simp] theorem instants_append : instants k (l ++ l') = instants k l ++ instants k l' := by
  simp [instants]

theorem instants_singleton : instants k [x] = if x.1 = k then [x.2] else [] := by
  unfold instants
  by_cases h : x.1 = k <;> simp [h]

theorem instants_sublist : (instants k l).Sublist (l.map Prod.snd) :=
  List.filter_sublist.map _

theorem sum_indicator (a : κ) (keys : List κ) :
    (keys.map fun k ↦ if a = k then 1 else 0).sum = keys.count a := by
  induction keys with
  | nil => rfl
  | cons k keys ih =>
    rw [List.map_cons, List.sum_cons, ih, List.count_cons, add_comm]
    by_cases h : a = k
    · simp [h]
    · simp [h, Ne.symm h]

/-- Every entry of a log counts for one of the keys. -/
theorem sum_instants {keys : List κ} (hn : keys.Nodup) (hl : ∀ x ∈ l, x.1 ∈ keys) :
    (keys.map fun k ↦ (instants k l).length).sum = l.length := by
  induction l with
  | nil => simp [instants]
  | cons x l ih =>
    have hsplit : ∀ k, (instants k (x :: l)).length =
        (instants k l).length + if x.1 = k then 1 else 0 := by
      intro k
      by_cases h : x.1 = k <;> simp [instants, h]
    have hone := List.count_eq_one_of_mem hn (hl x List.mem_cons_self)
    simp only [hsplit]
    rw [List.sum_map_add, ih fun y hy ↦ hl y (List.mem_cons_of_mem _ hy), sum_indicator, hone,
      List.length_cons]

end Log

end NoreplyGateway.SlidingWindow
