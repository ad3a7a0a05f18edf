import Mathlib

namespace NoreplyGateway.Distinct

variable {α κ : Type*} [DecidableEq κ] {key : α → κ} {l : List α} {k : κ}

/-- Append an element, unless there is one with its key. -/
def add (key : α → κ) (l : List α) (a : α) : List α :=
  if key a ∈ l.map key then l else l ++ [a]

/-- The first element for each key, in the order of the list. -/
def distinct (key : α → κ) (l : List α) : List α := l.foldl (add key) []

@[simp] theorem distinct_nil : distinct key ([] : List α) = [] := rfl

@[simp] theorem distinct_concat (l : List α) (a : α) :
    distinct key (l ++ [a]) = add key (distinct key l) a := by
  simp [distinct, List.foldl_append]

theorem mem_keys_add {a : α} : k ∈ (add key l a).map key ↔ k ∈ l.map key ∨ k = key a := by
  rw [add]
  split_ifs with h
  · constructor
    · exact .inl
    · rintro (hk | rfl)
      · exact hk
      · exact h
  · simp

@[simp] theorem mem_keys_distinct : k ∈ (distinct key l).map key ↔ k ∈ l.map key := by
  induction l using List.reverseRecOn with
  | nil => rfl
  | append_singleton l a ih => rw [distinct_concat, mem_keys_add, ih]; simp

theorem nodup_keys_distinct (l : List α) : ((distinct key l).map key).Nodup := by
  induction l using List.reverseRecOn with
  | nil => exact List.nodup_nil
  | append_singleton l a ih =>
    rw [distinct_concat, add]
    split_ifs with h
    · exact ih
    · rw [List.map_append]
      exact ih.append (List.nodup_singleton _) (by simpa using h)

theorem distinct_sublist (l : List α) : (distinct key l).Sublist l := by
  induction l using List.reverseRecOn with
  | nil => exact .slnil
  | append_singleton l a ih =>
    rw [distinct_concat, add]
    split_ifs
    · exact ih.trans (List.sublist_append_left l [a])
    · exact ih.append (.refl [a])

theorem distinct_eq_nil : distinct key l = [] ↔ l = [] := by
  constructor
  · intro h
    have hk : ∀ k, k ∉ l.map key := by
      intro k
      rw [← mem_keys_distinct, h]
      exact List.not_mem_nil
    exact List.map_eq_nil_iff.mp (List.eq_nil_iff_forall_not_mem.mpr hk)
  · rintro rfl
    rfl

theorem length_add_le {a : α} : (add key l a).length ≤ l.length + 1 := by
  rw [add]
  split_ifs <;> simp

end NoreplyGateway.Distinct
