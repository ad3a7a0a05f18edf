import Mathlib

namespace NoreplyGateway.Assoc

variable {α β : Type} [BEq α] [LawfulBEq α] {l : List (α × β)} {a : α} {b : β}

theorem mem_of_lookup (h : l.lookup a = some b) : (a, b) ∈ l := by
  obtain ⟨l₁, l₂, rfl, -⟩ := List.lookup_eq_some_iff.mp h
  simp

theorem lookup_map_values (f : α → β → β) :
    (l.map fun (k, v) ↦ (k, f k v)).lookup a = (l.lookup a).map (f a) := by
  induction l with
  | nil => rfl
  | cons x l ih =>
    obtain ⟨k, v⟩ := x
    by_cases h : a = k
    · simp [h]
    · simp [List.lookup_cons, beq_false_of_ne h, ih]

theorem lookup_eq_of_mem (hn : (l.map Prod.fst).Nodup) (h : (a, b) ∈ l) : l.lookup a = some b := by
  induction l with
  | nil => cases h
  | cons x l ih =>
    obtain ⟨k, v⟩ := x
    obtain ⟨hk, htail⟩ := List.nodup_cons.mp hn
    rcases List.mem_cons.mp h with hhead | hmem
    · cases hhead
      simp
    · have hne : a ≠ k := by
        rintro rfl
        exact hk (List.mem_map.mpr ⟨_, hmem, rfl⟩)
      rw [List.lookup_cons, beq_false_of_ne hne]
      exact ih htail hmem

theorem mem_keys_of_lookup (h : l.lookup a = some b) : a ∈ l.map Prod.fst := by
  obtain ⟨l₁, l₂, rfl, -⟩ := List.lookup_eq_some_iff.mp h
  simp

/-- Entries that are filtered out for their value read as the empty list. -/
theorem lookup_filter_nonempty {γ : Type} {l : List (α × List γ)} (hn : (l.map Prod.fst).Nodup) :
    ((l.filter fun entry ↦ !entry.2.isEmpty).lookup a).getD [] = (l.lookup a).getD [] := by
  induction l with
  | nil => rfl
  | cons x l ih =>
    obtain ⟨k, v⟩ := x
    obtain ⟨hk, htail⟩ := List.nodup_cons.mp hn
    by_cases h : a = k
    · subst h
      cases v with
      | nil =>
        have hnone : l.lookup a = none := by
          cases hl : l.lookup a with
          | none => rfl
          | some b => exact absurd (mem_keys_of_lookup hl) hk
        simpa [hnone] using ih htail
      | cons => simp
    · cases v <;> simp [List.lookup_cons, beq_false_of_ne h, ih htail]

end NoreplyGateway.Assoc
