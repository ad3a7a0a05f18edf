import Mathlib

/-! Pages of a table in descending order of a key, each of them after the last
key of the page before. -/

namespace NoreplyGateway.Keyset

variable {ρ κ : Type*} [LinearOrder κ]

/-- The keys that a page after the cursor may list. -/
def Below (cursor : Option κ) (k : κ) : Prop := ∀ c ∈ cursor, k < c

instance (cursor : Option κ) (k : κ) : Decidable (Below cursor k) :=
  inferInstanceAs (Decidable (∀ c ∈ cursor, k < c))

def page (key : ρ → κ) (limit : ℕ) (cursor : Option κ) (rows : List ρ) : List ρ :=
  ((rows.filter (fun r ↦ Below cursor (key r))).insertionSort (fun a b ↦ key b ≤ key a)).take limit

/-- The last key of a page is the cursor of the next one. -/
def next (key : ρ → κ) (cursor : Option κ) (page : List ρ) : Option κ :=
  (page.getLast?.map key).or cursor

variable {key : ρ → κ} {limit : ℕ} {cursor : Option κ} {rows : List ρ} {r : ρ} {k : κ}

theorem mem_of_mem_page (h : r ∈ page key limit cursor rows) :
    r ∈ rows ∧ Below cursor (key r) := by
  have hsorted := (List.perm_insertionSort _ _).mem_iff.mp (List.mem_of_mem_take h)
  obtain ⟨hr, hbelow⟩ := List.mem_filter.mp hsorted
  exact ⟨hr, of_decide_eq_true hbelow⟩

theorem page_pairwise (hn : (rows.map key).Nodup) (limit : ℕ) (cursor : Option κ) :
    (page key limit cursor rows).Pairwise (fun a b ↦ key b < key a) := by
  have hsorted := List.pairwise_insertionSort (fun a b : ρ ↦ key b ≤ key a)
    (rows.filter (fun r ↦ Below cursor (key r)))
  have hnodup : ((rows.filter (fun r ↦ Below cursor (key r))).insertionSort
      (fun a b ↦ key b ≤ key a)).Pairwise (fun a b ↦ key a ≠ key b) := by
    rw [← List.pairwise_map]
    exact ((List.perm_insertionSort _ _).map key).nodup_iff.mpr
      (hn.sublist (List.filter_sublist.map key))
  refine ((hsorted.and hnodup).sublist (List.take_sublist _ _)).imp ?_
  intro a b hab
  exact lt_of_le_of_ne hab.1 hab.2.symm

/-- A row below the cursor is listed, unless the page ends above it. -/
theorem mem_page_or_last (hn : (rows.map key).Nodup) (hlimit : 0 < limit) (hr : r ∈ rows)
    (hbelow : Below cursor (key r)) : r ∈ page key limit cursor rows ∨
      ∃ last, (page key limit cursor rows).getLast? = some last ∧ key r < key last := by
  have hpairwise := page_pairwise hn rows.length cursor
  unfold page at hpairwise ⊢
  generalize hs : (rows.filter (fun r ↦ Below cursor (key r))).insertionSort
    (fun a b ↦ key b ≤ key a) = sorted at hpairwise ⊢
  have hmem : r ∈ sorted := by
    rw [← hs, (List.perm_insertionSort _ _).mem_iff]
    exact List.mem_filter.mpr ⟨hr, decide_eq_true hbelow⟩
  have hlength : sorted.length ≤ rows.length := by
    rw [← hs, List.length_insertionSort]
    exact List.length_filter_le ..
  rw [List.take_of_length_le hlength, ← List.take_append_drop limit sorted,
    List.pairwise_append] at hpairwise
  rw [← List.take_append_drop limit sorted, List.mem_append] at hmem
  rcases hmem with hmem | hmem
  · exact .inl hmem
  · have hne : sorted.take limit ≠ [] := by
      intro hnil
      rcases List.take_eq_nil_iff.mp hnil with hzero | rfl
      · omega
      · simp at hmem
    have hlast := List.getLast_mem hne
    exact .inr ⟨_, List.getLast?_eq_some_getLast hne, hpairwise.2.2 _ hlast r hmem⟩

/-- The keys that have been listed are in descending order, and end no lower
than the cursor. -/
structure Listed (cursor : Option κ) (keys : List κ) : Prop where
  descending : keys.Pairwise (· > ·)
  above : ∀ k ∈ keys, ∃ c ∈ cursor, c ≤ k

theorem Listed.nil : Listed cursor [] := ⟨List.Pairwise.nil, by simp⟩

theorem Listed.page {keys : List κ} (hl : Listed cursor keys) (hn : (rows.map key).Nodup)
    (limit : ℕ) :
    Listed (next key cursor (page key limit cursor rows))
      (keys ++ (page key limit cursor rows).map key) := by
  have hpage : ((Keyset.page key limit cursor rows).map key).Pairwise (· > ·) :=
    List.pairwise_map.mpr (page_pairwise hn limit cursor)
  have hbelow : ∀ k ∈ (Keyset.page key limit cursor rows).map key, Below cursor k := by
    intro k hk
    obtain ⟨r, hr, rfl⟩ := List.mem_map.mp hk
    exact (mem_of_mem_page hr).2
  generalize hp : Keyset.page key limit cursor rows = p at hpage hbelow ⊢
  constructor
  · refine List.pairwise_append.mpr ⟨hl.descending, hpage, fun k hk k' hk' ↦ ?_⟩
    obtain ⟨c, hc, hle⟩ := hl.above k hk
    exact (hbelow k' hk' c hc).trans_le hle
  · intro k hk
    cases hlast : p.getLast? with
    | none =>
      obtain rfl := List.getLast?_eq_none_iff.mp hlast
      exact hl.above k (by simpa using hk)
    | some last =>
      obtain ⟨front, rfl⟩ := List.getLast?_eq_some_iff.mp hlast
      refine ⟨key last, by simp [next], ?_⟩
      rw [List.map_append, List.map_singleton] at hk hpage hbelow
      rcases List.mem_append.mp hk with hk | hk
      · obtain ⟨c, hc, hle⟩ := hl.above k hk
        exact ((hbelow _ (by simp) c hc).trans_le hle).le
      · rcases List.mem_append.mp hk with hk | hk
        · exact ((List.pairwise_append.mp hpage).2.2 k hk _ (List.mem_singleton_self _)).le
        · exact le_of_eq (List.mem_singleton.mp hk).symm

/-- A key of the table that is still to come is listed by the page, or comes
after it. -/
theorem listed_or_below (hn : (rows.map key).Nodup) (hlimit : 0 < limit) (hr : r ∈ rows)
    (hbelow : Below cursor (key r)) : r ∈ page key limit cursor rows ∨
      page key limit cursor rows ≠ [] ∧
        Below (next key cursor (page key limit cursor rows)) (key r) := by
  rcases mem_page_or_last hn hlimit hr hbelow with hmem | ⟨last, hlast, hlt⟩
  · exact .inl hmem
  · refine .inr ⟨?_, ?_⟩
    · intro hnil
      rw [hnil] at hlast
      cases hlast
    · intro c hc
      rw [next, hlast] at hc
      obtain rfl := Option.some.inj hc
      exact hlt

end NoreplyGateway.Keyset
