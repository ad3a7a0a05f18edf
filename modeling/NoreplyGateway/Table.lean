import Mathlib

namespace NoreplyGateway

/-- Rows in insertion order, no two of which have the same key. -/
structure Table {κ ρ : Type*} (key : ρ → κ) where
  rows : List ρ
  nodup : (rows.map key).Nodup

namespace Table

variable {κ ρ : Type*} {key : ρ → κ}

def empty : Table key := ⟨[], List.nodup_nil⟩

def update (t : Table key) (p : ρ → Bool) (f : ρ → ρ) (hf : ∀ r, key (f r) = key r) : Table key :=
  ⟨t.rows.map (fun r ↦ if p r then f r else r), by
    have he : (t.rows.map (fun r ↦ if p r then f r else r)).map key = t.rows.map key := by
      rw [List.map_map]
      refine List.map_congr_left (fun r _ ↦ ?_)
      by_cases hp : p r = true
      · simp only [Function.comp_apply, if_pos hp, hf]
      · simp only [Function.comp_apply, if_neg hp]
    rw [he]
    exact t.nodup⟩

def delete (t : Table key) (p : ρ → Bool) : Table key :=
  ⟨t.rows.filter (fun r ↦ !p r), t.nodup.sublist (List.filter_sublist.map key)⟩

/-- The total of a column. -/
def total (t : Table key) (f : ρ → ℤ) : ℤ := (t.rows.map f).sum

section Total

variable {t u : Table key} {r r' : ρ}

@[ext] theorem ext (h : t.rows = u.rows) : t = u := by
  cases t
  cases u
  simp_all

theorem eq_of_key (hr : r ∈ t.rows) (hr' : r' ∈ t.rows) (h : key r = key r') : r = r' :=
  List.inj_on_of_nodup_map t.nodup hr hr' h

@[simp] theorem total_empty {f : ρ → ℤ} : (empty : Table key).total f = 0 := rfl

theorem total_append {rs : List ρ} {f : ρ → ℤ} (h : u.rows = t.rows ++ rs) :
    u.total f = t.total f + (rs.map f).sum := by
  rw [total, h, List.map_append, List.sum_append]
  rfl

theorem total_update {p : ρ → Bool} {f : ρ → ρ} (hf : ∀ r, key (f r) = key r) {g : ρ → ℤ}
    (hg : ∀ r ∈ t.rows, p r = true → g (f r) = g r) : (t.update p f hf).total g = t.total g := by
  rw [total, update, List.map_map]
  refine congrArg List.sum (List.map_congr_left (fun r hr ↦ ?_))
  by_cases hp : p r = true
  · simp only [Function.comp_apply, if_pos hp, hg r hr hp]
  · simp only [Function.comp_apply, if_neg hp]

theorem total_delete {p : ρ → Bool} {g : ρ → ℤ} (hg : ∀ r ∈ t.rows, p r = true → g r = 0) :
    (t.delete p).total g = t.total g := by
  have hsum : ∀ l : List ρ, (∀ r ∈ l, p r = true → g r = 0) →
      ((l.filter (fun r ↦ !p r)).map g).sum = (l.map g).sum := by
    intro l hl
    induction l with
    | nil => rfl
    | cons r l ih =>
      have ih := ih (fun r' hr' ↦ hl r' (List.mem_cons_of_mem _ hr'))
      cases hp : p r with
      | true => simp [hp, ih, hl r (List.mem_cons_self ..) hp]
      | false => simp [hp, ih]
  exact hsum t.rows hg

theorem total_nonneg {g : ρ → ℤ} (hg : ∀ r ∈ t.rows, 0 ≤ g r) : 0 ≤ t.total g := by
  refine List.sum_nonneg (fun x hx ↦ ?_)
  obtain ⟨r, hr, rfl⟩ := List.mem_map.mp hx
  exact hg r hr

end Total

variable [DecidableEq κ]

def find? (t : Table key) (k : κ) : Option ρ := t.rows.find? (fun r ↦ key r = k)

/-- Insertion fails on a key that is already there. -/
def insert (t : Table key) (r : ρ) : Option (Table key) :=
  if h : key r ∈ t.rows.map key then none
  else some ⟨t.rows ++ [r], by
    rw [List.map_append, List.map_singleton]
    exact t.nodup.append (List.nodup_singleton _) (List.disjoint_singleton.mpr h)⟩

/-- All the rows are inserted or none is. -/
def insertMany (t : Table key) : List ρ → Option (Table key)
  | [] => some t
  | r :: rs => (t.insert r).bind (insertMany · rs)

def updateAt (t : Table key) (k : κ) (f : ρ → ρ) (hf : ∀ r, key (f r) = key r) : Table key :=
  t.update (fun r ↦ key r = k) f hf

variable {t u : Table key} {k : κ} {r r' : ρ}

@[simp] theorem find?_empty : (empty : Table key).find? k = none := rfl

theorem find?_eq_none : t.find? k = none ↔ ∀ r ∈ t.rows, key r ≠ k := by
  simp [find?]

theorem mem_of_find? (h : t.find? k = some r) : r ∈ t.rows := List.mem_of_find?_eq_some h

theorem key_of_find? (h : t.find? k = some r) : key r = k := by
  simpa only [decide_eq_true_eq] using List.find?_some h

theorem find?_of_mem (h : r ∈ t.rows) : t.find? (key r) = some r := by
  cases hf : t.find? (key r) with
  | none => exact absurd rfl (find?_eq_none.mp hf r h)
  | some r' => rw [eq_of_key (mem_of_find? hf) h (key_of_find? hf)]

theorem find?_eq_some : t.find? k = some r ↔ r ∈ t.rows ∧ key r = k :=
  ⟨fun h ↦ ⟨mem_of_find? h, key_of_find? h⟩, fun ⟨h, hk⟩ ↦ hk ▸ find?_of_mem h⟩

/-- A row and the rows around it, whose keys are different. -/
theorem exists_split (h : t.find? k = some r) :
    ∃ l₁ l₂, t.rows = l₁ ++ r :: l₂ ∧ ∀ r' ∈ l₁ ++ l₂, key r' ≠ k := by
  obtain ⟨hm, rfl⟩ := find?_eq_some.mp h
  obtain ⟨l₁, l₂, hl⟩ := List.append_of_mem hm
  have hn := t.nodup
  rw [hl, List.map_append, List.map_cons, List.nodup_middle, List.nodup_cons,
    ← List.map_append] at hn
  exact ⟨l₁, l₂, hl, fun r' hr' he ↦ hn.1 (he ▸ List.mem_map_of_mem hr')⟩

theorem filter_key (h : t.find? k = some r) : t.rows.filter (fun r' ↦ key r' = k) = [r] := by
  obtain ⟨l₁, l₂, hl, hother⟩ := exists_split h
  simp only [List.mem_append] at hother
  rw [hl, List.filter_append, List.filter_cons_of_pos (by simp [key_of_find? h]),
    List.filter_eq_nil_iff.mpr (fun r' hr' ↦ by simpa using hother r' (.inl hr')),
    List.filter_eq_nil_iff.mpr (fun r' hr' ↦ by simpa using hother r' (.inr hr'))]
  rfl

theorem insert_eq_some : t.insert r = some u ↔ t.find? (key r) = none ∧ u.rows = t.rows ++ [r] := by
  have hk : t.find? (key r) = none ↔ key r ∉ t.rows.map key := by
    rw [find?_eq_none, List.mem_map]
    grind
  unfold insert
  split_ifs with h
  · simp [hk, h]
  · simp only [hk, Option.some_inj]
    exact ⟨fun e ↦ ⟨h, by rw [← e]⟩, fun e ↦ ext e.2.symm⟩

theorem find?_append {rs : List ρ} (h : u.rows = t.rows ++ rs) :
    u.find? k = (t.find? k).or (rs.find? (fun r ↦ key r = k)) := by
  rw [find?, h, List.find?_append]
  rfl

theorem insertMany_eq_some {rs : List ρ} (h : t.insertMany rs = some u) :
    u.rows = t.rows ++ rs ∧ ∀ r ∈ rs, t.find? (key r) = none := by
  induction rs generalizing t with
  | nil => simp_all [insertMany]
  | cons r rs ih =>
    simp only [insertMany, Option.bind_eq_some_iff] at h
    obtain ⟨v, hv, hu⟩ := h
    obtain ⟨hr, hrows⟩ := insert_eq_some.mp hv
    obtain ⟨hurows, hrs⟩ := ih hu
    refine ⟨by rw [hurows, hrows, List.append_assoc]; rfl, ?_⟩
    intro r' hr'
    rcases List.mem_cons.mp hr' with rfl | hr'
    · exact hr
    · have hn := hrs r' hr'
      rw [find?_append hrows, Option.or_eq_none_iff] at hn
      exact hn.1

theorem insertMany_of_fresh {rs : List ρ} (hn : (rs.map key).Nodup)
    (hf : ∀ r ∈ rs, t.find? (key r) = none) : ∃ u, t.insertMany rs = some u := by
  induction rs generalizing t with
  | nil => exact ⟨t, rfl⟩
  | cons r rs ih =>
    obtain ⟨hr, hn⟩ := List.nodup_cons.mp hn
    obtain ⟨v, hv⟩ : ∃ v, t.insert r = some v := by
      unfold insert
      have hk : key r ∉ t.rows.map key := by
        have := find?_eq_none.mp (hf r (List.mem_cons_self ..))
        simpa using this
      exact ⟨_, dif_neg hk⟩
    obtain ⟨-, hrows⟩ := insert_eq_some.mp hv
    obtain ⟨u, hu⟩ := ih (t := v) hn (fun r' hr' ↦ by
      rw [find?_append hrows, hf r' (List.mem_cons_of_mem _ hr'), Option.none_or]
      have hne : key r ≠ key r' := fun e ↦ hr (e ▸ List.mem_map_of_mem hr')
      simp [hne])
    exact ⟨u, by simp only [insertMany, hv, Option.bind_some, hu]⟩

@[simp] theorem find?_update {p : ρ → Bool} {f : ρ → ρ} {hf : ∀ r, key (f r) = key r} :
    (t.update p f hf).find? k = (t.find? k).map (fun r ↦ if p r then f r else r) := by
  have hk : ((fun r ↦ decide (key r = k)) ∘ fun r ↦ if p r then f r else r) =
      fun r ↦ decide (key r = k) := by
    funext r
    by_cases hp : p r = true
    · simp only [Function.comp_apply, if_pos hp, hf]
    · simp only [Function.comp_apply, if_neg hp]
  rw [find?, update, List.find?_map, hk]
  rfl

@[simp] theorem find?_updateAt {f : ρ → ρ} {hf : ∀ r, key (f r) = key r} :
    (t.updateAt k f hf).find? k = (t.find? k).map f := by
  rw [updateAt, find?_update]
  cases h : t.find? k with
  | none => rfl
  | some r => simp [key_of_find? h]

theorem find?_updateAt_ne {f : ρ → ρ} (hf : ∀ r, key (f r) = key r) {k' : κ} (hk : k' ≠ k) :
    (t.updateAt k f hf).find? k' = t.find? k' := by
  rw [updateAt, find?_update]
  cases h : t.find? k' with
  | none => rfl
  | some r => simp [key_of_find? h, hk]

theorem find?_delete {p : ρ → Bool} :
    (t.delete p).find? k = (t.find? k).filter (fun r ↦ !p r) := by
  cases h : t.find? k with
  | none =>
    rw [find?_eq_none] at h
    exact find?_eq_none.mpr (fun r hr ↦ h r (List.mem_filter.mp hr).1)
  | some r =>
    obtain ⟨hm, hk⟩ := find?_eq_some.mp h
    by_cases hp : p r = true
    · simp only [Option.filter_some, hp, Bool.not_true, if_neg Bool.false_ne_true]
      refine find?_eq_none.mpr (fun r' hr' hk' ↦ ?_)
      obtain ⟨hm', hp'⟩ := List.mem_filter.mp hr'
      have he := eq_of_key hm' hm (hk'.trans hk.symm)
      simp [he, hp] at hp'
    · simp only [Bool.not_eq_true] at hp
      simp only [Option.filter_some, hp, Bool.not_false, if_true]
      exact find?_eq_some.mpr ⟨List.mem_filter.mpr ⟨hm, by simp [hp]⟩, hk⟩

theorem total_updateAt {f : ρ → ρ} {hf : ∀ r, key (f r) = key r} {g : ρ → ℤ}
    (h : t.find? k = some r) : (t.updateAt k f hf).total g = t.total g - g r + g (f r) := by
  obtain ⟨l₁, l₂, hl, hother⟩ := exists_split h
  have hsame : ∀ l : List ρ, (∀ r' ∈ l, key r' ≠ k) →
      (l.map (g ∘ fun r' ↦ if decide (key r' = k) = true then f r' else r')).sum =
        (l.map g).sum := by
    intro l hl
    refine congrArg List.sum (List.map_congr_left (fun r' hr' ↦ ?_))
    simp [hl r' hr']
  rw [total, total, updateAt, update, List.map_map, hl]
  simp only [List.map_append, List.map_cons, List.sum_append, List.sum_cons,
    hsame l₁ (fun r' hr' ↦ hother r' (List.mem_append_left _ hr')),
    hsame l₂ (fun r' hr' ↦ hother r' (List.mem_append_right _ hr')), Function.comp_apply,
    key_of_find? h, decide_true, if_true]
  ring

/-- Deleting one row takes its part from the total. -/
theorem total_delete_key {g : ρ → ℤ} (h : t.find? k = some r) :
    (t.delete (key · = k)).total g = t.total g - g r := by
  obtain ⟨l₁, l₂, hl, hother⟩ := exists_split h
  have hkept : ∀ l : List ρ, (∀ r' ∈ l, key r' ≠ k) →
      l.filter (fun r' ↦ !decide (key r' = k)) = l := by
    intro l hl
    exact List.filter_eq_self.mpr (fun r' hr' ↦ by simp [hl r' hr'])
  have hrows : (t.delete (key · = k)).rows = t.rows.filter (fun r' ↦ !decide (key r' = k)) := rfl
  rw [total, total, hrows, hl]
  simp only [List.filter_append, List.filter_cons, key_of_find? h, decide_true, Bool.not_true,
    Bool.false_eq_true, if_false, hkept l₁ (fun r' hr' ↦ hother r' (List.mem_append_left _ hr')),
    hkept l₂ (fun r' hr' ↦ hother r' (List.mem_append_right _ hr')), List.map_append,
    List.map_cons, List.sum_append, List.sum_cons]
  ring

theorem map_key_replace {rows : List ρ} :
    (rows.map (fun s ↦ if key s = key r then r else s)).map key = rows.map key := by
  rw [List.map_map]
  refine List.map_congr_left (fun s _ ↦ ?_)
  by_cases hs : key s = key r
  · simp [hs]
  · simp [hs]

/-- A row takes the place of the one with its key, or comes last. -/
def put (t : Table key) (r : ρ) : Table key :=
  if h : key r ∈ t.rows.map key then
    ⟨t.rows.map (fun s ↦ if key s = key r then r else s), by
      rw [map_key_replace]
      exact t.nodup⟩
  else ⟨t.rows ++ [r], by
    rw [List.map_append, List.map_singleton]
    exact t.nodup.append (List.nodup_singleton _) (List.disjoint_singleton.mpr h)⟩

def putMany (t : Table key) (rs : List ρ) : Table key := rs.foldl put t

end Table

end NoreplyGateway
