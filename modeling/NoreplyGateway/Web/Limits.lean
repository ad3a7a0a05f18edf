import NoreplyGateway.Assoc
import NoreplyGateway.SlidingWindow
import NoreplyGateway.Web.Throttle

namespace NoreplyGateway.Web

open Assoc SlidingWindow

/-- The instants of the log's admissions from `θ` on, by client. -/
structure Attempts.Holds (attempts : Attempts) (log : List (String × Time)) (θ : Time) : Prop where
  keys : (attempts.map Prod.fst).Nodup
  lookup : ∀ key, (attempts.lookup key).getD [] = since θ (instants key log)

variable {attempts : Attempts} {log : List (String × Time)} {θ now : Time} {key : String}

/-- The log is in the order of time. -/
def Ordered (log : List (String × Time)) : Prop := (log.map Prod.snd).Pairwise (· ≤ ·)

theorem Ordered.instants (h : Ordered log) (key : String) : (instants key log).Pairwise (· ≤ ·) :=
  h.sublist instants_sublist

namespace Attempts

theorem Holds.prune (h : attempts.Holds log θ) (ho : Ordered log) (hθ : θ ≤ now - windowSeconds) :
    (attempts.prune now).Holds log (now - windowSeconds) := by
  have hkeys : ((attempts.map fun x ↦
      (x.1, x.2.dropWhile (· < now - windowSeconds))).map Prod.fst).Nodup := by
    rw [List.map_map]
    exact h.keys
  refine ⟨hkeys.sublist (List.filter_sublist.map _), fun key ↦ ?_⟩
  have hmap := lookup_map_values (l := attempts) (a := key)
    fun _ v ↦ v.dropWhile (· < now - (windowSeconds : Time))
  unfold Attempts.prune
  refine (lookup_filter_nonempty hkeys).trans ((congrArg (·.getD []) hmap).trans ?_)
  have hgetD : ((attempts.lookup key).map (·.dropWhile (· < now - (windowSeconds : Time)))).getD [] =
      ((attempts.lookup key).getD []).dropWhile (· < now - (windowSeconds : Time)) := by
    cases attempts.lookup key <;> rfl
  rw [hgetD, h.lookup, dropWhile_eq_since (since_sorted (ho.instants key)), since_since hθ]

theorem Holds.touch (h : attempts.Holds log θ) (key : String) : (attempts.touch key).Holds log θ := by
  unfold Attempts.touch
  split_ifs with hsome
  · exact h
  · rw [Option.not_isSome_iff_eq_none] at hsome
    refine ⟨?_, fun k ↦ ?_⟩
    · rw [List.map_append, List.nodup_append]
      refine ⟨h.keys, List.nodup_singleton _, ?_⟩
      rintro k hk _ hk' rfl
      obtain rfl := List.mem_singleton.mp hk'
      obtain ⟨⟨k, v⟩, hmem, rfl⟩ := List.mem_map.mp hk
      rw [lookup_eq_of_mem h.keys hmem] at hsome
      cases hsome
    · rw [List.lookup_append, ← h.lookup k]
      cases attempts.lookup k with
      | none =>
        by_cases hk : k = key
        · simp [hk]
        · simp [List.lookup_cons, beq_false_of_ne hk]
      | some => rfl

theorem Holds.record (h : attempts.Holds log θ) (hkey : (attempts.lookup key).isSome)
    (hθ : θ ≤ now) : (attempts.record key now).Holds (log ++ [(key, now)]) θ := by
  refine ⟨?_, fun k ↦ ?_⟩
  · unfold Attempts.record
    rw [List.map_map]
    exact h.keys
  · unfold Attempts.record
    rw [lookup_map_values fun k v ↦ if k = key then v ++ [now] else v, instants_append,
      instants_singleton, since_append, ← h.lookup k]
    by_cases hk : k = key
    · subst hk
      obtain ⟨v, hv⟩ := Option.isSome_iff_exists.mp hkey
      simp [hv, since, hθ]
    · simp only [if_neg hk, if_neg (Ne.symm hk)]
      cases attempts.lookup k <;> simp [since]

theorem Holds.mem (h : attempts.Holds log θ) {x : String × List Time} (hx : x ∈ attempts) :
    x.2 = since θ (instants x.1 log) := by
  rw [← h.lookup, lookup_eq_of_mem h.keys hx]
  rfl

/-- The number of all recorded attempts. -/
theorem Holds.total (h : attempts.Holds log θ) :
    attempts.total = (since θ (log.map Prod.snd)).length := by
  have hrecent : since θ (log.map Prod.snd) = (log.filter (θ ≤ ·.2)).map Prod.snd := by
    rw [since, List.filter_map]
    rfl
  have hinstants : ∀ k, instants k (log.filter (θ ≤ ·.2)) = since θ (instants k log) := by
    intro k
    unfold instants since
    rw [List.filter_map, List.filter_filter, List.filter_filter]
    congr 1
    exact List.filter_congr fun x _ ↦ Bool.and_comm _ _
  have hcovered : ∀ x ∈ log.filter (θ ≤ ·.2), x.1 ∈ attempts.map Prod.fst := by
    intro x hx
    obtain ⟨hmem, hθ⟩ := List.mem_filter.mp hx
    have hinstant : x.2 ∈ since θ (instants x.1 log) :=
      List.mem_filter.mpr ⟨List.mem_map_of_mem (List.mem_filter.mpr ⟨hmem, by simp⟩), hθ⟩
    rw [← h.lookup] at hinstant
    cases hl : attempts.lookup x.1 with
    | none =>
      rw [hl] at hinstant
      cases hinstant
    | some v => exact mem_keys_of_lookup hl
  rw [hrecent, List.length_map, ← sum_instants h.keys hcovered, List.map_map]
  refine congrArg List.sum (List.map_congr_left fun x hx ↦ ?_)
  rw [Function.comp_apply, hinstants, h.mem hx]

theorem prune_nonempty {x : String × List Time} (hx : x ∈ attempts.prune now) : x.2 ≠ [] := by
  obtain ⟨-, hx⟩ := List.mem_filter.mp hx
  rintro hempty
  rw [hempty] at hx
  cases hx

section Oldest

variable {α β : Type} {f : α → Option β} {l : List α}

theorem mapM_eq_none {x : α} (hx : x ∈ l) (hf : f x = none) : l.mapM f = none := by
  induction l with
  | nil => cases hx
  | cons y l ih =>
    rw [List.mapM_cons]
    rcases List.mem_cons.mp hx with rfl | hx
    · rw [hf]
      rfl
    · rw [ih hx]
      cases f y <;> rfl

theorem mapM_eq_map {g : α → β} (hf : ∀ x ∈ l, f x = some (g x)) : l.mapM f = some (l.map g) := by
  induction l with
  | nil => rfl
  | cons y l ih =>
    rw [List.mapM_cons, hf y List.mem_cons_self, ih fun x hx ↦ hf x (List.mem_cons_of_mem _ hx)]
    rfl

end Oldest

/-- The first recent instant of a log is the first one of its client. -/
theorem head_instants {b : Time} (h : (since θ (log.map Prod.snd)).head? = some b) :
    ∃ k, (since θ (instants k log)).head? = some b := by
  induction log with
  | nil => cases h
  | cons x log ih =>
    by_cases hrecent : θ ≤ x.2
    · refine ⟨x.1, ?_⟩
      simp only [since, List.map_cons, List.filter_cons, hrecent, decide_true, if_true,
        List.head?_cons, Option.some.injEq] at h
      subst h
      simp [since, instants, hrecent]
    · obtain ⟨k, hk⟩ := ih (by simpa [since, hrecent] using h)
      refine ⟨k, ?_⟩
      by_cases hx : x.1 = k <;> simpa [since, instants, hrecent, hx] using hk

/-- The oldest of all recorded attempts is the first recent one of the log. -/
theorem Holds.oldest (h : attempts.Holds log θ) (ho : Ordered log)
    (hne : ∀ x ∈ attempts, x.2 ≠ []) : attempts.oldest = (since θ (log.map Prod.snd)).head? := by
  have hheads : ∀ x ∈ attempts, x.2.head? = some (x.2.headD 0) := by
    intro x hx
    cases hl : x.2 with
    | nil => exact absurd hl (hne x hx)
    | cons => rfl
  have hsub : ∀ k, (since θ (instants k log)).Sublist (since θ (log.map Prod.snd)) :=
    fun k ↦ instants_sublist.filter _
  unfold Attempts.oldest
  rw [mapM_eq_map hheads]
  cases hb : (since θ (log.map Prod.snd)).head? with
  | none =>
    rw [List.head?_eq_none_iff] at hb
    have hempty : attempts = [] := by
      refine List.eq_nil_iff_forall_not_mem.mpr fun x hx ↦ hne x hx ?_
      have hsub := hsub x.1
      rw [hb, List.sublist_nil] at hsub
      rw [h.mem hx, hsub]
    rw [hempty]
    rfl
  | some b =>
    refine List.min?_eq_some_iff.mpr ⟨?_, fun c hc ↦ ?_⟩
    · obtain ⟨k, hk⟩ := head_instants hb
      rw [← h.lookup] at hk
      cases hl : attempts.lookup k with
      | none =>
        rw [hl] at hk
        cases hk
      | some v =>
        rw [hl] at hk
        obtain ⟨l₁, l₂, hmem, -⟩ := List.lookup_eq_some_iff.mp hl
        refine List.mem_map.mpr ⟨(k, v), by simp [hmem], ?_⟩
        rw [List.headD_eq_head?_getD, show v.head? = some b from hk]
        rfl
    · obtain ⟨x, hx, rfl⟩ := List.mem_map.mp hc
      obtain ⟨rest, hrest⟩ := List.head?_eq_some_iff.mp hb
      have hmem : x.2.headD 0 ∈ since θ (log.map Prod.snd) := by
        refine (hsub x.1).subset ?_
        rw [← h.mem hx]
        exact List.mem_of_head? (hheads x hx)
      have hsorted := since_sorted (θ := θ) ho
      rw [hrest] at hsorted hmem
      rcases List.mem_cons.mp hmem with hfirst | hlater
      · exact hfirst.ge
      · exact (List.pairwise_cons.mp hsorted).1 _ hlater

end Attempts

open Attempts

/-- The client's admissions in the window that ends now, and all of them. -/
def clientWindow (log : List (String × Time)) (key : String) (now : Time) : List Time :=
  since (now - windowSeconds) (instants key log)

def window (log : List (String × Time)) (now : Time) : List Time :=
  since (now - windowSeconds) (log.map Prod.snd)

/-- The client's admissions or all admissions have reached their limit. -/
def Exceeds (log : List (String × Time)) (key : String) (now : Time) : Prop :=
  perClientLimit ≤ (clientWindow log key now).length ∨ globalLimit ≤ (window log now).length

/-- The admission that has to leave the window before the client's next one. -/
def blocking (log : List (String × Time)) (key : String) (now : Time) : Option Time :=
  if perClientLimit ≤ (clientWindow log key now).length then (clientWindow log key now).head?
  else (window log now).head?

def tooMany (now b : Time) : Reply where
  status := 429
  error := some "Too many sign-in attempts; try again later"
  retryAfter := some (retryAfter now b)

variable {urls : UrlLibrary} {config : Config} {r : Request}

theorem Attempts.Holds.touched (h : attempts.Holds log θ) (ho : Ordered log)
    (hθ : θ ≤ now - windowSeconds) (key : String) :
    ((attempts.prune now).touch key).Holds log (now - windowSeconds) :=
  (h.prune ho hθ).touch key

theorem lookup_touch (attempts : Attempts) (key : String) :
    ((attempts.touch key).lookup key).isSome = true := by
  unfold Attempts.touch
  split_ifs with hsome
  · exact hsome
  · rw [Option.not_isSome_iff_eq_none] at hsome
    simp [List.lookup_append, hsome]

theorem oldest_touch (h : attempts.Holds log θ) (ho : Ordered log)
    (hθ : θ ≤ now - windowSeconds) (hne : clientWindow log key now ≠ []) :
    ((attempts.prune now).touch key).oldest = (window log now).head? := by
  have hpruned := h.prune ho hθ
  have hsome : ((attempts.prune now).lookup key).isSome = true := by
    by_contra hnone
    rw [Bool.not_eq_true, Option.isSome_eq_false_iff, Option.isNone_iff_eq_none] at hnone
    have hlookup := hpruned.lookup key
    rw [hnone] at hlookup
    exact hne hlookup.symm
  rw [Attempts.touch, if_pos hsome]
  exact hpruned.oldest ho fun x hx ↦ prune_nonempty hx

theorem oldest_unseen (h : attempts.Holds log θ) (ho : Ordered log)
    (hθ : θ ≤ now - windowSeconds) (hnone : clientWindow log key now = []) :
    ((attempts.prune now).touch key).oldest = none := by
  have hlookup := (h.touched ho hθ key).lookup key
  obtain ⟨v, hv⟩ := Option.isSome_iff_exists.mp (lookup_touch (attempts.prune now) key)
  rw [hv, ← clientWindow, hnone] at hlookup
  obtain ⟨l₁, l₂, hmem, -⟩ := List.lookup_eq_some_iff.mp hv
  unfold Attempts.oldest
  rw [mapM_eq_none (x := (key, v)) (by simp [hmem]) (by rw [show v = [] from hlookup]; rfl)]
  rfl

/-- The choice among the oldest attempts, unless it raises. -/
theorem oldest_blocking (ho : Ordered log) {oldest : Option Time} (hx : Exceeds log key now)
    (hseen : clientWindow log key now ≠ [] → oldest = (window log now).head?)
    (hunseen : clientWindow log key now = [] → oldest = none) :
    (((if perClientLimit ≤ (clientWindow log key now).length then
        [(clientWindow log key now).head?] else []) ++
      if globalLimit ≤ (window log now).length then [oldest] else []).mapM id).bind List.max? =
    if clientWindow log key now = [] then none else blocking log key now := by
  have hsub : (clientWindow log key now).Sublist (window log now) := instants_sublist.filter _
  unfold blocking
  cases hclient : clientWindow log key now with
  | nil =>
    have hglobal : globalLimit ≤ (window log now).length := by
      refine hx.resolve_left fun hle ↦ ?_
      rw [hclient] at hle
      cases hle
    rw [hunseen hclient, if_pos hglobal, if_pos rfl, if_neg (by decide)]
    rfl
  | cons c rest =>
    have hmem : c ∈ window log now := hsub.subset (by simp [hclient])
    obtain ⟨a, rest', hwindow⟩ := List.exists_cons_of_ne_nil (List.ne_nil_of_mem hmem)
    have hsorted := since_sorted (θ := now - windowSeconds) ho
    have hle : a ≤ c := by
      rw [← window, hwindow] at hsorted
      rw [hwindow] at hmem
      rcases List.mem_cons.mp hmem with rfl | hlater
      · exact le_rfl
      · exact (List.pairwise_cons.mp hsorted).1 c hlater
    rw [hseen (by simp [hclient]), if_neg (List.cons_ne_nil c rest), hwindow]
    rw [Exceeds, hclient, hwindow] at hx
    by_cases hC : perClientLimit ≤ (c :: rest).length
    · by_cases hG : globalLimit ≤ (a :: rest').length
      · rw [if_pos hC, if_pos hG, if_pos hC]
        exact congrArg some (max_eq_left hle)
      · rw [if_pos hC, if_neg hG, if_pos hC]
        rfl
    · rw [if_neg hC, if_pos (hx.resolve_left hC), if_neg hC]
      rfl

theorem throttle_admits (h : attempts.Holds log θ) (ho : Ordered log)
    (hθ : θ ≤ now - windowSeconds) (hk : clientKey urls config r = .ok key)
    (hx : ¬Exceeds log key now) : (throttle urls config attempts r now).2 = none ∧
      (throttle urls config attempts r now).1.Holds (log ++ [(key, now)]) (now - windowSeconds) := by
  have htouched := h.touched ho hθ key
  have hclient : _ = clientWindow log key now := htouched.lookup key
  have htotal : _ = (window log now).length := htouched.total
  have hthrottle : throttle urls config attempts r now =
      (((attempts.prune now).touch key).record key now, none) := by
    unfold throttle
    simp only [hk, hclient, htotal]
    exact if_neg hx
  rw [hthrottle]
  exact ⟨rfl, htouched.record (lookup_touch _ _) (by simp)⟩

theorem throttle_exceeds (h : attempts.Holds log θ) (ho : Ordered log)
    (hθ : θ ≤ now - windowSeconds) (hk : clientKey urls config r = .ok key)
    (hx : Exceeds log key now) :
    (throttle urls config attempts r now).1.Holds log (now - windowSeconds) ∧
    (throttle urls config attempts r now).2 = some
      (((if clientWindow log key now = [] then none else blocking log key now).map
        (tooMany now)).getD .internal) := by
  have htouched := h.touched ho hθ key
  have hclient : _ = clientWindow log key now := htouched.lookup key
  have htotal : _ = (window log now).length := htouched.total
  have holdest := oldest_blocking ho hx (fun hne ↦ oldest_touch h ho hθ hne)
    (fun hnone ↦ oldest_unseen h ho hθ hnone)
  have hthrottle : throttle urls config attempts r now =
      ((attempts.prune now).touch key, some
        (((if clientWindow log key now = [] then none else blocking log key now).map
          (tooMany now)).getD .internal)) := by
    unfold throttle
    simp only [hk, hclient, htotal]
    refine (if_pos hx).trans ?_
    rw [holdest]
    cases (if clientWindow log key now = [] then none else blocking log key now) <;> rfl
  rw [hthrottle]
  exact ⟨htouched, rfl⟩

end NoreplyGateway.Web
