import NoreplyGateway.AtomicFiles

/-! A program that makes one write after another and stops at the first that raises. -/

namespace NoreplyGateway.AtomicFiles

open Machine

structure Script (ν κ : Type) where
  files : Files ν κ
  todo : List (ν × κ)
  active : Option ν := none
  done : List (ν × κ) := []

/-- The steps of the program. `stop` is an exception between two writes. -/
inductive Move (ν κ : Type)
  | start (temporary : ν)
  | advance
  | fail (effect : Bool)
  | scribble (content : κ)
  | cleanup (removed : Bool)
  | stop
  | kill
  | crash (choose : ν → ℕ) (torn : ℕ → κ)

variable {ν κ δ : Type} [DecidableEq ν] [DecidableEq δ] (directory : ν → δ)
  (isTemporary : ν → Bool) (empty : κ)

def Script.step (s : Script ν κ) : Move ν κ → Option (Script ν κ)
  | .start t =>
    match s.active, s.todo with
    | none, (path, x) :: rest =>
      (s.files.step directory isTemporary empty (.start path t x)).map fun f ↦
        { s with files := f, todo := rest, active := some t }
    | _, _ => none
  | .advance =>
    s.active.bind fun t ↦ (s.files.writes t).bind fun w ↦
      (s.files.step directory isTemporary empty (.advance t)).map fun f ↦
        if (f.writes t).isSome then { s with files := f }
        else { s with files := f, active := none, done := s.done ++ [(w.path, w.data)] }
  | .fail effect =>
    s.active.bind fun t ↦ (s.files.step directory isTemporary empty (.fail t effect)).map fun f ↦
      { s with files := f, todo := [] }
  | .scribble x =>
    s.active.bind fun t ↦ (s.files.step directory isTemporary empty (.scribble t x)).map fun f ↦
      { s with files := f, todo := [] }
  | .cleanup removed =>
    s.active.bind fun t ↦
      (s.files.step directory isTemporary empty (.cleanup t removed)).map fun f ↦
        { s with files := f, todo := [], active := none }
  | .stop => if s.active = none then some { s with todo := [] } else none
  | .kill =>
    (s.files.step directory isTemporary empty .kill).map fun f ↦
      { s with files := f, todo := [], active := none }
  | .crash choose torn =>
    (s.files.step directory isTemporary empty (.crash choose torn)).map fun f ↦
      { s with files := f, todo := [], active := none }

/-- What the names may show once the writes of the list have returned. The marker
shows nothing before all the earlier writes are among them. -/
def Allowed (earlier : List (ν × κ)) (marker : ν) (x : κ) (done : List (ν × κ)) (n : ν)
    (c : Option κ) : Prop :=
  (∀ z, (n, z) ∈ done → c = some z) ∧
    (n = marker → c = none ∨ c = some x ∧ ∀ entry ∈ earlier, entry ∈ done)

variable {directory isTemporary empty} {earlier done rest : List (ν × κ)} {marker path : ν}
  {x y : κ} {s s' : Script ν κ} {f f' : Files ν κ} {w : Writing ν κ} {t : ν}

omit [DecidableEq ν] in
theorem allowed_next (hnodup : ((earlier ++ [(marker, x)]).map Prod.fst).Nodup)
    (hplan : earlier ++ [(marker, x)] = done ++ (path, y) :: rest) :
    Allowed earlier marker x done path (some y) := by
  have hnew : ∀ z, (path, z) ∉ done := by
    intro z hz
    rw [hplan, List.map_append, List.nodup_append] at hnodup
    exact hnodup.2.2 path (List.mem_map.mpr ⟨_, hz, rfl⟩) path (by simp) rfl
  refine ⟨fun z hz ↦ absurd hz (hnew z), ?_⟩
  intro hp
  subst hp
  obtain ⟨a, hdone, hlast⟩ | ⟨a, hearlier, hnext⟩ := List.append_eq_append_iff.mp hplan
  · have ha : a = [] := by
      cases a with
      | nil => rfl
      | cons => simp at hlast
    subst ha
    obtain ⟨⟨-, rfl⟩, -⟩ : (path = path ∧ x = y) ∧ [] = rest := by simpa using hlast
    exact .inr ⟨rfl, fun entry h ↦ by simpa [hdone] using h⟩
  · cases a with
    | nil =>
      obtain ⟨⟨-, rfl⟩, -⟩ : (path = path ∧ y = x) ∧ rest = [] := by simpa using hnext
      exact .inr ⟨rfl, fun entry h ↦ by simpa [hearlier] using h⟩
    | cons b a =>
      -- the marker would be among the earlier targets
      obtain ⟨rfl, -⟩ := List.cons.inj hnext
      rw [hearlier] at hnodup
      simp [List.nodup_append] at hnodup

omit [DecidableEq ν] in
theorem allowed_done {n : ν} {c : Option κ} (h : Allowed earlier marker x done n c)
    (hc : n = path → c = some y) : Allowed earlier marker x (done ++ [(path, y)]) n c := by
  constructor
  · intro z hz
    rcases List.mem_append.mp hz with hz | hz
    · exact h.1 z hz
    · obtain ⟨rfl, rfl⟩ : n = path ∧ z = y := by simpa using hz
      exact hc rfl
  · intro hn
    apply (h.2 hn).imp_right
    exact fun ⟨hc, hall⟩ ↦ ⟨hc, fun entry hentry ↦ List.mem_append_left _ (hall entry hentry)⟩

/-- Where the program is in its list of writes. -/
structure Script.Keeps (isTemporary : ν → Bool) (earlier : List (ν × κ)) (marker : ν) (x : κ)
    (s : Script ν κ) : Prop where
  sound : Sound isTemporary (Allowed earlier marker x s.done) s.files
  idle : s.active = none → (∀ t, s.files.writes t = none) ∧
    (s.todo = [] ∨ earlier ++ [(marker, x)] = s.done ++ s.todo)
  busy : ∀ t, s.active = some t → ∃ w, s.files.writes t = some w ∧
    (∀ t', t' ≠ t → s.files.writes t' = none) ∧
    (w.stage = .raising ∧ s.todo = [] ∨ w.stage ≠ .raising ∧ Alone w.path w.data t s.files ∧
      earlier ++ [(marker, x)] = s.done ++ (w.path, w.data) :: s.todo)

theorem Script.Keeps.start (hnodup : ((earlier ++ [(marker, x)]).map Prod.fst).Nodup)
    (h : s.Keeps isTemporary earlier marker x) (hactive : s.active = none)
    (htodo : s.todo = (path, y) :: rest)
    (hf : s.files.step directory isTemporary empty (.start path t y) = some f) :
    Script.Keeps isTemporary earlier marker x
      { s with files := f, todo := rest, active := some t } := by
  obtain ⟨hfree, hplan⟩ := h.idle hactive
  have hplan : earlier ++ [(marker, x)] = s.done ++ (path, y) :: rest := by
    simpa [htodo] using hplan
  refine ⟨h.sound.step hf ?_, by simp, ?_⟩
  · rintro path' t' y' heq
    obtain ⟨rfl, rfl, rfl⟩ := Event.start.inj heq
    exact allowed_next hnodup hplan
  · intro t' ht'
    obtain rfl := Option.some.inj ht'
    have halone : Alone path y t f :=
      .of_start (fun t' w hw ↦ by simp [hfree t'] at hw) hf
    simp only [Files.step, Option.ite_none_right_eq_some, Option.some.injEq] at hf
    obtain ⟨-, rfl⟩ := hf
    refine ⟨_, Function.update_self .., ?_, .inr ⟨by simp, halone, hplan⟩⟩
    intro t' ht'
    simpa [Function.update_of_ne ht'] using hfree t'

theorem Script.Keeps.advance (h : s.Keeps isTemporary earlier marker x) (ht : s.active = some t)
    (hw : s.files.writes t = some w)
    (hf : s.files.step directory isTemporary empty (.advance t) = some f) :
    Script.Keeps isTemporary earlier marker x
      (if (f.writes t).isSome then { s with files := f }
      else { s with files := f, active := none, done := s.done ++ [(w.path, w.data)] }) := by
  obtain ⟨w₁, hw₁, hothers, hrest⟩ := h.busy t ht
  obtain rfl : w₁ = w := Option.some.inj (hw₁.symm.trans hw)
  have hstage : w₁.stage ≠ .raising := by
    intro hstage
    simp [Files.step, hw, hstage] at hf
  obtain ⟨halone, hplan⟩ := (hrest.resolve_left fun hr ↦ hstage hr.1).2
  have hsound := h.sound.step hf (by simp)
  have hwrites : f.writes = Function.update s.files.writes t w₁.next := by
    simp only [Files.step, hw, Option.bind_some, hstage, if_false, Option.some.injEq] at hf
    rw [← hf]
  have hfree : ∀ t', t' ≠ t → f.writes t' = none := by
    intro t' ht'
    rw [hwrites, Function.update_of_ne ht']
    exact hothers t' ht'
  cases hnext : w₁.next with
  | some w' =>
    obtain ⟨hpath, hdata⟩ := Writing.next_path hnext
    have hf' : f.writes t = some w' := by rw [hwrites, Function.update_self, hnext]
    rw [if_pos (by simp [hf'])]
    refine ⟨hsound, by simp [ht], ?_⟩
    intro t' ht'
    obtain rfl : t = t' := Option.some.inj (ht.symm.trans ht')
    refine ⟨w', hf', hfree, .inr ⟨?_, ?_, ?_⟩⟩
    · exact Writing.next_stage hstage hnext
    · rw [hpath, hdata]
      exact halone.step h.sound hf (by simp)
    · rw [hpath, hdata]
      exact hplan
  | none =>
    have hrenamed := Writing.renamed_of_next hnext
    rw [if_neg (by simp [hwrites, hnext])]
    obtain ⟨hreturned, -⟩ := h.sound.returned halone hw rfl hrenamed hf
    refine ⟨hreturned.mono fun n c hc ↦ allowed_done hc.1 hc.2, ?_, by simp⟩
    intro _
    refine ⟨?_, .inr (by simpa using hplan)⟩
    intro t'
    by_cases ht' : t' = t
    · rw [ht', hwrites, Function.update_self, hnext]
    · exact hfree t' ht'

/-- A write that raises is the last of the program. -/
theorem Script.Keeps.raise {event : Event ν κ} (h : s.Keeps isTemporary earlier marker x)
    (ht : s.active = some t) (hf : s.files.step directory isTemporary empty event = some f)
    (hevent : (∃ effect, event = .fail t effect) ∨ ∃ content, event = .scribble t content) :
    Script.Keeps isTemporary earlier marker x { s with files := f, todo := [] } := by
  obtain ⟨w, hw, hothers, -⟩ := h.busy t ht
  refine ⟨h.sound.step hf ?_, by simp [ht], ?_⟩
  · rintro path t' y rfl
    simp at hevent
  · intro t' ht'
    obtain rfl : t = t' := Option.some.inj (ht.symm.trans ht')
    have hwrites :
        f.writes = Function.update s.files.writes t (some { w with stage := .raising }) := by
      obtain ⟨effect, rfl⟩ | ⟨content, rfl⟩ := hevent
      · simp only [Files.step, hw, Option.bind_some, Option.ite_none_left_eq_some,
          Option.some.injEq] at hf
        obtain ⟨-, rfl⟩ := hf
        rfl
      · simp only [Files.step, hw, Option.bind_some, Option.ite_none_right_eq_some,
          Option.some.injEq] at hf
        obtain ⟨-, rfl⟩ := hf
        rfl
    refine ⟨_, by rw [hwrites, Function.update_self], ?_, .inl ⟨rfl, rfl⟩⟩
    intro t' ht'
    rw [hwrites, Function.update_of_ne ht']
    exact hothers t' ht'

/-- Steps after which no writer is left. -/
theorem Script.Keeps.quit {event : Event ν κ} (h : s.Keeps isTemporary earlier marker x)
    (hf : s.files.step directory isTemporary empty event = some f)
    (hstart : ∀ path t y, event ≠ .start path t y) (hfree : ∀ t, f.writes t = none) :
    Script.Keeps isTemporary earlier marker x { s with files := f, todo := [], active := none } :=
  ⟨h.sound.step hf fun path t y heq ↦ absurd heq (hstart path t y),
    fun _ ↦ ⟨hfree, .inl rfl⟩, by simp⟩

theorem Script.Keeps.step {move : Move ν κ}
    (hnodup : ((earlier ++ [(marker, x)]).map Prod.fst).Nodup)
    (h : s.Keeps isTemporary earlier marker x)
    (hs : s.step directory isTemporary empty move = some s') :
    s'.Keeps isTemporary earlier marker x := by
  cases move with
  | start t =>
    simp only [Script.step] at hs
    split at hs
    · rename_i path y rest hactive htodo
      obtain ⟨f, hf, rfl⟩ := Option.map_eq_some_iff.mp hs
      exact h.start hnodup hactive htodo hf
    · cases hs
  | advance =>
    obtain ⟨t, ht, hs⟩ := Option.bind_eq_some_iff.mp hs
    obtain ⟨w, hw, hs⟩ := Option.bind_eq_some_iff.mp hs
    obtain ⟨f, hf, rfl⟩ := Option.map_eq_some_iff.mp hs
    exact h.advance ht hw hf
  | fail effect =>
    obtain ⟨t, ht, hs⟩ := Option.bind_eq_some_iff.mp hs
    obtain ⟨f, hf, rfl⟩ := Option.map_eq_some_iff.mp hs
    exact h.raise ht hf (.inl ⟨effect, rfl⟩)
  | scribble content =>
    obtain ⟨t, ht, hs⟩ := Option.bind_eq_some_iff.mp hs
    obtain ⟨f, hf, rfl⟩ := Option.map_eq_some_iff.mp hs
    exact h.raise ht hf (.inr ⟨content, rfl⟩)
  | cleanup removed =>
    obtain ⟨t, ht, hs⟩ := Option.bind_eq_some_iff.mp hs
    obtain ⟨f, hf, rfl⟩ := Option.map_eq_some_iff.mp hs
    apply h.quit hf (by simp)
    obtain ⟨w, hw, hothers, -⟩ := h.busy t ht
    simp only [Files.step, hw, Option.bind_some, Option.ite_none_right_eq_some,
      Option.some.injEq] at hf
    obtain ⟨-, rfl⟩ := hf
    intro t'
    dsimp only
    by_cases ht' : t' = t
    · rw [ht', Function.update_self]
    · rw [Function.update_of_ne ht']
      exact hothers t' ht'
  | stop =>
    simp only [Script.step, Option.ite_none_right_eq_some, Option.some.injEq] at hs
    obtain ⟨hactive, rfl⟩ := hs
    exact ⟨h.sound, fun _ ↦ ⟨(h.idle hactive).1, .inl rfl⟩, by simp [hactive]⟩
  | kill =>
    simp only [Script.step, Option.map_eq_some_iff] at hs
    obtain ⟨f, hf, rfl⟩ := hs
    apply h.quit hf (by simp)
    obtain rfl := Option.some.inj hf
    exact fun _ ↦ rfl
  | crash choose torn =>
    simp only [Script.step, Option.map_eq_some_iff] at hs
    obtain ⟨f, hf, rfl⟩ := hs
    apply h.quit hf (by simp)
    obtain rfl := Option.some.inj hf
    exact fun _ ↦ rfl

/-- The moves of a write that nothing disturbs. -/
def writeMoves (t : ν) : List (Move ν κ) := [.start t, .advance, .advance, .advance, .advance]

/-- A program between two writes, which can begin another under this name. -/
structure Script.Ready (t : ν) (s : Script ν κ) : Prop where
  idle : ∀ t, s.files.writes t = none
  active : s.active = none
  free : s.files.disk.current t = none

/-- The program has come to this operation of a write, with the files as given. -/
structure Script.At (w : Writing ν κ) (t : ν) (rest : List (ν × κ)) (d : Disk ν κ)
    (writes : ν → Option (Writing ν κ)) (s : Script ν κ) : Prop where
  files : s.files = ⟨d, Function.update writes t (some w)⟩
  active : s.active = some t
  todo : s.todo = rest

variable (directory isTemporary empty) in
theorem Script.At.advance {d : Disk ν κ} {writes : ν → Option (Writing ν κ)} {w' : Writing ν κ}
    (h : s.At w t rest d writes) (hstage : w.stage ≠ .raising) (hnext : w.next = some w') :
    ∃ s', s.step directory isTemporary empty .advance = some s' ∧
      s'.At w' t rest (w.perform directory t d) writes := by
  refine ⟨{ s with files := ⟨w.perform directory t d, Function.update writes t (some w')⟩ }, ?_,
    rfl, h.active, h.todo⟩
  simp [Script.step, h.active, h.files, Files.step, hstage, hnext]

variable (directory empty) in
/-- The write is carried out, and another one can begin under the same temporary name. -/
theorem Script.Ready.write (h : s.Ready t) (ht : isTemporary t = true)
    (hp : isTemporary path = false) (htodo : s.todo = (path, x) :: rest) :
    ∃ s', Runs (Script.step directory isTemporary empty) s (writeMoves t) s' ∧ s'.Ready t ∧
      s'.todo = rest ∧ s'.files.disk.read path = some x := by
  have hne : path ≠ t := by
    intro hpt
    rw [hpt, ht] at hp
    cases hp
  let i := s.files.disk.files.length
  let d₁ := s.files.disk.create t empty
  obtain ⟨s₁, h₁, hat₁⟩ : ∃ s₁, s.step directory isTemporary empty (.start t) = some s₁ ∧
      s₁.At ⟨path, x, i, .opened⟩ t rest d₁ s.files.writes := by
    refine ⟨{ s with
      files := ⟨d₁, Function.update s.files.writes t (some ⟨path, x, i, .opened⟩)⟩
      todo := rest
      active := some t }, ?_, rfl, rfl, rfl⟩
    simp [Script.step, h.active, htodo, Files.step, ht, hp, h.free, h.idle t, d₁, i]
  obtain ⟨s₂, h₂, hat₂⟩ := hat₁.advance directory isTemporary empty (by simp) rfl
  obtain ⟨s₃, h₃, hat₃⟩ := hat₂.advance directory isTemporary empty (by simp) rfl
  obtain ⟨s₄, h₄, hat₄⟩ := hat₃.advance directory isTemporary empty (by simp) rfl
  let d := (Writing.perform ⟨path, x, i, .renamed⟩ directory t (Writing.perform ⟨path, x, i, .synced⟩
    directory t (Writing.perform ⟨path, x, i, .filled⟩ directory t
      (Writing.perform ⟨path, x, i, .opened⟩ directory t d₁))))
  let s₅ : Script ν κ := { s₄ with
    files := ⟨d, Function.update s.files.writes t none⟩
    active := none
    done := s₄.done ++ [(path, x)] }
  have h₅ : s₄.step directory isTemporary empty .advance = some s₅ := by
    simp [Script.step, hat₄.active, hat₄.files, Files.step, Writing.next, s₅, d]
  refine ⟨s₅, ?_, ⟨?_, rfl, ?_⟩, hat₄.todo, ?_⟩
  · simp only [writeMoves, runs_cons, runs_nil]
    exact ⟨s₁, h₁, s₂, h₂, s₃, h₃, s₄, h₄, s₅, h₅, rfl⟩
  · intro t'
    by_cases ht' : t' = t
    · simp [s₅, ht']
    · simp [s₅, Function.update_of_ne ht', h.idle t']
  · simp [s₅, d, Writing.perform, Disk.write, Disk.sync, Disk.rename, Disk.syncDirectory,
      Disk.enter, d₁, Disk.create]
  · simp [s₅, d, Writing.perform, Disk.write, Disk.sync, Disk.rename, Disk.syncDirectory,
      Disk.enter, d₁, Disk.create, Disk.read, Function.update_of_ne hne, i]

variable (directory empty) in
/-- A program that nothing disturbs makes all its writes. -/
theorem Script.Ready.completes {front : List (ν × κ)} (h : s.Ready t) (ht : isTemporary t = true)
    (hp : ∀ entry ∈ front ++ [(path, x)], isTemporary entry.1 = false)
    (htodo : s.todo = front ++ [(path, x)]) :
    ∃ s', Runs (Script.step directory isTemporary empty) s
      ((front ++ [(path, x)]).flatMap fun _ ↦ writeMoves t) s' ∧
      s'.files.disk.read path = some x := by
  induction front generalizing s with
  | nil =>
    obtain ⟨s', hrun, -, -, hread⟩ := h.write directory empty ht (hp (path, x) (by simp)) htodo
    exact ⟨s', by simpa using hrun, hread⟩
  | cons entry front ih =>
    obtain ⟨u, hu, hready, hrest, -⟩ := h.write directory empty ht (hp entry (by simp)) htodo
    obtain ⟨s', hs', hread⟩ := ih hready (fun e he ↦ hp e (by simp at he ⊢; tauto)) hrest
    refine ⟨s', ?_, hread⟩
    rw [List.cons_append, List.flatMap_cons, runs_append]
    exact ⟨u, hu, hs'⟩

end NoreplyGateway.AtomicFiles
