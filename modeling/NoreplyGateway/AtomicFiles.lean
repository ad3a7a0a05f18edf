import NoreplyGateway.Machine

/-! Files that are replaced by a rename, on a disk that a crash sets back. -/

namespace NoreplyGateway.AtomicFiles

open Machine

/-- The content of a file, and whether the disk holds it. -/
structure File (κ : Type) where
  content : κ
  synced : Bool

/-- The names as the processes see them. A crash can bring back what a name stood
for since its directory was last synchronised. -/
structure Disk (ν κ : Type) where
  files : List (File κ) := []
  current : ν → Option ℕ := fun _ ↦ none
  older : ν → List (Option ℕ) := fun _ ↦ []

namespace Disk

section

variable {ν κ : Type} (d : Disk ν κ)

/-- What the name stands for now or after a crash. -/
def entries (n : ν) : List (Option ℕ) := d.current n :: d.older n

def read (n : ν) : Option κ := (d.current n).bind (fun i ↦ d.files[i]?.map (·.content))

def write (i : ℕ) (content : κ) : Disk ν κ := { d with files := d.files.set i ⟨content, false⟩ }

def sync (i : ℕ) : Disk ν κ :=
  { d with files := d.files.modify i (fun f ↦ { f with synced := true }) }

def syncDirectory (p : ν → Bool) : Disk ν κ :=
  { d with older := fun n ↦ if p n then [] else d.older n }

/-- What a crash leaves: each name goes back to one of its entries, and a file
that was not synchronised has any content. -/
def crash (choose : ν → ℕ) (torn : ℕ → κ) : Disk ν κ where
  files := d.files.mapIdx (fun i f ↦ if f.synced then f else ⟨torn i, true⟩)
  current n := (d.entries n).getD (choose n) (d.current n)
  older _ := []

/-- What a reader of the name may find now or after a crash. -/
def May (n : ν) (c : Option κ) : Prop :=
  d.read n = c ∨ ∃ choose torn, (d.crash choose torn).read n = c

/-- A file that a crash cannot change, or no file, and in either case as required. -/
def Durable (P : Option κ → Prop) (e : Option ℕ) : Prop :=
  e = none ∧ P none ∨ ∃ i x, e = some i ∧ d.files[i]? = some ⟨x, true⟩ ∧ P (some x)

def Settled (P : Option κ → Prop) (n : ν) : Prop := ∀ e ∈ d.entries n, d.Durable P e

end

section

variable {ν κ : Type} [DecidableEq ν] (d : Disk ν κ)

def enter (n : ν) (e : Option ℕ) : Disk ν κ :=
  { d with
    current := Function.update d.current n e
    older := Function.update d.older n (d.entries n) }

def create (n : ν) (content : κ) : Disk ν κ :=
  ({ d with files := d.files ++ [⟨content, false⟩] } : Disk ν κ).enter n (some d.files.length)

def rename (n m : ν) : Disk ν κ :=
  match d.current n with
  | some i => (d.enter m (some i)).enter n none
  | none => d

def unlink (n : ν) : Disk ν κ := d.enter n none

end

end Disk

namespace Disk

variable {ν κ : Type} {d : Disk ν κ} {P Q : Option κ → Prop} {n m : ν} {e : Option ℕ} {i : ℕ} {x : κ}

theorem Durable.mono (h : d.Durable P e) (hPQ : ∀ c, P c → Q c) : d.Durable Q e := by
  rcases h with ⟨rfl, h⟩ | ⟨i, x, rfl, hi, h⟩
  · exact .inl ⟨rfl, hPQ _ h⟩
  · exact .inr ⟨i, x, rfl, hi, hPQ _ h⟩

theorem Durable.lt (h : d.Durable P (some i)) : i < d.files.length := by
  obtain ⟨he, -⟩ | ⟨j, x, he, hj, -⟩ := h
  · cases he
  · cases he
    exact (List.getElem?_eq_some_iff.mp hj).1

theorem Durable.of_files {d' : Disk ν κ} (h : d.Durable P e)
    (hf : ∀ i, e = some i → ∀ f, d.files[i]? = some f → d'.files[i]? = some f) :
    d'.Durable P e := by
  rcases h with ⟨rfl, h⟩ | ⟨i, x, rfl, hi, h⟩
  · exact .inl ⟨rfl, h⟩
  · exact .inr ⟨i, x, rfl, hf i rfl _ hi, h⟩

theorem current_mem_entries : d.current n ∈ d.entries n := List.mem_cons_self

theorem crash_current_mem {choose : ν → ℕ} {torn : ℕ → κ} :
    (d.crash choose torn).current n ∈ d.entries n := by
  simp only [crash, List.getD_eq_getElem?_getD]
  cases h : (d.entries n)[choose n]? with
  | none => exact current_mem_entries
  | some e => exact List.mem_of_getElem? h

theorem crash_files {choose : ν → ℕ} {torn : ℕ → κ} (h : d.files[i]? = some ⟨x, true⟩) :
    (d.crash choose torn).files[i]? = some ⟨x, true⟩ := by
  simp [crash, h]

theorem Settled.crash {choose : ν → ℕ} {torn : ℕ → κ} (h : d.Settled P n) :
    (d.crash choose torn).Settled P n := by
  intro e he
  obtain rfl : e = (d.crash choose torn).current n := by simpa [entries, Disk.crash] using he
  obtain ⟨he, hP⟩ | ⟨i, x, he, hi, hP⟩ := h _ crash_current_mem
  · exact .inl ⟨he, hP⟩
  · exact .inr ⟨i, x, he, crash_files hi, hP⟩

theorem Settled.read (h : d.Settled P n) : P (d.read n) := by
  obtain ⟨he, hP⟩ | ⟨i, x, he, hi, hP⟩ := h _ current_mem_entries
  · simpa [Disk.read, he] using hP
  · simpa [Disk.read, he, hi] using hP

/-- A reader of a settled name finds what is required of it, before a crash and after. -/
theorem Settled.may {c : Option κ} (h : d.Settled P n) (hc : d.May n c) : P c := by
  rcases hc with rfl | ⟨choose, torn, rfl⟩
  · exact h.read
  · exact h.crash.read

theorem Settled.mono (h : d.Settled P n) (hPQ : ∀ c, P c → Q c) : d.Settled Q n :=
  fun e he ↦ (h e he).mono hPQ

/-- A file name whose entries are all on the disk is settled on what it may be. -/
theorem Settled.self (empty : κ) (h : d.Settled P n) : d.Settled (d.May n) n := by
  intro e he
  obtain ⟨k, hk, hek⟩ := List.getElem_of_mem he
  have hcurrent : (d.crash (fun _ ↦ k) (fun _ ↦ empty)).current n = e := by
    simp [Disk.crash, hk, hek]
  obtain ⟨rfl, -⟩ | ⟨i, x, rfl, hi, -⟩ := h e he
  · exact .inl ⟨rfl, .inr ⟨fun _ ↦ k, fun _ ↦ empty, by simp [Disk.read, hcurrent]⟩⟩
  · refine .inr ⟨i, x, rfl, hi, .inr ⟨fun _ ↦ k, fun _ ↦ empty, ?_⟩⟩
    simp only [Disk.read, hcurrent, Option.bind_some, crash_files hi, Option.map_some]

end Disk

/-- A writer of `atomic_write`, by the operation that comes next. The last stage
is that of an exception on its way to the cleanup. -/
inductive Stage
  | opened
  | filled
  | synced
  | renamed
  | raising
  deriving DecidableEq

structure Writing (ν κ : Type) where
  path : ν
  data : κ
  inode : ℕ
  stage : Stage

/-- The disk and the writers, each under the name of its temporary file. -/
structure Files (ν κ : Type) where
  disk : Disk ν κ := {}
  writes : ν → Option (Writing ν κ) := fun _ ↦ none

/-- The steps of the writers. An operation that raises has had its effect or not,
and a write may have had a part of it. -/
inductive Event (ν κ : Type)
  | start (path temporary : ν) (data : κ)
  | advance (temporary : ν)
  | fail (temporary : ν) (effect : Bool)
  | scribble (temporary : ν) (content : κ)
  | cleanup (temporary : ν) (removed : Bool)
  | kill
  | crash (choose : ν → ℕ) (torn : ℕ → κ)

variable {ν κ δ : Type} [DecidableEq ν] [DecidableEq δ]

namespace Writing

variable (w : Writing ν κ)

def perform (directory : ν → δ) (temporary : ν) (d : Disk ν κ) : Disk ν κ :=
  match w.stage with
  | .opened => d.write w.inode w.data
  | .filled => d.sync w.inode
  | .synced => d.rename temporary w.path
  | .renamed => d.syncDirectory (fun n ↦ directory n = directory w.path)
  | .raising => d

/-- The writer after its operation, unless it returns. -/
def next : Option (Writing ν κ) :=
  match w.stage with
  | .opened => some { w with stage := .filled }
  | .filled => some { w with stage := .synced }
  | .synced => some { w with stage := .renamed }
  | .renamed => none
  | .raising => some w

/-- The temporary name still stands for the writer's file. -/
def Owns : Prop := w.stage = .opened ∨ w.stage = .filled ∨ w.stage = .synced

end Writing

variable (directory : ν → δ) (isTemporary : ν → Bool) (empty : κ)

def Files.step (s : Files ν κ) : Event ν κ → Option (Files ν κ)
  | .start path temporary data =>
    if isTemporary temporary = true ∧ isTemporary path = false ∧ s.disk.current temporary = none ∧
        (s.writes temporary).isNone then
      some {
        disk := s.disk.create temporary empty
        writes := Function.update s.writes temporary
          (some ⟨path, data, s.disk.files.length, .opened⟩) }
    else none
  | .advance temporary =>
    (s.writes temporary).bind fun w ↦
      if w.stage = .raising then none
      else some {
        disk := w.perform directory temporary s.disk
        writes := Function.update s.writes temporary w.next }
  | .fail temporary effect =>
    (s.writes temporary).bind fun w ↦
      if w.stage = .raising then none
      else some {
        disk := if effect then w.perform directory temporary s.disk else s.disk
        writes := Function.update s.writes temporary (some { w with stage := .raising }) }
  | .scribble temporary content =>
    (s.writes temporary).bind fun w ↦
      if w.stage = .opened then
        some {
          disk := s.disk.write w.inode content
          writes := Function.update s.writes temporary (some { w with stage := .raising }) }
      else none
  | .cleanup temporary removed =>
    (s.writes temporary).bind fun w ↦
      if w.stage = .raising then
        some {
          disk := if removed = true ∧ (s.disk.current temporary).isSome then
            s.disk.unlink temporary else s.disk
          writes := Function.update s.writes temporary none }
      else none
  | .kill => some { s with writes := fun _ ↦ none }
  | .crash choose torn => some { disk := s.disk.crash choose torn }

/-- No more has changed than the temporary name and the file of its writer. -/
structure Spares (w : Writing ν κ) (t : ν) (d d' : Disk ν κ) : Prop where
  length : d'.files.length = d.files.length
  files : ∀ (i : ℕ) (f : File κ), (w.Owns → i ≠ w.inode) → d.files[i]? = some f →
    d'.files[i]? = some f
  current : ∀ n, n ≠ t → d'.current n = d.current n
  older : ∀ n, n ≠ t → d'.older n = d.older n

/-- What a writer relies on while it has its temporary file. -/
structure Writing.Fits (w : Writing ν κ) (P : ν → Option κ → Prop) (d : Disk ν κ) (t : ν) :
    Prop where
  name : isTemporary t = true
  target : isTemporary w.path = false
  allowed : P w.path (some w.data)
  inode : w.inode < d.files.length
  current : w.Owns → d.current t = some w.inode
  hidden : w.Owns → ∀ n, isTemporary n = false → some w.inode ∉ d.entries n
  filled : w.stage = .filled → ∃ b, d.files[w.inode]? = some ⟨w.data, b⟩
  synced : w.stage = .synced → d.files[w.inode]? = some ⟨w.data, true⟩

structure Sound (P : ν → Option κ → Prop) (s : Files ν κ) : Prop where
  settled : ∀ n, isTemporary n = false → s.disk.Settled (P n) n
  fits : ∀ t w, s.writes t = some w → w.Fits isTemporary P s.disk t
  apart : ∀ t t' w w', s.writes t = some w → s.writes t' = some w' → w.Owns → w'.Owns →
    w.inode = w'.inode → t = t'

variable {directory isTemporary empty} {P Q : ν → Option κ → Prop} {w w' : Writing ν κ}
  {d d' : Disk ν κ} {s s' : Files ν κ} {t t' n : ν} {e : Option ℕ} {i : ℕ} {f : File κ}

namespace Writing

theorem perform_length : (w.perform directory t d).files.length = d.files.length := by
  unfold perform
  cases w.stage with
  | opened => simp [Disk.write]
  | filled => simp [Disk.sync]
  | synced => cases h : d.current t <;> simp [Disk.rename, h, Disk.enter]
  | renamed => rfl
  | raising => rfl

/-- An operation changes no file but the writer's own, and that only before the rename. -/
theorem perform_files (h : d.files[i]? = some f) (hi : w.Owns → i ≠ w.inode) :
    (w.perform directory t d).files[i]? = some f := by
  unfold perform
  cases hw : w.stage with
  | opened => simp [Disk.write, List.getElem?_set_ne (hi (.inl hw)).symm, h]
  | filled => simp [Disk.sync, (hi (.inr (.inl hw))).symm, h]
  | synced => cases hc : d.current t <;> simp [Disk.rename, hc, Disk.enter, h]
  | renamed => exact h
  | raising => exact h

theorem perform_current (hn : n ≠ t) (hp : n ≠ w.path) :
    (w.perform directory t d).current n = d.current n := by
  unfold perform
  cases w.stage with
  | synced =>
    cases hc : d.current t <;> simp [Disk.rename, hc, Disk.enter, Function.update_of_ne hn,
      Function.update_of_ne hp]
  | _ => rfl

/-- The rename is the only operation that gives another name an entry. -/
theorem perform_entries (hc : w.Owns → d.current t = some w.inode) (hn : n ≠ t)
    (he : e ∈ (w.perform directory t d).entries n) :
    e ∈ d.entries n ∨ w.stage = .synced ∧ n = w.path ∧ e = some w.inode := by
  unfold perform at he
  cases hw : w.stage with
  | opened => exact .inl (by simpa [hw, Disk.write, Disk.entries] using he)
  | filled => exact .inl (by simpa [hw, Disk.sync, Disk.entries] using he)
  | synced =>
    rw [hw, Disk.rename, hc (.inr (.inr hw))] at he
    by_cases hp : n = w.path
    · subst hp
      simp only [Disk.entries, Disk.enter, Function.update_of_ne hn, Function.update_self,
        List.mem_cons] at he
      rcases he with rfl | he
      · exact .inr ⟨rfl, rfl, rfl⟩
      · exact .inl (List.mem_cons.mpr he)
    · simp only [Disk.entries, Disk.enter, Function.update_of_ne hn,
        Function.update_of_ne hp] at he
      exact .inl he
  | renamed =>
    left
    simp only [hw, Disk.entries, Disk.syncDirectory, List.mem_cons] at he
    rcases he with rfl | he
    · exact Disk.current_mem_entries
    · split at he
      · cases he
      · exact List.mem_cons_of_mem _ he
  | raising => exact .inl (by simpa [hw] using he)

namespace Fits

omit [DecidableEq ν] in
theorem ne (h : w.Fits isTemporary P d t) (hn : isTemporary n = false) : n ≠ t := by
  intro hnt
  rw [hnt, h.name] at hn
  cases hn

/-- An operation of a writer leaves the target names settled. -/
theorem settled_perform (h : w.Fits isTemporary P d t) (hn : isTemporary n = false)
    (hd : d.Settled (P n) n) : (w.perform directory t d).Settled (P n) n := by
  intro e he
  rcases perform_entries h.current (h.ne hn) he with he | ⟨hw, rfl, rfl⟩
  · apply (hd e he).of_files
    intro i hi f hf
    apply perform_files hf
    intro ho hiw
    exact h.hidden ho n hn (hiw ▸ hi ▸ he)
  · right
    refine ⟨w.inode, w.data, rfl, ?_, h.allowed⟩
    unfold perform
    rw [hw, Disk.rename, h.current (.inr (.inr hw))]
    exact h.synced hw

/-- The other writers do not notice the operation. -/
theorem perform_other (h : w.Fits isTemporary P d t) (h' : w'.Fits isTemporary P d t')
    (ht : t' ≠ t) (hi : w.Owns → w'.Owns → w.inode ≠ w'.inode) :
    w'.Fits isTemporary P (w.perform directory t d) t' where
  name := h'.name
  target := h'.target
  allowed := h'.allowed
  inode := lt_of_lt_of_eq h'.inode perform_length.symm
  current ho := by
    rw [perform_current ht (h'.ne h.target).symm]
    exact h'.current ho
  hidden ho n hn he := by
    rcases perform_entries h.current (h.ne hn) he with he | ⟨hw, rfl, hinode⟩
    · exact h'.hidden ho n hn he
    · exact hi (.inr (.inr hw)) ho (Option.some.inj hinode).symm
  filled hw := by
    obtain ⟨b, hb⟩ := h'.filled hw
    exact ⟨b, perform_files hb fun ho ↦ (hi ho (.inr (.inl hw))).symm⟩
  synced hw := perform_files (h'.synced hw) fun ho ↦ (hi ho (.inr (.inr hw))).symm

omit [DecidableEq ν] in
theorem raise (h : w.Fits isTemporary P d t) (hd : d'.files.length = d.files.length) :
    Fits isTemporary { w with stage := .raising } P d' t where
  name := h.name
  target := h.target
  allowed := h.allowed
  inode := hd ▸ h.inode
  current ho := by simp [Owns] at ho
  hidden ho := by simp [Owns] at ho
  filled hw := by cases hw
  synced hw := by cases hw

/-- What the writer relies on after its operation. -/
theorem perform_next (h : w.Fits isTemporary P d t) (hw' : w.next = some w') :
    w'.Fits isTemporary P (w.perform directory t d) t ∧ (w'.Owns → w.Owns) ∧
      w'.inode = w.inode := by
  unfold next at hw'
  have hlt := h.inode
  cases hw : w.stage with
  | opened =>
    obtain rfl : { w with stage := .filled } = w' := by simpa [hw] using hw'
    have ho : w.Owns := .inl hw
    refine ⟨⟨h.name, h.target, h.allowed, ?_, ?_, ?_, ?_, ?_⟩, fun _ ↦ ho, rfl⟩
    · exact lt_of_lt_of_eq hlt perform_length.symm
    · simpa [perform, hw, Disk.write] using fun _ ↦ h.current ho
    · simpa [perform, hw, Disk.write, Disk.entries] using fun _ ↦ h.hidden ho
    · exact fun _ ↦ ⟨false, by simp [perform, hw, Disk.write, hlt]⟩
    · intro hs
      cases hs
  | filled =>
    obtain rfl : { w with stage := .synced } = w' := by simpa [hw] using hw'
    have ho : w.Owns := .inr (.inl hw)
    refine ⟨⟨h.name, h.target, h.allowed, ?_, ?_, ?_, ?_, ?_⟩, fun _ ↦ ho, rfl⟩
    · exact lt_of_lt_of_eq hlt perform_length.symm
    · simpa [perform, hw, Disk.sync] using fun _ ↦ h.current ho
    · simpa [perform, hw, Disk.sync, Disk.entries] using fun _ ↦ h.hidden ho
    · intro hs
      cases hs
    · intro _
      obtain ⟨b, hb⟩ := h.filled hw
      simp [perform, hw, Disk.sync, hb]
  | synced =>
    obtain rfl : { w with stage := .renamed } = w' := by simpa [hw] using hw'
    refine ⟨⟨h.name, h.target, h.allowed, ?_, ?_, ?_, ?_, ?_⟩, ?_, rfl⟩
    · exact lt_of_lt_of_eq hlt perform_length.symm
    all_goals simp [Owns]
  | renamed => simp [hw] at hw'
  | raising =>
    obtain rfl : w = w' := by simpa [hw] using hw'
    exact ⟨by simpa [perform, hw] using h, id, rfl⟩

end Fits

end Writing

/-- Replacing the writer under one name, and what it may have changed on the disk. -/
theorem Sound.update {o : Option (Writing ν κ)} (h : Sound isTemporary P s)
    (hd : ∀ n, isTemporary n = false → d.Settled (P n) n)
    (hother : ∀ t' w', t' ≠ t → s.writes t' = some w' → w'.Fits isTemporary P d t')
    (hown : ∀ w, o = some w → w.Fits isTemporary P d t)
    (hapart : ∀ w t' w', o = some w → t' ≠ t → s.writes t' = some w' → w.Owns → w'.Owns →
      w.inode ≠ w'.inode) :
    Sound isTemporary P ⟨d, Function.update s.writes t o⟩ where
  settled := hd
  fits t' w' hw' := by
    by_cases ht : t' = t
    · subst ht
      exact hown w' (by simpa using hw')
    · exact hother t' w' ht (by simpa [Function.update_of_ne ht] using hw')
  apart t₁ t₂ w₁ w₂ h₁ h₂ ho₁ ho₂ hi := by
    dsimp only at h₁ h₂
    by_cases ht₁ : t₁ = t
    · by_cases ht₂ : t₂ = t
      · rw [ht₁, ht₂]
      · subst ht₁
        rw [Function.update_self] at h₁
        rw [Function.update_of_ne ht₂] at h₂
        exact absurd hi (hapart w₁ t₂ w₂ h₁ ht₂ h₂ ho₁ ho₂)
    · rw [Function.update_of_ne ht₁] at h₁
      by_cases ht₂ : t₂ = t
      · subst ht₂
        rw [Function.update_self] at h₂
        exact absurd hi.symm (hapart w₂ t₁ w₁ h₂ ht₁ h₁ ho₂ ho₁)
      · rw [Function.update_of_ne ht₂] at h₂
        exact h.apart t₁ t₂ w₁ w₂ h₁ h₂ ho₁ ho₂ hi

omit [DecidableEq ν] in
theorem Sound.mono (h : Sound isTemporary P s) (hPQ : ∀ n c, P n c → Q n c) :
    Sound isTemporary Q s where
  settled n hn := (h.settled n hn).mono (hPQ n)
  fits t w hw :=
    have hf := h.fits t w hw
    ⟨hf.name, hf.target, hPQ _ _ hf.allowed, hf.inode, hf.current, hf.hidden, hf.filled, hf.synced⟩
  apart := h.apart

/-- An operation of a writer, which then goes on, returns or raises. -/
theorem Sound.perform {o : Option (Writing ν κ)} (h : Sound isTemporary P s)
    (hw : s.writes t = some w)
    (ho : o = w.next ∨ o = some { w with stage := .raising }) :
    Sound isTemporary P ⟨w.perform directory t s.disk, Function.update s.writes t o⟩ := by
  have hf := h.fits t w hw
  have hi : ∀ t' w', t' ≠ t → s.writes t' = some w' → w.Owns → w'.Owns → w.inode ≠ w'.inode := by
    intro t' w' ht hw' ho ho' hi
    exact ht (h.apart t t' w w' hw hw' ho ho' hi).symm
  have hown : ∀ w', o = some w' → w'.Fits isTemporary P (w.perform directory t s.disk) t ∧
      (w'.Owns → w.Owns) ∧ w'.inode = w.inode := by
    intro w' hw'
    rcases ho with rfl | rfl
    · exact hf.perform_next hw'
    · obtain rfl := Option.some.inj hw'
      exact ⟨hf.raise Writing.perform_length, by simp [Writing.Owns], rfl⟩
  apply h.update
  · exact fun n hn ↦ hf.settled_perform hn (h.settled n hn)
  · exact fun t' w' ht hw' ↦ hf.perform_other (h.fits t' w' hw') ht (hi t' w' ht hw')
  · exact fun w' hw' ↦ (hown w' hw').1
  · intro w₁ t' w' hw₁ ht hw' ho₁ ho'
    obtain ⟨-, hle, heq⟩ := hown w₁ hw₁
    rw [heq]
    exact hi t' w' ht hw' (hle ho₁) ho'

theorem Sound.abandon {o : Option (Writing ν κ)} (h : Sound isTemporary P s)
    (hw : s.writes t = some w) (hd : Spares w t s.disk d)
    (ho : o = none ∨ o = some { w with stage := .raising }) :
    Sound isTemporary P ⟨d, Function.update s.writes t o⟩ := by
  have hf := h.fits t w hw
  have hentries : ∀ n, isTemporary n = false → d.entries n = s.disk.entries n := by
    intro n hn
    rw [Disk.entries, Disk.entries, hd.current n (hf.ne hn), hd.older n (hf.ne hn)]
  have hown : ∀ w', o = some w' → w'.Fits isTemporary P d t ∧ ¬ w'.Owns := by
    intro w' hw'
    rcases ho with rfl | rfl
    · cases hw'
    · obtain rfl := Option.some.inj hw'
      exact ⟨hf.raise hd.length, by simp [Writing.Owns]⟩
  apply h.update
  · intro n hn e he
    rw [hentries n hn] at he
    apply (h.settled n hn e he).of_files
    intro i hi f
    apply hd.files
    intro ho hiw
    exact hf.hidden ho n hn (hiw ▸ hi ▸ he)
  · intro t' w' ht hw'
    have hf' := h.fits t' w' hw'
    have hi : w'.Owns → w.Owns → w'.inode ≠ w.inode := fun ho' ho hi ↦
      ht (h.apart t' t w' w hw' hw ho' ho hi)
    refine ⟨hf'.name, hf'.target, hf'.allowed, hd.length ▸ hf'.inode, ?_, ?_, ?_, ?_⟩
    · exact fun ho ↦ (hd.current t' ht).trans (hf'.current ho)
    · exact fun ho n hn ↦ hentries n hn ▸ hf'.hidden ho n hn
    · intro hs
      obtain ⟨b, hb⟩ := hf'.filled hs
      exact ⟨b, hd.files _ _ (hi (.inr (.inl hs))) hb⟩
    · exact fun hs ↦ hd.files _ _ (hi (.inr (.inr hs))) (hf'.synced hs)
  · exact fun w' hw' ↦ (hown w' hw').1
  · exact fun w₁ _ _ hw₁ _ _ ho₁ ↦ absurd ho₁ (hown w₁ hw₁).2

theorem Sound.start {path : ν} {x : κ} (h : Sound isTemporary P s) (ht : isTemporary t = true)
    (hp : isTemporary path = false) (hx : P path (some x)) :
    Sound isTemporary P ⟨s.disk.create t empty,
      Function.update s.writes t (some ⟨path, x, s.disk.files.length, .opened⟩)⟩ := by
  have hne : ∀ n, isTemporary n = false → n ≠ t := by
    intro n hn hnt
    rw [hnt, ht] at hn
    cases hn
  have hentries : ∀ n, n ≠ t → (s.disk.create t empty).entries n = s.disk.entries n := by
    intro n hn
    simp [Disk.entries, Disk.create, Disk.enter, Function.update_of_ne hn]
  have hfiles : ∀ (i : ℕ) (f : File κ), s.disk.files[i]? = some f →
      (s.disk.create t empty).files[i]? = some f := by
    intro i f hi
    have hlt := (List.getElem?_eq_some_iff.mp hi).1
    simp [Disk.create, Disk.enter, List.getElem?_append_left hlt, hi]
  apply h.update
  · intro n hn e he
    rw [hentries n (hne n hn)] at he
    exact (h.settled n hn e he).of_files fun i _ f ↦ hfiles i f
  · intro t' w' ht' hw'
    have hf' := h.fits t' w' hw'
    refine ⟨hf'.name, hf'.target, hf'.allowed, ?_, ?_, ?_, ?_, ?_⟩
    · simpa [Disk.create, Disk.enter] using Nat.lt_succ_of_lt hf'.inode
    · intro ho
      simpa [Disk.create, Disk.enter, Function.update_of_ne ht'] using hf'.current ho
    · exact fun ho n hn ↦ hentries n (hne n hn) ▸ hf'.hidden ho n hn
    · intro hs
      obtain ⟨b, hb⟩ := hf'.filled hs
      exact ⟨b, hfiles _ _ hb⟩
    · exact fun hs ↦ hfiles _ _ (hf'.synced hs)
  · intro w hw
    obtain rfl := Option.some.inj hw
    refine ⟨ht, hp, hx, ?_, ?_, ?_, ?_, ?_⟩
    · simp [Disk.create, Disk.enter]
    · simp [Disk.create, Disk.enter]
    · -- the new file is in no entry of a target, as these are in range
      intro _ n hn hmem
      rw [hentries n (hne n hn)] at hmem
      exact absurd (h.settled n hn _ hmem).lt (lt_irrefl _)
    · intro hs
      cases hs
    · intro hs
      cases hs
  · intro w t' w' hw _ hw' _ _ hi
    obtain rfl := Option.some.inj hw
    have hlt := (h.fits t' w' hw').inode
    dsimp only at hi
    omega

omit [DecidableEq ν] in
theorem Sound.of_idle (hs : ∀ t, s.writes t = none)
    (hd : ∀ n, isTemporary n = false → s.disk.Settled (P n) n) : Sound isTemporary P s where
  settled := hd
  fits t w hw := by
    rw [hs t] at hw
    cases hw
  apart t t' w w' hw := by
    rw [hs t] at hw
    cases hw

/-- What a step can do. -/
theorem step_cases {event : Event ν κ} (hs : s.step directory isTemporary empty event = some s') :
    (∃ path t x, event = .start path t x ∧ isTemporary t = true ∧ isTemporary path = false ∧
      s.writes t = none ∧ s' = ⟨s.disk.create t empty,
        Function.update s.writes t (some ⟨path, x, s.disk.files.length, .opened⟩)⟩) ∨
    (∃ t w o, s.writes t = some w ∧ w.stage ≠ .raising ∧
      (o = w.next ∧ event = .advance t ∨ o = some { w with stage := .raising }) ∧
      s' = ⟨w.perform directory t s.disk, Function.update s.writes t o⟩) ∨
    (∃ t w d o, s.writes t = some w ∧ Spares w t s.disk d ∧
      (o = none ∨ o = some { w with stage := .raising }) ∧
      s' = ⟨d, Function.update s.writes t o⟩) ∨
    (∀ t, s'.writes t = none) ∧
      (s'.disk = s.disk ∨ ∃ choose torn, s'.disk = s.disk.crash choose torn) := by
  cases event with
  | start path t x =>
    left
    simp only [Files.step, Option.ite_none_right_eq_some, Option.isNone_iff_eq_none,
      Option.some.injEq] at hs
    obtain ⟨⟨ht, hp, -, hfree⟩, rfl⟩ := hs
    exact ⟨path, t, x, rfl, ht, hp, hfree, rfl⟩
  | advance t =>
    right; left
    simp only [Files.step, Option.bind_eq_some_iff, Option.ite_none_left_eq_some,
      Option.some.injEq] at hs
    obtain ⟨w, hw, hstage, rfl⟩ := hs
    exact ⟨t, w, _, hw, hstage, .inl ⟨rfl, rfl⟩, rfl⟩
  | fail t effect =>
    simp only [Files.step, Option.bind_eq_some_iff, Option.ite_none_left_eq_some,
      Option.some.injEq] at hs
    obtain ⟨w, hw, hstage, rfl⟩ := hs
    cases effect with
    | true => exact .inr (.inl ⟨t, w, _, hw, hstage, .inr rfl, rfl⟩)
    | false =>
      exact .inr (.inr (.inl ⟨t, w, _, _, hw,
        ⟨rfl, fun _ _ _ hf ↦ hf, fun _ _ ↦ rfl, fun _ _ ↦ rfl⟩, .inr rfl, rfl⟩))
  | scribble t x =>
    right; right; left
    simp only [Files.step, Option.bind_eq_some_iff, Option.ite_none_right_eq_some,
      Option.some.injEq] at hs
    obtain ⟨w, hw, hstage, rfl⟩ := hs
    refine ⟨t, w, s.disk.write w.inode x, _, hw,
      ⟨by simp [Disk.write], ?_, fun _ _ ↦ rfl, fun _ _ ↦ rfl⟩, .inr rfl, rfl⟩
    intro i f hi hf
    simp [Disk.write, List.getElem?_set_ne (hi (.inl hstage)).symm, hf]
  | cleanup t removed =>
    right; right; left
    simp only [Files.step, Option.bind_eq_some_iff, Option.ite_none_right_eq_some,
      Option.some.injEq] at hs
    obtain ⟨w, hw, -, rfl⟩ := hs
    refine ⟨t, w, _, _, hw, ?_, .inl rfl, rfl⟩
    split
    · refine ⟨rfl, fun _ _ _ hf ↦ hf, ?_, ?_⟩
      · intro n hn
        simp [Disk.unlink, Disk.enter, Function.update_of_ne hn]
      · intro n hn
        simp [Disk.unlink, Disk.enter, Function.update_of_ne hn]
    · exact ⟨rfl, fun _ _ _ hf ↦ hf, fun _ _ ↦ rfl, fun _ _ ↦ rfl⟩
  | kill =>
    obtain rfl := Option.some.inj hs
    exact .inr (.inr (.inr ⟨fun _ ↦ rfl, .inl rfl⟩))
  | crash choose torn =>
    obtain rfl := Option.some.inj hs
    exact .inr (.inr (.inr ⟨fun _ ↦ rfl, .inr ⟨choose, torn, rfl⟩⟩))

/-- Every step keeps the targets settled on what they may be, with the data of a
new writer added. -/
theorem Sound.step {event : Event ν κ} (h : Sound isTemporary P s)
    (hs : s.step directory isTemporary empty event = some s')
    (hP : ∀ path t x, event = .start path t x → P path (some x)) :
    Sound isTemporary P s' := by
  obtain ⟨path, t, x, rfl, ht, hp, -, rfl⟩ | ⟨t, w, o, hw, -, ho, rfl⟩ |
    ⟨t, w, d, o, hw, hd, ho, rfl⟩ | ⟨hidle, hd⟩ := step_cases hs
  · exact h.start ht hp (hP path t x rfl)
  · exact h.perform hw (ho.imp And.left id)
  · exact h.abandon hw hd ho
  · apply Sound.of_idle hidle
    intro n hn
    rcases hd with hd | ⟨choose, torn, hd⟩
    · exact hd ▸ h.settled n hn
    · exact hd ▸ (h.settled n hn).crash

/-- A disk that nothing is written to, and whose target names a crash leaves as they are. -/
structure Files.AtRest (isTemporary : ν → Bool) (s : Files ν κ) : Prop where
  idle : ∀ t, s.writes t = none
  settled : ∀ n, isTemporary n = false → s.disk.Settled (fun _ ↦ True) n

omit [DecidableEq ν] in
/-- A disk without files is at rest, and shows none. -/
theorem atRest_empty (isTemporary : ν → Bool) :
    (({} : Files ν κ)).AtRest isTemporary where
  idle _ := rfl
  settled n _ e he := by
    obtain rfl : e = none := by simpa [Disk.entries] using he
    exact .inl ⟨rfl, trivial⟩

omit [DecidableEq ν] in
theorem Files.AtRest.sound (h : s.AtRest isTemporary) (empty : κ) :
    Sound isTemporary (fun n ↦ s.disk.May n) s :=
  .of_idle h.idle fun n hn ↦ (h.settled n hn).self empty

theorem Sound.run {l : List (Event ν κ)} (h : Sound isTemporary P s)
    (hl : Runs (Files.step directory isTemporary empty) s l s')
    (hP : ∀ path t x, .start path t x ∈ l → P path (some x)) : Sound isTemporary P s' := by
  have key := hl.trace_invariant (P := fun k u ↦
    (∀ path t x, .start path t x ∈ k → P path (some x)) → Sound isTemporary P u) (fun _ ↦ h) ?_
  · exact key hP
  · intro k u a v _ ih hstep hk
    apply (ih fun path t x hmem ↦ hk path t x (List.mem_append_left _ hmem)).step hstep
    rintro path t x rfl
    exact hk path t x (by simp)

/-- Whatever the interleaving of the writers, and whichever of their operations
raise or are cut off by a kill or a crash, a target name shows what it showed
before or the whole of the data of one of the writers. -/
theorem never_torn {l : List (Event ν κ)} {c : Option κ} (h : s.AtRest isTemporary)
    (hl : Runs (Files.step directory isTemporary empty) s l s') (hn : isTemporary n = false)
    (hc : s'.disk.May n c) :
    s.disk.May n c ∨ ∃ t x, .start n t x ∈ l ∧ c = some x := by
  have hsound := ((h.sound empty).mono (Q := fun n c ↦
    s.disk.May n c ∨ ∃ t x, .start n t x ∈ l ∧ c = some x) fun n c ↦ .inl).run hl ?_
  · exact (hsound.settled n hn).may hc
  · exact fun path t x hmem ↦ .inr ⟨t, x, hmem, rfl⟩

/-- The writer under the temporary name is the only one with this target. -/
structure Alone (path : ν) (x : κ) (t : ν) (s : Files ν κ) : Prop where
  only : ∀ t' w, s.writes t' = some w → w.path = path → t' = t ∧ w.data = x
  renamed : ∀ w, s.writes t = some w → w.path = path → w.stage = .renamed →
    s.disk.current path = some w.inode ∧ s.disk.files[w.inode]? = some ⟨x, true⟩

section

variable {path : ν} {x : κ}

/-- The step that returns from a write makes its data the only thing the target
can show. -/
theorem Sound.returned (h : Sound isTemporary P s) (ha : Alone path x t s)
    (hw : s.writes t = some w) (hp : w.path = path) (hstage : w.stage = .renamed)
    (hs : s.step directory isTemporary empty (.advance t) = some s') :
    Sound isTemporary (fun n c ↦ P n c ∧ (n = path → c = some x)) s' ∧
      s'.writes = Function.update s.writes t none := by
  have hsound := h.step hs (by simp)
  simp only [Files.step, hw, Option.bind_some, hstage, reduceCtorEq, if_false] at hs
  obtain rfl := Option.some.inj hs
  obtain ⟨hcurrent, hfile⟩ := ha.renamed w hw hp hstage
  refine ⟨⟨?_, ?_, hsound.apart⟩, by simp [Writing.next, hstage]⟩
  · intro n hn e he
    by_cases hnp : n = path
    · subst hnp
      have hP : P n (some x) := by
        have hread := (h.settled n hn).read
        rwa [Disk.read, hcurrent, Option.bind_some, hfile, Option.map_some] at hread
      obtain rfl : e = some w.inode := by
        simpa [Writing.perform, hstage, Disk.entries, Disk.syncDirectory, hp, hcurrent] using he
      refine .inr ⟨w.inode, x, rfl, ?_, hP, fun _ ↦ rfl⟩
      simpa [Writing.perform, hstage, Disk.syncDirectory] using hfile
    · exact (hsound.settled n hn e he).mono fun c hc ↦ ⟨hc, fun h ↦ absurd h hnp⟩
  · intro t' w' hw'
    have hf := hsound.fits t' w' hw'
    refine ⟨hf.name, hf.target, ⟨hf.allowed, ?_⟩, hf.inode, hf.current, hf.hidden, hf.filled,
      hf.synced⟩
    intro hp'
    have ht : t' ≠ t := by
      rintro rfl
      simp [Writing.next, hstage] at hw'
    simp only [Function.update_of_ne ht] at hw'
    exact absurd (ha.only t' w' hw' hp').1 ht

omit [DecidableEq ν] in
theorem Writing.next_path (h : w.next = some w') : w'.path = w.path ∧ w'.data = w.data := by
  unfold Writing.next at h
  cases hstage : w.stage <;> simp only [hstage, Option.some.injEq, reduceCtorEq] at h <;>
    subst h <;> exact ⟨rfl, rfl⟩

omit [DecidableEq ν] in
theorem Writing.next_renamed (hw : w.stage ≠ .raising) (h : w.next = some w')
    (hw' : w'.stage = .renamed) : w.stage = .synced ∧ w' = { w with stage := .renamed } := by
  unfold Writing.next at h
  cases hstage : w.stage with
  | synced => exact ⟨rfl, by simpa [hstage] using h.symm⟩
  | raising => exact absurd hstage hw
  | _ =>
    simp only [hstage, Option.some.injEq, reduceCtorEq] at h
    try (subst h; cases hw')

omit [DecidableEq ν] in
theorem Writing.next_stage (hw : w.stage ≠ .raising) (h : w.next = some w') :
    w'.stage ≠ .raising := by
  unfold Writing.next at h
  cases hstage : w.stage <;> simp only [hstage, Option.some.injEq, reduceCtorEq] at h hw <;>
    subst h
  case raising => exact absurd rfl hw
  all_goals simp

omit [DecidableEq ν] in
theorem Writing.renamed_of_next (h : w.next = none) : w.stage = .renamed := by
  unfold Writing.next at h
  cases hstage : w.stage <;> simp [hstage] at h ⊢

/-- A writer of the next state was one before, or is new. -/
theorem writes_step {event : Event ν κ} (hs : s.step directory isTemporary empty event = some s')
    (hw : s'.writes t = some w') :
    event = .start w'.path t w'.data ∨
      ∃ w, s.writes t = some w ∧ w'.path = w.path ∧ w'.data = w.data := by
  have hkept : ∀ t₁ w₁ o, s.writes t₁ = some w₁ → Function.update s.writes t₁ o t = some w' →
      (∀ w₂, o = some w₂ → w₂.path = w₁.path ∧ w₂.data = w₁.data) →
      ∃ w, s.writes t = some w ∧ w'.path = w.path ∧ w'.data = w.data := by
    intro t₁ w₁ o hw₁ hw ho
    by_cases ht : t = t₁
    · subst ht
      exact ⟨w₁, hw₁, ho w' (by simpa using hw)⟩
    · exact ⟨w', by simpa [Function.update_of_ne ht] using hw, rfl, rfl⟩
  have hraise : ∀ w w₂ : Writing ν κ, some { w with stage := .raising } = some w₂ →
      w₂.path = w.path ∧ w₂.data = w.data := by
    intro w w₂ h
    obtain rfl := Option.some.inj h
    exact ⟨rfl, rfl⟩
  obtain ⟨path, t₁, x, rfl, -, -, -, rfl⟩ | ⟨t₁, w, o, hw₁, -, ho, rfl⟩ |
    ⟨t₁, w, d, o, hw₁, -, ho, rfl⟩ | ⟨hidle, -⟩ := step_cases hs
  · by_cases ht : t = t₁
    · subst ht
      simp only [Function.update_self, Option.some.injEq] at hw
      subst hw
      exact .inl rfl
    · exact .inr ⟨w', by simpa [Function.update_of_ne ht] using hw, rfl, rfl⟩
  · right
    rcases ho with ⟨rfl, -⟩ | rfl
    · exact hkept t₁ w _ hw₁ hw fun _ ↦ Writing.next_path
    · exact hkept t₁ w _ hw₁ hw (hraise w)
  · right
    rcases ho with rfl | rfl
    · exact hkept t₁ w _ hw₁ hw fun _ h ↦ by cases h
    · exact hkept t₁ w _ hw₁ hw (hraise w)
  · rw [hidle t] at hw
    cases hw

theorem Alone.of_start (hp : ∀ t' w, s.writes t' = some w → w.path ≠ path)
    (hs : s.step directory isTemporary empty (.start path t x) = some s') : Alone path x t s' := by
  simp only [Files.step, Option.ite_none_right_eq_some, Option.some.injEq] at hs
  obtain ⟨-, rfl⟩ := hs
  constructor
  · intro t' w hw hwp
    by_cases ht : t' = t
    · subst ht
      simp only [Function.update_self, Option.some.injEq] at hw
      subst hw
      exact ⟨rfl, rfl⟩
    · exact absurd hwp (hp t' w (by simpa [Function.update_of_ne ht] using hw))
  · intro w hw _ hstage
    simp only [Function.update_self, Option.some.injEq] at hw
    subst hw
    cases hstage

/-- After its rename a writer's file stays under the target name until another write
onto it begins. -/
theorem Alone.step {event : Event ν κ} (h : Sound isTemporary P s) (ha : Alone path x t s)
    (hs : s.step directory isTemporary empty event = some s')
    (hstart : ∀ t' y, event ≠ .start path t' y) : Alone path x t s' := by
  constructor
  · intro t' w' hw' hp'
    rcases writes_step hs hw' with hevent | ⟨w, hw, hp, hx⟩
    · exact absurd (hp' ▸ hevent) (hstart t' w'.data)
    · rw [hx]
      exact ha.only t' w hw (hp ▸ hp')
  · intro w' hw' hp' hstage'
    -- the writer was there before, and the file under the target name was its own
    have hkept : ∀ w, s.writes t = some w → w.path = path → w.stage = .renamed →
        s.disk.current path = some w.inode ∧ s.disk.files[w.inode]? = some ⟨x, true⟩ ∧
          isTemporary path = false ∧ some w.inode ∈ s.disk.entries path := by
      intro w hw hp hstage
      obtain ⟨hcurrent, hfile⟩ := ha.renamed w hw hp hstage
      exact ⟨hcurrent, hfile, hp ▸ (h.fits t w hw).target,
        hcurrent ▸ Disk.current_mem_entries⟩
    have hhidden : ∀ t₁ w₁ w, s.writes t₁ = some w₁ → s.writes t = some w → w.path = path →
        w.stage = .renamed → w₁.Owns → w.inode ≠ w₁.inode := by
      intro t₁ w₁ w hw₁ hw hp hstage ho hi
      obtain ⟨-, -, hpath, hmem⟩ := hkept w hw hp hstage
      exact (h.fits t₁ w₁ hw₁).hidden ho path hpath (hi ▸ hmem)
    obtain ⟨path₁, t₁, y, rfl, ht₁, -, -, rfl⟩ | ⟨t₁, w₁, o, hw₁, hw₁', ho, rfl⟩ |
      ⟨t₁, w₁, d, o, hw₁, hd, ho, rfl⟩ | ⟨hidle, -⟩ := step_cases hs
    · by_cases ht : t = t₁
      · subst ht
        simp only [Function.update_self, Option.some.injEq] at hw'
        subst hw'
        cases hstage'
      · simp only [Function.update_of_ne ht] at hw'
        obtain ⟨hcurrent, hfile, hpath, -⟩ := hkept w' hw' hp' hstage'
        have hne : path ≠ t₁ := by
          intro hpt
          rw [← hpt, hpath] at ht₁
          cases ht₁
        have hlt := (List.getElem?_eq_some_iff.mp hfile).1
        simp [Disk.create, Disk.enter, Function.update_of_ne hne, hcurrent,
          List.getElem?_append_left hlt, hfile]
    · have hf₁ := h.fits t₁ w₁ hw₁
      by_cases ht : t = t₁
      · subst ht
        simp only [Function.update_self] at hw'
        rcases ho with ⟨rfl, -⟩ | rfl
        · -- it is the rename
          obtain ⟨hstage, rfl⟩ := Writing.next_renamed hw₁' hw' hstage'
          subst hp'
          have hx := (ha.only t w₁ hw₁ rfl).2
          have hfile := hf₁.synced hstage
          have hne : w₁.path ≠ t := hf₁.ne hf₁.target
          have hcurrent := hf₁.current (.inr (.inr hstage))
          simp [Writing.perform, hstage, Disk.rename, hcurrent, Disk.enter,
            Function.update_of_ne hne, hfile, hx]
        · obtain rfl := Option.some.inj hw'
          cases hstage'
      · simp only [Function.update_of_ne ht] at hw'
        obtain ⟨hcurrent, hfile, hpath, -⟩ := hkept w' hw' hp' hstage'
        have hne : path ≠ w₁.path := fun hp₁ ↦ ht (ha.only t₁ w₁ hw₁ hp₁.symm).1.symm
        refine ⟨?_, Writing.perform_files hfile (hhidden t₁ w₁ w' hw₁ hw' hp' hstage')⟩
        dsimp only
        rw [Writing.perform_current (hf₁.ne hpath) hne, hcurrent]
    · by_cases ht : t = t₁
      · subst ht
        simp only [Function.update_self] at hw'
        rcases ho with rfl | rfl
        · cases hw'
        · obtain rfl := Option.some.inj hw'
          cases hstage'
      · simp only [Function.update_of_ne ht] at hw'
        obtain ⟨hcurrent, hfile, hpath, -⟩ := hkept w' hw' hp' hstage'
        refine ⟨?_, hd.files _ _ (hhidden t₁ w₁ w' hw₁ hw' hp' hstage') hfile⟩
        dsimp only
        rw [hd.current path ((h.fits t₁ w₁ hw₁).ne hpath), hcurrent]
    · rw [hidle t] at hw'
      cases hw'

/-- What a write has put on the disk when it returns, without another write onto the
same target since it began, is what the target shows until the next one begins. -/
theorem returned_kept {u v : Files ν κ} {k l : List (Event ν κ)} {c : Option κ}
    (hu : Sound isTemporary P u) (hp : ∀ t' w, u.writes t' = some w → w.path ≠ path)
    (hv : Runs (Files.step directory isTemporary empty) u (.start path t x :: k) v)
    (hk : ∀ t' y, .start path t' y ∉ k) (hw : v.writes t = some w) (hwp : w.path = path)
    (hstage : w.stage = .renamed)
    (hl : Runs (Files.step directory isTemporary empty) v (.advance t :: l) s)
    (hlstart : ∀ t' y, .start path t' y ∉ l) (hc : s.disk.May path c) : c = some x := by
  obtain ⟨u', hu', hrun⟩ := runs_cons.mp hv
  obtain ⟨v', hv', hrest⟩ := runs_cons.mp hl
  have hweak : Sound isTemporary (fun _ _ ↦ True) u := hu.mono fun _ _ _ ↦ trivial
  have halone : Alone path x t v ∧ Sound isTemporary (fun _ _ ↦ True) v := by
    have key := hrun.trace_invariant (P := fun k u ↦ (∀ t' y, .start path t' y ∉ k) →
      Alone path x t u ∧ Sound isTemporary (fun _ _ ↦ True) u) ?_ ?_
    · exact key hk
    · exact fun _ ↦ ⟨.of_start hp hu', hweak.step hu' fun _ _ _ _ ↦ trivial⟩
    · intro k u a v _ ih ha hk
      obtain ⟨hal, hso⟩ := ih fun t' y hmem ↦ hk t' y (List.mem_append_left _ hmem)
      refine ⟨hal.step hso ha ?_, hso.step ha fun _ _ _ _ ↦ trivial⟩
      rintro t' y rfl
      exact hk t' y (by simp)
  obtain ⟨hsound, -⟩ := halone.2.returned halone.1 hw hwp hstage hv'
  have hend := hsound.run hrest ?_
  · exact ((hend.settled path (hwp ▸ (halone.2.fits t w hw).target)).may hc).2 rfl
  · rintro path' t' y hmem
    exact ⟨trivial, fun heq ↦ absurd (heq ▸ hmem) (hlstart t' y)⟩

end

end NoreplyGateway.AtomicFiles
