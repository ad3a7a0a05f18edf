import Mathlib

namespace NoreplyGateway

/-- The slashes in front of a path. Exactly two of them are kept apart from one. -/
inductive PathRoot
  | none
  | slash
  | doubleSlash
  deriving DecidableEq

def PathRoot.text : PathRoot → List Char
  | .none => []
  | .slash => ['/']
  | .doubleSlash => ['/', '/']

def IsPathPart (part : List Char) : Prop := part ≠ [] ∧ part ≠ ['.'] ∧ '/' ∉ part

instance : DecidablePred IsPathPart := fun part ↦
  inferInstanceAs (Decidable (part ≠ [] ∧ part ≠ ['.'] ∧ '/' ∉ part))

/-- A path of `pathlib`, which leaves out empty parts and single dots. -/
@[ext] structure PosixPath where
  root : PathRoot
  parts : List (List Char)
  valid : ∀ part ∈ parts, IsPathPart part

namespace PosixPath

def rootOf : List Char → PathRoot
  | '/' :: '/' :: '/' :: _ => .slash
  | '/' :: '/' :: _ => .doubleSlash
  | '/' :: _ => .slash
  | _ => .none

def parse (text : List Char) : PosixPath where
  root := rootOf text
  parts := (text.splitOn '/').filter IsPathPart
  valid := fun _ h ↦ of_decide_eq_true (List.mem_filter.mp h).2

def str (path : PosixPath) : List Char :=
  if path.root = .none ∧ path.parts = [] then ['.']
  else path.root.text ++ ['/'].intercalate path.parts

def IsAbsolute (path : PosixPath) : Prop := path.root ≠ .none

instance : DecidablePred IsAbsolute := fun path ↦ inferInstanceAs (Decidable (path.root ≠ .none))

variable {path : PosixPath}

theorem splitOn_parts (path : PosixPath) :
    ((['/'].intercalate path.parts).splitOn '/').filter IsPathPart = path.parts := by
  have hself : path.parts.filter IsPathPart = path.parts :=
    List.filter_eq_self.mpr (fun part hpart ↦ decide_eq_true (path.valid part hpart))
  by_cases hnil : path.parts = []
  · rw [hnil]
    rfl
  · rw [List.splitOn_intercalate '/' (fun part hpart ↦ (path.valid part hpart).2.2) hnil, hself]

/-- The text of the parts does not start with a slash. -/
theorem head_parts (path : PosixPath) : (['/'].intercalate path.parts).head? ≠ some '/' := by
  cases hparts : path.parts with
  | nil => simp
  | cons part parts =>
    have hvalid := path.valid part (by simp [hparts])
    obtain ⟨c, cs, hcs⟩ := List.exists_cons_of_ne_nil hvalid.1
    have hc : c ≠ '/' := fun h ↦ hvalid.2.2 (by simp [hcs, h])
    have hhead : ∃ tail, ['/'].intercalate (part :: parts) = c :: tail := by
      rw [hcs]
      cases parts <;> exact ⟨_, by simp [List.intercalate]; rfl⟩
    obtain ⟨tail, htail⟩ := hhead
    rw [htail]
    exact fun h ↦ hc (Option.some.inj h)

theorem rootOf_slash {text : List Char} (h : text.head? ≠ some '/') :
    rootOf ('/' :: text) = .slash := by
  unfold rootOf
  split
  · rfl
  · next heq =>
    rw [(List.cons.inj heq).2] at h
    exact absurd rfl h
  · rfl
  · next hne => exact absurd rfl (hne text)

theorem rootOf_doubleSlash {text : List Char} (h : text.head? ≠ some '/') :
    rootOf ('/' :: '/' :: text) = .doubleSlash := by
  unfold rootOf
  split
  · next heq =>
    rw [(List.cons.inj (List.cons.inj heq).2).2] at h
    exact absurd rfl h
  · rfl
  · next hne heq => exact absurd (List.cons.inj heq).2.symm (hne text)
  · next hne => exact absurd rfl (hne _)

theorem splitOn_slash (text : List Char) :
    (('/' :: text).splitOn '/').filter IsPathPart = (text.splitOn '/').filter IsPathPart := by
  rw [List.splitOn_cons_eq_if_modifyHead]
  rfl

/-- An absolute path is read back from its text. -/
theorem parse_str (h : path.IsAbsolute) : parse path.str = path := by
  have hhead := head_parts path
  have hstr : path.str = path.root.text ++ ['/'].intercalate path.parts :=
    if_neg (fun hnone ↦ h hnone.1)
  ext1
  · rw [parse, hstr]
    cases hroot : path.root with
    | none => exact absurd hroot h
    | slash => exact rootOf_slash hhead
    | doubleSlash => exact rootOf_doubleSlash hhead
  · rw [parse, hstr]
    cases hroot : path.root with
    | none => exact absurd hroot h
    | slash => exact (splitOn_slash _).trans (splitOn_parts path)
    | doubleSlash =>
      exact (splitOn_slash _).trans ((splitOn_slash _).trans (splitOn_parts path))

end PosixPath

end NoreplyGateway
