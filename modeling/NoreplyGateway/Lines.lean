import Mathlib

namespace NoreplyGateway.Lines

variable {α : Type*} [DecidableEq α] {e : α}

/-- The pieces of a stream, each with the terminator that ends it. The last
piece has none when the stream does not end with one. -/
def lines (e : α) : List α → List (List α)
  | [] => []
  | b :: l =>
    if b = e then [b] :: lines e l
    else match lines e l with
      | [] => [[b]]
      | line :: rest => (b :: line) :: rest

@[simp] theorem lines_nil : lines e ([] : List α) = [] := rfl

@[simp] theorem flatten_lines (l : List α) : (lines e l).flatten = l := by
  induction l with
  | nil => rfl
  | cons b l ih =>
    rw [lines]
    split_ifs with hb
    · rw [List.flatten_cons, ih]
      rfl
    · cases hl : lines e l with
      | nil => rw [hl] at ih; simp [← ih]
      | cons line rest => rw [hl] at ih; simp [← ih]

theorem lines_eq_nil {l : List α} : lines e l = [] ↔ l = [] := by
  constructor
  · intro h
    rw [← flatten_lines (e := e) l, h]
    rfl
  · rintro rfl
    rfl

/-- A stream splits where it has been split before. -/
theorem lines_append {l m : List α} (h : l = [] ∨ l.getLast? = some e) :
    lines e (l ++ m) = lines e l ++ lines e m := by
  induction l with
  | nil => rfl
  | cons b l ih =>
    have hl : l = [] ∧ b = e ∨ l ≠ [] ∧ l.getLast? = some e := by
      cases l with
      | nil => exact .inl ⟨rfl, by simpa using h⟩
      | cons c l => exact .inr ⟨by simp, by simpa using h⟩
    rcases hl with ⟨rfl, rfl⟩ | ⟨hne, hlast⟩
    · simp [lines]
    · have ih := ih (.inr hlast)
      rw [List.cons_append, lines, lines]
      split_ifs with hb
      · rw [ih, List.cons_append]
      · rw [ih]
        cases hs : lines e l with
        | nil => exact absurd (lines_eq_nil.mp hs) hne
        | cons line rest => rfl

/-- Every piece but the last ends with the terminator. -/
theorem getLast?_of_mem_dropLast {l : List α} {line : List α} (h : line ∈ (lines e l).dropLast) :
    line.getLast? = some e := by
  induction l generalizing line with
  | nil => cases h
  | cons b l ih =>
    rw [lines] at h
    split_ifs at h with hb
    · cases hs : lines e l with
      | nil => simp [hs] at h
      | cons first rest =>
        rw [hs, List.dropLast_cons_of_ne_nil (by simp), ← hs] at h
        rcases List.mem_cons.mp h with rfl | h
        · rw [hb]
          rfl
        · exact ih h
    · cases hs : lines e l with
      | nil => simp [hs] at h
      | cons first rest =>
        simp only [hs] at h
        cases rest with
        | nil => simp at h
        | cons second rest =>
          rw [List.dropLast_cons_of_ne_nil (by simp)] at h
          rw [hs, List.dropLast_cons_of_ne_nil (by simp)] at ih
          rcases List.mem_cons.mp h with rfl | h
          · rw [List.getLast?_cons, ih (List.mem_cons_self ..)]
            rfl
          · exact ih (List.mem_cons_of_mem _ h)

theorem getLast?_of_mem_lines {l : List α} {ls rest : List (List α)} {line : List α}
    (h : lines e l = ls ++ rest) (hr : rest ≠ []) (hm : line ∈ ls) : line.getLast? = some e := by
  refine getLast?_of_mem_dropLast (l := l) ?_
  rw [h, List.dropLast_append_of_ne_nil hr]
  exact List.mem_append_left _ hm

omit [DecidableEq α] in
theorem getLast?_flatten {ls : List (List α)} (h : ∀ line ∈ ls, line.getLast? = some e)
    (hne : ls ≠ []) : ls.flatten.getLast? = some e := by
  obtain ⟨init, last, rfl⟩ := (List.eq_nil_or_concat' ls).resolve_left hne
  rw [List.flatten_append, List.flatten_singleton, List.getLast?_append,
    h last (List.mem_append_right _ (List.mem_singleton_self _))]
  rfl

omit [DecidableEq α] in
/-- The part before the first occurrence of an element is the shortest one. -/
theorem prefix_of_first {a b x y : List α} (h : a ++ e :: x = b ++ e :: y) (hb : e ∉ b) :
    b <+: a := by
  induction b generalizing a with
  | nil => exact List.nil_prefix
  | cons c b ih =>
    obtain ⟨hne, hrest⟩ := List.ne_and_not_mem_of_not_mem_cons hb
    cases a with
    | nil => exact absurd (List.cons.inj h).1 hne
    | cons d a =>
      obtain ⟨rfl, htail⟩ := List.cons.inj h
      exact List.cons_prefix_cons.mpr ⟨rfl, ih htail hrest⟩

end NoreplyGateway.Lines
