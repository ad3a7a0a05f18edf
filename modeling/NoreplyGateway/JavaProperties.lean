import Mathlib

namespace NoreplyGateway.JavaProperties

/-- Text as a list of code units. -/
abbrev Text := List ℕ

/-- The pieces between the breaks of a text, where CR LF is one break. -/
def pieces (isBreak : ℕ → Bool) : Text → List Text
  | [] => []
  | 13 :: 10 :: rest => [] :: pieces isBreak rest
  | c :: rest =>
    if isBreak c then [] :: pieces isBreak rest
    else match pieces isBreak rest with
      | [] => [[c]]
      | piece :: others => (c :: piece) :: others

/-- Space, tab and form feed. -/
def isBlank (c : ℕ) : Bool := c = 32 ∨ c = 9 ∨ c = 12

/-- The characters that begin a comment. -/
def isMark (c : ℕ) : Bool := c = 35 ∨ c = 33

def isSeparator (c : ℕ) : Bool := c = 61 ∨ c = 58 ∨ isBlank c

def isComment (line : Text) : Bool := line.head?.any isMark

/-- The line ends in an odd number of backslashes. -/
def continued (line : Text) : Bool := (line.reverse.takeWhile (· = 92)).length % 2 = 1

inductive Item
  | comment (line : Text)
  | property (line : Text)
  deriving DecidableEq

/-- The comments and the logical lines, and the line that the file ends in if it is
still continued. A line that is continued with nothing in it is a new line. -/
def scan : Option Text → List Text → List Item × Option Text
  | unfinished, [] => ([], unfinished)
  | unfinished, natural :: rest =>
    let begun := unfinished.getD []
    let line := natural.dropWhile isBlank
    if begun = [] ∧ line = [] then scan none rest
    else if begun = [] ∧ isComment line then
      (.comment line :: (scan none rest).1, (scan none rest).2)
    else if continued line then scan (some (begun ++ line.dropLast)) rest
    else (.property (begun ++ line) :: (scan none rest).1, (scan none rest).2)

def Item.property? : Item → Option Text
  | property line => some line
  | comment _ => none

/-- The logical lines that a scan finds. -/
def logical (items : List Item) : List Text := items.filterMap Item.property?

/-- Where the key of a logical line ends. -/
def keyLength : Text → ℕ
  | [] => 0
  | 92 :: _ :: rest => keyLength rest + 2
  | c :: rest => if isSeparator c then 0 else keyLength rest + 1

/-- The value behind a key, without the separator. -/
def value (rest : Text) : Text :=
  match rest.dropWhile isBlank with
  | [] => []
  | c :: rest => if c = 61 ∨ c = 58 then rest.dropWhile isBlank else c :: rest

def hexDigit (c : ℕ) : Option ℕ :=
  if 48 ≤ c ∧ c ≤ 57 then some (c - 48)
  else if 97 ≤ c ∧ c ≤ 102 then some (c - 87)
  else if 65 ≤ c ∧ c ≤ 70 then some (c - 55)
  else none

/-- A number in hexadecimal digits. -/
def hexadecimal (digits : Text) : Option ℕ :=
  (digits.mapM hexDigit).map (List.foldl (fun n d ↦ 16 * n + d) 0)

/-- The character for the one behind a backslash. -/
def plain (c : ℕ) : ℕ :=
  if c = 116 then 9 else if c = 114 then 13 else if c = 110 then 10 else if c = 102 then 12 else c

/-- Escapes are decoded, unless one is malformed. -/
def decode : Text → Option Text
  | [] => some []
  | 92 :: 117 :: a :: b :: c :: d :: rest =>
    (hexadecimal [a, b, c, d]).bind fun n ↦ (decode rest).map (n :: ·)
  | 92 :: c :: rest => if c = 117 then none else (decode rest).map (plain c :: ·)
  | c :: rest => (decode rest).map (c :: ·)

/-- The property of a logical line takes the place of an earlier one. -/
def assign (m : Text → Option Text) (line : Text) : Option (Text → Option Text) :=
  (decode (line.take (keyLength line))).bind fun key ↦
    (decode (value (line.drop (keyLength line)))).map fun v ↦ Function.update m key (some v)

def isNatural (c : ℕ) : Bool := c = 10 ∨ c = 13

def naturalLines (text : Text) : List Text := pieces isNatural text

/-- The properties of a text, with the line that is left unfinished at its end. -/
def load (text : Text) : Option (Text → Option Text) :=
  let scanned := scan none (naturalLines text)
  (logical scanned.1 ++ scanned.2.toList).foldlM assign fun _ ↦ none

theorem scan_cons (unfinished : Option Text) (natural : Text) (rest : List Text) :
    scan unfinished (natural :: rest) =
      let begun := unfinished.getD []
      let line := natural.dropWhile isBlank
      if begun = [] ∧ line = [] then scan none rest
      else if begun = [] ∧ isComment line then
        (.comment line :: (scan none rest).1, (scan none rest).2)
      else if continued line then scan (some (begun ++ line.dropLast)) rest
      else (.property (begun ++ line) :: (scan none rest).1, (scan none rest).2) := rfl

section Pieces

variable {p q : ℕ → Bool} {l : Text}

theorem pieces_congr (h : ∀ c ∈ l, p c = q c) : pieces p l = pieces q l := by
  induction l using pieces.induct p with
  | case1 => rfl
  | case2 rest ih =>
    rw [pieces, pieces, ih fun c hc ↦ h c (by simp [hc])]
  | case3 c rest hne hbreak ih =>
    rw [pieces, pieces, ← h c List.mem_cons_self, ih fun x hx ↦ h x (List.mem_cons_of_mem _ hx)]
    · exact hne
    · exact hne
  | case4 c rest hne hbreak hnil ih =>
    rw [pieces, pieces, ← h c List.mem_cons_self, ih fun x hx ↦ h x (List.mem_cons_of_mem _ hx)]
    · exact hne
    · exact hne
  | case5 c rest hne hbreak piece others hpieces ih =>
    rw [pieces, pieces, ← h c List.mem_cons_self, ih fun x hx ↦ h x (List.mem_cons_of_mem _ hx)]
    · exact hne
    · exact hne

/-- No piece contains a break. -/
theorem no_break : ∀ piece ∈ pieces p l, ∀ c ∈ piece, p c = false := by
  induction l using pieces.induct p with
  | case1 => simp [pieces]
  | case2 rest ih => simpa [pieces] using ih
  | case3 c rest hne hbreak ih =>
    rw [pieces, if_pos hbreak]
    · simpa using ih
    · exact hne
  | case4 c rest hne hbreak hnil ih =>
    rw [pieces, if_neg hbreak, hnil]
    · simpa using hbreak
    · exact hne
  | case5 c rest hne hbreak piece others hpieces ih =>
    rw [pieces, if_neg hbreak, hpieces]
    · rw [hpieces] at ih
      intro piece' hpiece' x hx
      rcases List.mem_cons.mp hpiece' with rfl | hpiece'
      · rcases List.mem_cons.mp hx with rfl | hx
        · simpa using hbreak
        · exact ih piece List.mem_cons_self x hx
      · exact ih piece' (List.mem_cons_of_mem _ hpiece') x hx
    · exact hne

end Pieces

section Continued

variable {begun line : Text}

theorem continued_concat (line : Text) : continued (line ++ [92]) = !continued line := by
  unfold continued
  rw [List.reverse_append]
  simp only [List.reverse_singleton, List.singleton_append, List.takeWhile_cons, decide_true,
    if_true, List.length_cons]
  rcases Nat.mod_two_eq_zero_or_one (line.reverse.takeWhile (· = 92)).length with h | h
  · rw [Nat.add_mod, h]
    rfl
  · rw [Nat.add_mod, h]
    rfl

theorem continued_concat_ne {c : ℕ} (h : c ≠ 92) (line : Text) : continued (line ++ [c]) = false := by
  simp [continued, h]

/-- What stands before a line does not continue it unless it is continued itself. -/
theorem continued_append (h : continued begun = false) :
    continued (begun ++ line) = continued line := by
  induction line using List.reverseRecOn with
  | nil =>
    rw [List.append_nil, h]
    rfl
  | append_singleton line c ih =>
    rw [← List.append_assoc]
    by_cases hc : c = 92
    · subst hc
      rw [continued_concat, continued_concat, ih]
    · rw [continued_concat_ne hc, continued_concat_ne hc]

theorem dropLast_of_continued (h : continued line = true) :
    line = line.dropLast ++ [92] ∧ continued line.dropLast = false := by
  induction line using List.reverseRecOn with
  | nil => cases h
  | append_singleton line c =>
    by_cases hc : c = 92
    · subst hc
      rw [continued_concat] at h
      rw [List.dropLast_concat]
      exact ⟨rfl, by simpa using h⟩
    · rw [continued_concat_ne hc] at h
      cases h

end Continued

section Characters

variable {c : ℕ}

/-- The characters of a logical line come from the natural lines. -/
theorem mem_of_property {unfinished : Option Text} {lines : List Text} {line : Text}
    (h : .property line ∈ (scan unfinished lines).1) (hc : c ∈ line) :
    c ∈ unfinished.getD [] ∨ ∃ natural ∈ lines, c ∈ natural := by
  induction lines generalizing unfinished with
  | nil => cases h
  | cons natural rest ih =>
    have hlift (h : .property line ∈ (scan none rest).1) :
        c ∈ unfinished.getD [] ∨ ∃ n ∈ natural :: rest, c ∈ n := by
      obtain hnone | ⟨n, hn, hcn⟩ := ih h
      · cases hnone
      · exact .inr ⟨n, List.mem_cons_of_mem _ hn, hcn⟩
    have hstrip (h : c ∈ natural.dropWhile isBlank) : c ∈ natural :=
      (List.dropWhile_sublist _).subset h
    rw [scan_cons] at h
    dsimp only at h
    split_ifs at h
    · exact hlift h
    · rcases List.mem_cons.mp h with h | h
      · cases h
      · exact hlift h
    · obtain hbegun | ⟨n, hn, hcn⟩ := ih h
      · rcases List.mem_append.mp hbegun with hbegun | hlast
        · exact .inl hbegun
        · exact .inr ⟨natural, List.mem_cons_self, hstrip (List.dropLast_subset _ hlast)⟩
      · exact .inr ⟨n, List.mem_cons_of_mem _ hn, hcn⟩
    · rcases List.mem_cons.mp h with h | h
      · obtain rfl := Item.property.inj h
        rcases List.mem_append.mp hc with hc | hc
        · exact .inl hc
        · exact .inr ⟨natural, List.mem_cons_self, hstrip hc⟩
      · exact hlift h

theorem mem_of_value {rest : Text} (h : c ∈ value rest) : c ∈ rest := by
  unfold value at h
  have hsub := List.dropWhile_sublist isBlank (l := rest)
  split at h
  · cases h
  · next d tail hdrop =>
    rw [hdrop] at hsub
    split_ifs at h
    · exact hsub.subset (List.mem_cons_of_mem _ ((List.dropWhile_sublist _).subset h))
    · exact hsub.subset h

end Characters

end NoreplyGateway.JavaProperties
