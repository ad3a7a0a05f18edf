import NoreplyGateway.TomlText

namespace NoreplyGateway.Toml

open Json Outcome

/-- A line of a document that a program writes. -/
inductive Line
  | blank
  | comment (text : List Char)
  | entry (key : String) (value : Json.Value)
  | table (name : String)

def Line.text (repr : ℚ → List Char) : Line → Except String (List Char)
  | .blank => .ok []
  | .comment text => .ok text
  | .entry key value => (value.dumps repr).map (fun t ↦ key.toList ++ ' ' :: '=' :: ' ' :: t)
  | .table name => .ok ('[' :: (name.toList ++ [']']))

/-- `"\n".join` of the lines. -/
def render (repr : ℚ → List Char) (lines : List Line) : Except String (List Char) :=
  (lines.mapM (Line.text repr)).map (fun texts ↦ ['\n'].intercalate texts)

/-- What the line does to the document in front of it. -/
def Line.apply (doc : Document) : Line → Except String Document
  | .blank | .comment _ => .ok doc
  | .entry key value => if Readable value then assign doc key (ofJson value) else .error notScalar
  | .table name => declare doc name

def Printable (c : Char) : Prop := 32 ≤ c.toNat ∧ c.toNat ≤ 126

instance : DecidablePred Printable := fun c ↦
  inferInstanceAs (Decidable (32 ≤ c.toNat ∧ c.toNat ≤ 126))

def IsBareKey (key : String) : Prop := key.toList ≠ [] ∧ ∀ c ∈ key.toList, isBareKey c = true

instance : DecidablePred IsBareKey := fun key ↦
  inferInstanceAs (Decidable (key.toList ≠ [] ∧ ∀ c ∈ key.toList, isBareKey c = true))

/-- A comment starts with its mark, a key needs no quotes, and a float is one of
the machine. -/
def Line.WellFormed (repr : ℚ → List Char) (float : List Char → PyFloat) : Line → Prop
  | .blank => True
  | .comment text => text.head? = some '#' ∧ ∀ c ∈ text, Printable c
  | .entry key value => IsBareKey key ∧ ∀ q, value = .rate q → Prints repr float q
  | .table name => IsBareKey name

section Printing

variable {repr : ℚ → List Char} {float : List Char → PyFloat} {text : List Char}

theorem printable_of_isDigit {c : Char} (h : c.isDigit = true) : Printable c := by
  simp only [Char.isDigit, Bool.and_eq_true, decide_eq_true_eq, UInt32.le_iff_toNat_le, ge_iff_le]
    at h
  have hnat : c.toNat = c.val.toNat := rfl
  have hzero : '0'.val.toNat = 48 := rfl
  have hnine : '9'.val.toNat = 57 := rfl
  unfold Printable
  omega

theorem printable_of_isBareKey {c : Char} (h : isBareKey c = true) : Printable c := by
  simp only [isBareKey, decide_eq_true_eq] at h
  rcases h with h | rfl | rfl
  · simp only [Char.isAlphanum, Char.isAlpha, Char.isUpper, Char.isLower, Char.isDigit,
      Bool.or_eq_true, Bool.and_eq_true, decide_eq_true_eq, UInt32.le_iff_toNat_le, ge_iff_le] at h
    have hnat : c.toNat = c.val.toNat := rfl
    have hZ : 'Z'.val.toNat = 90 := rfl
    have hz : 'z'.val.toNat = 122 := rfl
    have hnine : '9'.val.toNat = 57 := rfl
    have hA : 'A'.val.toNat = 65 := rfl
    have ha : 'a'.val.toNat = 97 := rfl
    have hzero : '0'.val.toNat = 48 := rfl
    unfold Printable
    omega
  · decide
  · decide

theorem printable_hexDigits (k n : ℕ) : ∀ c ∈ hexDigits k n, Printable c := by
  have hdigit : ∀ m < 16, Printable (Nat.digitChar m) := by decide
  induction k generalizing n with
  | zero => simp [hexDigits]
  | succ k ih =>
    intro c hc
    rcases List.mem_append.mp hc with hc | hc
    · exact ih _ c hc
    · obtain rfl := List.mem_singleton.mp hc
      exact hdigit _ (Nat.mod_lt _ (by decide))

theorem printable_unicodeEscape (n : ℕ) : ∀ c ∈ unicodeEscape n, Printable c := by
  intro c hc
  rcases List.mem_cons.mp hc with rfl | hc
  · decide
  rcases List.mem_cons.mp hc with rfl | hc
  · decide
  exact printable_hexDigits 4 n c hc

theorem printable_escape (c : Char) : ∀ d ∈ escape c, Printable d := by
  have hpair : ∀ e : Char, Printable e → ∀ d ∈ [Char.ofNat 92, e], Printable d := by
    intro e he d hd
    rcases List.mem_cons.mp hd with rfl | hd
    · decide
    · obtain rfl := List.mem_singleton.mp hd
      exact he
  rw [escape]
  split_ifs with h₁ h₂ h₃ h₄ h₅ h₆ h₇ h₈
  · refine hpair c ?_
    unfold Printable
    omega
  · exact hpair 'n' (by decide)
  · exact hpair 'r' (by decide)
  · exact hpair 't' (by decide)
  · exact hpair 'f' (by decide)
  · exact hpair 'b' (by decide)
  · intro d hd
    obtain rfl := List.mem_singleton.mp hd
    exact h₇
  · exact printable_unicodeEscape _
  · intro d hd
    rcases List.mem_append.mp hd with hd | hd
    · exact printable_unicodeEscape _ d hd
    · exact printable_unicodeEscape _ d hd

theorem printable_dumpString (s : String) : ∀ c ∈ dumpString s, Printable c := by
  have hquote : Printable (Char.ofNat 34) := by decide
  intro c hc
  rcases List.mem_cons.mp hc with rfl | hc
  · exact hquote
  rcases List.mem_append.mp hc with hc | hc
  · obtain ⟨d, -, hd⟩ := List.mem_flatMap.mp hc
    exact printable_escape d c hd
  · obtain rfl := List.mem_singleton.mp hc
    exact hquote

theorem printable_joined (l : List String) : ∀ c ∈ joined l, Printable c := by
  induction l with
  | nil => simp [joined]
  | cons s l ih =>
    cases l with
    | nil =>
      rw [joined_singleton]
      exact printable_dumpString s
    | cons s' l =>
      intro c hc
      rw [joined_cons] at hc
      rcases List.mem_append.mp hc with hc | hc
      · exact printable_dumpString s c hc
      rcases List.mem_cons.mp hc with rfl | hc
      · decide
      rcases List.mem_cons.mp hc with rfl | hc
      · decide
      exact ih c hc

theorem FloatText.printable (t : FloatText) : ∀ c ∈ t.text, Printable c := by
  intro c hc
  rcases List.mem_append.mp hc with hc | hc
  · rcases t.isWhole with hw | ⟨-, -, hw⟩
    · rw [hw] at hc
      obtain rfl := List.mem_singleton.mp hc
      decide
    · exact printable_of_isDigit (hw c hc)
  rcases List.mem_append.mp hc with hc | hc
  · rcases t.isFraction with hf | ⟨digits, hf, -, hdigits⟩
    · rw [hf] at hc
      cases hc
    · rw [hf] at hc
      rcases List.mem_cons.mp hc with rfl | hc
      · decide
      · exact printable_of_isDigit (hdigits c hc)
  · rcases t.isExponent with he | ⟨mark, digits, hmark, he, -, hdigits⟩
    · rw [he] at hc
      cases hc
    · rw [he] at hc
      rcases List.mem_cons.mp hc with rfl | hc
      · decide
      rcases List.mem_cons.mp hc with rfl | hc
      · rcases hmark with rfl | rfl <;> decide
      · exact printable_of_isDigit (hdigits c hc)

theorem printable_dumps {v : Json.Value} (hv : v.dumps repr = .ok text)
    (hfloat : ∀ q, v = .rate q → Prints repr float q) : ∀ c ∈ text, Printable c := by
  cases v with
  | text s =>
    obtain rfl := Except.ok.inj hv
    exact printable_dumpString s
  | number n =>
    rw [Json.Value.dumps] at hv
    split_ifs at hv
    obtain rfl := Except.ok.inj hv
    exact fun c hc ↦ printable_of_isDigit (Nat.isDigit_of_mem_toDigits (by decide) (by decide) hc)
  | rate q =>
    obtain ⟨t, ht, -⟩ := hfloat q rfl
    obtain rfl := Except.ok.inj hv
    rw [ht]
    exact t.printable
  | flag b =>
    obtain rfl := Except.ok.inj hv
    have hfalse : ∀ c ∈ ['f', 'a', 'l', 's', 'e'], isBareKey c = true := by
      simp [isBareKey]
    have htrue : ∀ c ∈ ['t', 'r', 'u', 'e'], isBareKey c = true := by
      simp [isBareKey]
    cases b
    · exact fun c hc ↦ printable_of_isBareKey (hfalse c hc)
    · exact fun c hc ↦ printable_of_isBareKey (htrue c hc)
  | texts l =>
    obtain rfl := Except.ok.inj hv
    have htext : (Json.dumps l).toList = '[' :: (joined l ++ [']']) := by simp [Json.dumps, joined]
    rw [htext]
    intro c hc
    rcases List.mem_cons.mp hc with rfl | hc
    · decide
    rcases List.mem_append.mp hc with hc | hc
    · exact printable_joined l c hc
    · obtain rfl := List.mem_singleton.mp hc
      decide

/-- A line is printable ASCII. -/
theorem Line.printable {line : Line} (hl : line.WellFormed repr float)
    (ht : line.text repr = .ok text) : ∀ c ∈ text, Printable c := by
  cases line with
  | blank =>
    obtain rfl := Except.ok.inj ht
    simp
  | comment t =>
    obtain rfl := Except.ok.inj ht
    exact hl.2
  | entry key value =>
    obtain ⟨t, hv, rfl⟩ := map_eq_ok.mp ht
    intro c hc
    rcases List.mem_append.mp hc with hc | hc
    · exact printable_of_isBareKey (hl.1.2 c hc)
    rcases List.mem_cons.mp hc with rfl | hc
    · decide
    rcases List.mem_cons.mp hc with rfl | hc
    · decide
    rcases List.mem_cons.mp hc with rfl | hc
    · decide
    exact printable_dumps hv hl.2 c hc
  | table name =>
    obtain rfl := Except.ok.inj ht
    intro c hc
    rcases List.mem_cons.mp hc with rfl | hc
    · decide
    rcases List.mem_append.mp hc with hc | hc
    · exact printable_of_isBareKey (hl.2 c hc)
    · obtain rfl := List.mem_singleton.mp hc
      decide

end Printing

section Statements

variable {repr : ℚ → List Char} {float : List Char → PyFloat} {text rest : List Char}
  {doc : Document}

theorem not_blank_of_isBareKey {c : Char} (h : isBareKey c = true) : isBlank c = false := by
  refine decide_eq_false (fun hb ↦ ?_)
  rcases hb with rfl | rfl <;> revert h <;> decide

theorem ne_of_isBareKey {c d : Char} (h : isBareKey c = true) (hd : isBareKey d = false) :
    c ≠ d := by
  rintro rfl
  rw [h] at hd
  cases hd

theorem skipBlank_cons {c : Char} (h : isBlank c = false) (cs : List Char) :
    skipBlank (c :: cs) = c :: cs := by
  rw [skipBlank, List.dropWhile_cons_of_neg (by simp [h])]

theorem skipBlank_bare {name : String} (h : IsBareKey name) :
    skipBlank (name.toList ++ rest) = name.toList ++ rest := by
  obtain ⟨c, cs, hcs⟩ := List.exists_cons_of_ne_nil h.1
  rw [hcs]
  exact skipBlank_cons (not_blank_of_isBareKey (h.2 c (by simp [hcs]))) _

/-- A bare key is read up to the first other character. -/
theorem key_bare {name : String} {d : Char} (h : IsBareKey name) (hd : isBareKey d = false) :
    key (name.toList ++ d :: rest) = .ok (name, skipBlank (d :: rest)) := by
  have htake : (name.toList ++ d :: rest).takeWhile isBareKey = name.toList := by
    rw [List.takeWhile_append_of_pos h.2, List.takeWhile_cons_of_neg (by simp [hd]), List.append_nil]
  have hdrop : (name.toList ++ d :: rest).dropWhile isBareKey = d :: rest := by
    rw [List.dropWhile_append_of_pos h.2, List.dropWhile_cons_of_neg (by simp [hd])]
  obtain ⟨c, cs, hcs⟩ := List.exists_cons_of_ne_nil h.1
  have hc : isBareKey c = true := h.2 c (by simp [hcs])
  rw [hcs, List.cons_append] at htake hdrop ⊢
  rw [key, if_neg (ne_of_isBareKey hc (by decide)), if_pos hc, htake, hdrop, ← hcs,
    String.ofList_toList]

/-- The text of a value does not start with a blank. -/
theorem skipBlank_dumps {v : Json.Value} (hv : v.dumps repr = .ok text)
    (hfloat : ∀ q, v = .rate q → Prints repr float q) :
    skipBlank (text ++ rest) = text ++ rest := by
  have hdigits : ∀ l, IsWhole l → ∀ tail, skipBlank (l ++ tail) = l ++ tail := by
    intro l hl tail
    obtain ⟨c, cs, rfl, hc⟩ := isDigit_head hl
    refine skipBlank_cons (decide_eq_false (fun hb ↦ ?_)) (cs ++ tail)
    rcases hb with rfl | rfl <;> revert hc <;> decide
  cases v with
  | text s =>
    obtain rfl := Except.ok.inj hv
    exact skipBlank_cons (by decide) _
  | number n =>
    rw [Json.Value.dumps] at hv
    split_ifs at hv
    obtain rfl := Except.ok.inj hv
    exact hdigits _ (isWhole_toDigits n) rest
  | rate q =>
    obtain ⟨t, ht, -⟩ := hfloat q rfl
    obtain rfl := Except.ok.inj hv
    rw [ht, FloatText.text, List.append_assoc]
    exact hdigits _ t.isWhole _
  | flag b =>
    obtain rfl := Except.ok.inj hv
    cases b
    · exact skipBlank_cons (c := 'f') (by decide) _
    · exact skipBlank_cons (c := 't') (by decide) _
  | texts l =>
    obtain rfl := Except.ok.inj hv
    have htext : (Json.dumps l).toList = '[' :: (joined l ++ [']']) := by simp [Json.dumps, joined]
    rw [htext]
    exact skipBlank_cons (by decide) _

theorem pair_entry {name : String} {v : Json.Value} (hname : IsBareKey name)
    (hv : v.dumps repr = .ok text) (hfloat : ∀ q, v = .rate q → Prints repr float q) :
    pair float doc (name.toList ++ ' ' :: '=' :: ' ' :: (text ++ '\n' :: rest)) =
      ((Line.entry name v).apply doc).map (fun doc ↦ (doc, '\n' :: rest)) := by
  have hkey : key (name.toList ++ ' ' :: '=' :: ' ' :: (text ++ '\n' :: rest)) =
      .ok (name, '=' :: ' ' :: (text ++ '\n' :: rest)) := key_bare hname (by decide)
  have hskip : skipBlank (' ' :: (text ++ '\n' :: rest)) = text ++ '\n' :: rest :=
    skipBlank_dumps hv hfloat
  have hfuel : text.length + 1 ≤ (' ' :: (text ++ '\n' :: rest)).length + 1 := by
    simp only [List.length_cons, List.length_append]
    omega
  rw [pair, hkey]
  change (value float ((' ' :: (text ++ '\n' :: rest)).length + 1)
    (skipBlank (' ' :: (text ++ '\n' :: rest))) >>= fun v' ↦
      assign doc name v'.1 >>= fun doc ↦ Except.ok (doc, v'.2)) = _
  rw [hskip, value_dumps hv hfloat hfuel, Line.apply]
  by_cases hreadable : Readable v
  · rw [if_pos hreadable, if_pos hreadable]
    cases hassign : assign doc name (ofJson v) with
    | ok doc' =>
      change (assign doc name (ofJson v) >>= fun doc ↦ Except.ok (doc, '\n' :: rest)) = _
      rw [hassign]
      rfl
    | error e =>
      change (assign doc name (ofJson v) >>= fun doc ↦ Except.ok (doc, '\n' :: rest)) = _
      rw [hassign]
      rfl
  · rw [if_neg hreadable, if_neg hreadable]
    rfl

theorem lineEnd_comment {cs : List Char} (hcs : ∀ c ∈ cs, Printable c) :
    lineEnd ('#' :: (cs ++ '\n' :: rest)) = .ok rest := by
  have hne : ∀ c ∈ cs, decide (c ≠ '\n') = true := by
    intro c hc
    refine decide_eq_true (fun h ↦ ?_)
    have hp := hcs c hc
    rw [h] at hp
    revert hp
    decide
  have htake : (cs ++ '\n' :: rest).takeWhile (fun c ↦ decide (c ≠ '\n')) = cs := by
    rw [List.takeWhile_append_of_pos hne, List.takeWhile_cons_of_neg (by simp), List.append_nil]
  have hdrop : (cs ++ '\n' :: rest).dropWhile (fun c ↦ decide (c ≠ '\n')) = '\n' :: rest := by
    rw [List.dropWhile_append_of_pos hne, List.dropWhile_cons_of_neg (by simp)]
  have hlegal : cs.any isIllegal = false := by
    refine List.any_eq_false.mpr (fun c hc hi ↦ ?_)
    have hp := hcs c hc
    simp only [isIllegal, decide_eq_true_eq] at hi
    unfold Printable at hp
    omega
  rw [lineEnd, htake, hdrop, hlegal]
  rfl

theorem header_bare {name : String} (hname : IsBareKey name) :
    header doc (name.toList ++ ']' :: rest) = (declare doc name).map (fun doc ↦ (doc, rest)) := by
  have hkey : key (name.toList ++ ']' :: rest) = .ok (name, ']' :: rest) :=
    key_bare hname (by decide)
  rw [header, skipBlank_bare hname, hkey]
  change (declare doc name >>= fun doc ↦ Except.ok (doc, rest)) = _
  cases declare doc name <;> rfl

theorem statements_cons {c : Char} {cs : List Char} {fuel : ℕ} (hb : isBlank c = false)
    (hn : c ≠ '\n') : statements float (fuel + 1) doc (c :: cs) =
      statement float doc (c :: cs) >>= fun r ↦ statements float fuel r.1 r.2 := by
  rw [statements, skipBlank_cons hb]
  split
  · next heq => cases heq
  · next heq => exact absurd (List.cons.inj heq).1 hn
  · rfl

theorem statement_pair {c : Char} {cs : List Char} (ht : c ≠ '[') (hc : c ≠ '#') :
    statement float doc (c :: cs) = pair float doc (c :: cs) >>= fun r ↦
      lineEnd (skipBlank r.2) >>= fun rest ↦ Except.ok (r.1, rest) := by
  rw [statement]
  · intro cs' heq
    exact ht (List.cons.inj heq).1
  · intro cs' heq
    exact hc (List.cons.inj heq).1

/-- A line is one statement. -/
theorem statements_line {line : Line} {fuel : ℕ} (hl : line.WellFormed repr float)
    (ht : line.text repr = .ok text) : statements float (fuel + 1) doc (text ++ '\n' :: rest) =
      line.apply doc >>= fun doc ↦ statements float fuel doc rest := by
  cases line with
  | blank =>
    obtain rfl := Except.ok.inj ht
    rfl
  | comment t =>
    obtain rfl := Except.ok.inj ht
    obtain ⟨hhead, hprintable⟩ := hl
    cases t with
    | nil => cases hhead
    | cons c cs =>
      obtain rfl := Option.some.inj hhead
      change (lineEnd ('#' :: (cs ++ '\n' :: rest)) >>= fun rest ↦ Except.ok (doc, rest)) >>=
        (fun r ↦ statements float fuel r.1 r.2) = _
      rw [lineEnd_comment (List.forall_mem_cons.mp hprintable).2]
      rfl
  | entry name v =>
    obtain ⟨t, hv, rfl⟩ := map_eq_ok.mp ht
    obtain ⟨hname, hfloat⟩ := hl
    obtain ⟨c, cs, hcs⟩ := List.exists_cons_of_ne_nil hname.1
    have hc : isBareKey c = true := hname.2 c (by simp [hcs])
    have happend : name.toList ++ ' ' :: '=' :: ' ' :: t ++ '\n' :: rest =
        name.toList ++ ' ' :: '=' :: ' ' :: (t ++ '\n' :: rest) := by simp
    have hpair : statement float doc (name.toList ++ ' ' :: '=' :: ' ' :: (t ++ '\n' :: rest)) =
        ((Line.entry name v).apply doc).map (fun doc ↦ (doc, rest)) := by
      have hentry : pair float doc (name.toList ++ ' ' :: '=' :: ' ' :: (t ++ '\n' :: rest)) =
          ((Line.entry name v).apply doc).map (fun doc ↦ (doc, '\n' :: rest)) :=
        pair_entry hname hv hfloat
      rw [hcs, List.cons_append] at hentry ⊢
      rw [statement_pair (ne_of_isBareKey hc (by decide)) (ne_of_isBareKey hc (by decide)), hentry]
      cases (Line.entry name v).apply doc <;> rfl
    rw [happend, hcs, List.cons_append, statements_cons (not_blank_of_isBareKey hc)
      (ne_of_isBareKey hc (by decide)), ← List.cons_append, ← hcs, hpair]
    cases (Line.entry name v).apply doc <;> rfl
  | table name =>
    obtain rfl := Except.ok.inj ht
    have happend : '[' :: (name.toList ++ [']']) ++ '\n' :: rest =
        '[' :: (name.toList ++ ']' :: '\n' :: rest) := by simp
    rw [happend, statements_cons (by decide) (by decide)]
    change (header doc (name.toList ++ ']' :: '\n' :: rest) >>= fun r ↦
      lineEnd (skipBlank r.2) >>= fun rest ↦ Except.ok (r.1, rest)) >>=
        (fun r ↦ statements float fuel r.1 r.2) = declare doc name >>= _
    rw [header_bare hl]
    cases declare doc name <;> rfl

theorem statements_lines {lines : List Line} {texts : List (List Char)} {fuel : ℕ}
    (hlines : ∀ line ∈ lines, line.WellFormed repr float)
    (ht : lines.mapM (Line.text repr) = .ok texts) (hfuel : lines.length < fuel) :
    statements float fuel doc (texts.flatMap (· ++ ['\n'])) = lines.foldlM Line.apply doc := by
  obtain ⟨fuel, rfl⟩ := Nat.exists_eq_add_of_lt hfuel
  have hall := mapM_eq_ok.mp ht
  clear ht hfuel
  induction hall generalizing doc with
  | nil => rfl
  | @cons line text lines texts hline _ ih =>
    obtain ⟨hwell, hlines⟩ := List.forall_mem_cons.mp hlines
    have hfuel : (line :: lines).length + fuel + 1 = lines.length + fuel + 1 + 1 := by
      rw [List.length_cons]
      omega
    have happend : (text :: texts).flatMap (· ++ ['\n']) =
        text ++ '\n' :: texts.flatMap (· ++ ['\n']) := by simp
    rw [hfuel, happend, statements_line hwell hline, List.foldlM_cons]
    cases line.apply doc with
    | ok doc' => exact ih hlines
    | error e => rfl

end Statements

section Documents

variable {repr : ℚ → List Char} {float : List Char → PyFloat} {text : List Char}
  {lines : List Line}

theorem intercalate_newline (texts : List (List Char)) :
    ['\n'].intercalate (texts ++ [[]]) = texts.flatMap (· ++ ['\n']) := by
  induction texts with
  | nil => rfl
  | cons t texts ih =>
    rw [List.flatMap_cons, ← ih]
    cases texts <;> simp [List.intercalate]

theorem unixLines_eq (h : '\r' ∉ text) : unixLines text = text := by
  induction text with
  | nil => rfl
  | cons c cs ih =>
    rw [List.mem_cons, not_or] at h
    rw [unixLines, ih h.2]
    intro cs' hc
    exact absurd hc.symm h.1

/-- The lines of the text of a document whose last line is blank. -/
theorem render_eq (h : render repr (lines ++ [.blank]) = .ok text) :
    ∃ texts, lines.mapM (Line.text repr) = .ok texts ∧ text = texts.flatMap (· ++ ['\n']) := by
  obtain ⟨texts', ht, rfl⟩ := map_eq_ok.mp h
  rw [List.mapM_append] at ht
  obtain ⟨texts, htexts, ht⟩ := do_eq_ok.mp ht
  obtain rfl : texts ++ [[]] = texts' := Except.ok.inj ht
  exact ⟨texts, htexts, intercalate_newline texts⟩

theorem printable_render (hlines : ∀ line ∈ lines, line.WellFormed repr float)
    (h : render repr (lines ++ [.blank]) = .ok text) :
    ∀ c ∈ text, Printable c ∨ c = '\n' := by
  obtain ⟨texts, ht, rfl⟩ := render_eq h
  intro c hc
  obtain ⟨t, hmem, hc⟩ := List.mem_flatMap.mp hc
  obtain ⟨line, hline, htext⟩ := exists_source_of_mapM ht hmem
  rcases List.mem_append.mp hc with hc | hc
  · exact .inl (Line.printable (hlines line hline) htext c hc)
  · exact .inr (List.mem_singleton.mp hc)

/-- What is written line by line is read line by line. -/
theorem loads_render (hlines : ∀ line ∈ lines, line.WellFormed repr float)
    (h : render repr (lines ++ [.blank]) = .ok text) :
    loads float text = lines.foldlM Line.apply {} := by
  have hreturn : '\r' ∉ text := by
    intro hmem
    rcases printable_render hlines h _ hmem with hp | hn
    · revert hp
      decide
    · cases hn
  obtain ⟨texts, ht, rfl⟩ := render_eq h
  have hlength : lines.length ≤ (texts.flatMap (· ++ ['\n'])).length := by
    have hforall := (mapM_eq_ok.mp ht).length_eq
    rw [hforall, List.length_flatMap]
    refine (List.card_nsmul_le_sum _ 1 ?_).trans_eq' ?_
    · intro n hn
      obtain ⟨t, -, rfl⟩ := List.mem_map.mp hn
      simp
    · simp
  rw [loads, unixLines_eq hreturn]
  exact statements_lines hlines ht (by omega)

/-- A document can be written when each of its lines can. -/
theorem exists_render {lines : List Line} :
    (∃ text, render repr lines = .ok text) ↔ ∀ line ∈ lines, ∃ text, line.text repr = .ok text := by
  constructor
  · rintro ⟨text, h⟩ line hline
    obtain ⟨texts, ht, -⟩ := map_eq_ok.mp h
    obtain ⟨t, -, htext⟩ := exists_of_mapM ht hline
    exact ⟨t, htext⟩
  · intro h
    suffices ∃ texts, lines.mapM (Line.text repr) = .ok texts by
      obtain ⟨texts, ht⟩ := this
      exact ⟨_, map_eq_ok.mpr ⟨texts, ht, rfl⟩⟩
    induction lines with
    | nil => exact ⟨[], rfl⟩
    | cons line lines ih =>
      obtain ⟨⟨t, ht⟩, hlines⟩ := List.forall_mem_cons.mp h
      obtain ⟨texts, htexts⟩ := ih hlines
      refine ⟨t :: texts, ?_⟩
      rw [List.mapM_cons, ht, htexts]
      rfl

/-- Only an integer that is too long cannot be written. -/
theorem exists_dumps {v : Json.Value} (hv : ∀ n, v = .number n → n < 10 ^ maxDigits) :
    ∃ text, v.dumps repr = .ok text := by
  cases v with
  | number n =>
    have hn : ¬maxDigits < (Nat.toDigits 10 n).length := by
      rw [not_lt, Nat.length_toDigits_le_iff (by decide) (by decide)]
      exact hv n rfl
    exact ⟨_, if_neg hn⟩
  | _ => exact ⟨_, rfl⟩

theorem not_dumps {n : ℕ} (hn : ¬n < 10 ^ maxDigits) :
    (Json.Value.number n).dumps repr ≠ .ok text := by
  rw [Json.Value.dumps, ← Nat.length_toDigits_le_iff (b := 10) (by decide) (by decide), not_le] at *
  rw [if_pos hn]
  exact fun h ↦ by cases h

end Documents

section Sections

abbrev Entries := List (String × Json.Value)

/-- The lines of a table, with a blank line behind them. -/
def sectionLines (s : String × Entries) : List Line :=
  .table s.1 :: (s.2.map (fun e ↦ .entry e.1 e.2) ++ [.blank])

/-- The entries of a table as they are read. -/
def entriesRead (entries : Entries) : List (String × Value) :=
  entries.map (fun e ↦ (e.1, ofJson e.2))

@[simp] theorem entriesRead_keys (entries : Entries) :
    (entriesRead entries).map Prod.fst = entries.map Prod.fst := by
  simp [entriesRead, Function.comp_def]

def EntriesReadable (entries : Entries) : Prop := ∀ e ∈ entries, Readable e.2

instance : DecidablePred EntriesReadable := fun entries ↦
  inferInstanceAs (Decidable (∀ e ∈ entries, Readable e.2))

def SectionsReadable (sections : List (String × Entries)) : Prop :=
  ∀ s ∈ sections, EntriesReadable s.2

instance : DecidablePred SectionsReadable := fun sections ↦
  inferInstanceAs (Decidable (∀ s ∈ sections, EntriesReadable s.2))

theorem entriesReadable_cons {e : String × Json.Value} {entries : Entries} :
    EntriesReadable (e :: entries) ↔ Readable e.2 ∧ EntriesReadable entries :=
  List.forall_mem_cons

theorem sectionsReadable_cons {s : String × Entries} {sections : List (String × Entries)} :
    SectionsReadable (s :: sections) ↔ EntriesReadable s.2 ∧ SectionsReadable sections :=
  List.forall_mem_cons

theorem foldlM_entries {entries : Entries} {name : String} {root old : List (String × Value)}
    {tables : List (String × List (String × Value))} (hn : (entries.map Prod.fst).Nodup)
    (hold : ∀ key ∈ entries.map Prod.fst, key ∉ old.map Prod.fst) :
    (entries.map (fun e ↦ Line.entry e.1 e.2)).foldlM Line.apply ⟨root, (name, old) :: tables⟩ =
      if EntriesReadable entries then
        .ok ⟨root, (name, old ++ entriesRead entries) :: tables⟩
      else .error notScalar := by
  induction entries generalizing old with
  | nil =>
    have hall : EntriesReadable [] := List.forall_mem_nil _
    rw [if_pos hall, entriesRead, List.map_nil, List.map_nil, List.append_nil]
    rfl
  | cons e entries ih =>
    obtain ⟨hfresh, hn⟩ := List.nodup_cons.mp hn
    obtain ⟨hkey, hold⟩ := List.forall_mem_cons.mp hold
    have hassign : assign ⟨root, (name, old) :: tables⟩ e.1 (ofJson e.2) =
        .ok ⟨root, (name, old ++ [(e.1, ofJson e.2)]) :: tables⟩ := if_neg hkey
    have hold' : ∀ key ∈ entries.map Prod.fst, key ∉ (old ++ [(e.1, ofJson e.2)]).map Prod.fst := by
      intro key hmem
      rw [List.map_append, List.mem_append, List.map_singleton, List.mem_singleton, not_or]
      refine ⟨hold key hmem, ?_⟩
      rintro rfl
      exact hfresh hmem
    rw [List.map_cons, List.foldlM_cons, Line.apply]
    by_cases hreadable : Readable e.2
    · rw [if_pos hreadable, hassign]
      refine (ih hn hold').trans ?_
      rw [List.append_assoc]
      by_cases hall : EntriesReadable entries
      · rw [if_pos hall, if_pos (entriesReadable_cons.mpr ⟨hreadable, hall⟩)]
        rfl
      · rw [if_neg hall, if_neg (fun h ↦ hall (entriesReadable_cons.mp h).2)]
    · rw [if_neg hreadable, if_neg (fun h ↦ hreadable (entriesReadable_cons.mp h).1)]
      rfl

theorem foldlM_section {s : String × Entries} {doc : Document} (hn : (s.2.map Prod.fst).Nodup)
    (htables : s.1 ∉ doc.tables.map Prod.fst) (hroot : s.1 ∉ doc.root.map Prod.fst) :
    (sectionLines s).foldlM Line.apply doc =
      if EntriesReadable s.2 then
        .ok { doc with tables := (s.1, entriesRead s.2) :: doc.tables }
      else .error notScalar := by
  have hdeclare : declare doc s.1 = .ok { doc with tables := (s.1, []) :: doc.tables } := by
    rw [declare, if_neg htables, if_neg hroot]
  have hblank : ∀ x : Except String Document,
      (x >>= fun doc ↦ [Line.blank].foldlM Line.apply doc) = x := by
    intro x
    cases x <;> rfl
  rw [sectionLines, List.foldlM_cons, Line.apply, hdeclare]
  refine (List.foldlM_append ..).trans ((hblank _).trans ?_)
  exact (foldlM_entries hn (fun _ _ ↦ List.not_mem_nil)).trans (by rw [List.nil_append])

/-- The tables of a document are read one by one, unless one of their values
cannot be read. -/
theorem foldlM_sections {sections : List (String × Entries)} {doc : Document}
    (hn : (sections.map Prod.fst).Nodup) (hkeys : ∀ s ∈ sections, (s.2.map Prod.fst).Nodup)
    (hfresh : ∀ s ∈ sections, s.1 ∉ doc.tables.map Prod.fst ∧ s.1 ∉ doc.root.map Prod.fst) :
    (sections.flatMap sectionLines).foldlM Line.apply doc =
      if SectionsReadable sections then
        .ok { doc with tables :=
          (sections.map (fun s ↦ (s.1, entriesRead s.2))).reverse ++ doc.tables }
      else .error notScalar := by
  induction sections generalizing doc with
  | nil =>
    have hall : SectionsReadable [] := List.forall_mem_nil _
    rw [if_pos hall]
    rfl
  | cons s sections ih =>
    obtain ⟨hname, hn⟩ := List.nodup_cons.mp hn
    obtain ⟨hentries, hkeys⟩ := List.forall_mem_cons.mp hkeys
    obtain ⟨⟨htables, hroot⟩, hfresh⟩ := List.forall_mem_cons.mp hfresh
    have hfresh' : ∀ s' ∈ sections, s'.1 ∉ ((s.1, entriesRead s.2) :: doc.tables).map Prod.fst ∧
        s'.1 ∉ doc.root.map Prod.fst := by
      intro s' hs'
      refine ⟨?_, (hfresh s' hs').2⟩
      rw [List.map_cons, List.mem_cons, not_or]
      refine ⟨?_, (hfresh s' hs').1⟩
      intro heq
      exact hname (List.mem_map.mpr ⟨s', hs', heq⟩)
    rw [List.flatMap_cons, List.foldlM_append, foldlM_section hentries htables hroot]
    by_cases hreadable : EntriesReadable s.2
    · rw [if_pos hreadable]
      refine (ih hn hkeys hfresh').trans ?_
      by_cases hall : SectionsReadable sections
      · rw [if_pos hall, if_pos (sectionsReadable_cons.mpr ⟨hreadable, hall⟩), List.map_cons,
          List.reverse_cons, List.append_assoc]
        rfl
      · rw [if_neg hall, if_neg (fun h ↦ hall (sectionsReadable_cons.mp h).2)]
    · rw [if_neg hreadable, if_neg (fun h ↦ hreadable (sectionsReadable_cons.mp h).1)]
      rfl

end Sections

end NoreplyGateway.Toml
