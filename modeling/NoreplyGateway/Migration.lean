import NoreplyGateway.Assoc
import NoreplyGateway.Config
import NoreplyGateway.JavaProperties

namespace NoreplyGateway.Migration

open JavaProperties

/-- Where `str.splitlines` breaks a text of ISO-8859-1. -/
def isLineBreak (c : ℕ) : Bool := c ∈ [10, 11, 12, 13, 28, 29, 30, 133]

def isHexDigit (c : ℕ) : Bool :=
  (48 ≤ c ∧ c ≤ 57) ∨ (97 ≤ c ∧ c ≤ 102) ∨ (65 ≤ c ∧ c ≤ 70)

/-- `int(text, 16)` of four digits. -/
def int16 (digits : Text) : ℕ :=
  digits.foldl (fun n c ↦ 16 * n + if c ≤ 57 then c - 48 else if c ≤ 70 then c - 55 else c - 87) 0

/-- What the substitution makes of one character behind a backslash. -/
def replace (c : ℕ) : Except String ℕ :=
  if c = 117 then .error "invalid literal for int() with base 16: ''"
  else .ok (if c = 116 then 9 else if c = 114 then 13 else if c = 110 then 10
    else if c = 102 then 12 else c)

/-- `_unescape`. A backslash before a line feed does not match. -/
def unescape : Text → Except String Text
  | [] => .ok []
  | 92 :: 117 :: x :: y :: z :: w :: rest =>
    if [x, y, z, w].all isHexDigit then (unescape rest).map (int16 [x, y, z, w] :: ·)
    else (replace 117).bind fun r ↦ (unescape (x :: y :: z :: w :: rest)).map (r :: ·)
  | 92 :: c :: rest =>
    if c = 10 then (unescape rest).map (92 :: c :: ·)
    else (replace c).bind fun r ↦ (unescape rest).map (r :: ·)
  | c :: rest => (unescape rest).map (c :: ·)

/-- The loop over the characters of a line: the index of the first separator that
is not escaped. -/
def keyIndex : Bool → Text → ℕ
  | _, [] => 0
  | true, _ :: rest => keyIndex false rest + 1
  | false, c :: rest =>
    if c = 92 then keyIndex true rest + 1
    else if c ∈ [61, 58, 9, 32, 12] then 0
    else keyIndex false rest + 1

/-- `lstrip` of blanks. -/
def lstrip (text : Text) : Text := text.dropWhile (· ∈ [32, 9, 12])

abbrev Properties := List (Text × Text)

def set (result : Properties) (key v : Text) : Properties :=
  if (result.lookup key).isSome then result.map fun (k, old) ↦ (k, if k = key then v else old)
  else result ++ [(key, v)]

/-- A line that is not blank and not a comment. -/
def readProperty (result : Properties) (line : Text) : Except String Properties :=
  let index := keyIndex false line
  let key := line.take index
  let rest := lstrip (line.drop index)
  let rest := match rest with
    | c :: tail => if c = 61 ∨ c = 58 then lstrip tail else rest
    | [] => rest
  (unescape rest).bind fun v ↦ (unescape key).map fun key ↦ set result key v

/-- The loop of `read_properties` over the physical lines, with its last check. -/
def readLines (result : Properties) (continuation : Text) : List Text → Except String Properties
  | [] =>
    if continuation ≠ [] then .error "Incomplete continued Java property" else .ok result
  | physical :: rest =>
    let line := continuation ++ lstrip physical
    let trailing := line.length - (line.reverse.dropWhile (· = 92)).length
    if trailing % 2 ≠ 0 then readLines result line.dropLast rest
    else if line = [] ∨ line.head?.any (· ∈ [35, 33]) then readLines result [] rest
    else match readProperty result line with
      | .error message => .error message
      | .ok result => readLines result [] rest

def decodeLatin (content : Octets) : Text := content.map UInt8.toNat

def readProperties (content : Octets) : Except String Properties :=
  readLines [] [] (pieces isLineBreak (decodeLatin content))

section Unescape

theorem hexDigit_eq (c : ℕ) : hexDigit c =
    if isHexDigit c then some (if c ≤ 57 then c - 48 else if c ≤ 70 then c - 55 else c - 87)
    else none := by
  simp only [hexDigit, isHexDigit, decide_eq_true_eq]
  split_ifs <;> first | rfl | omega

theorem hexadecimal_eq (x y z w : ℕ) : hexadecimal [x, y, z, w] =
    if [x, y, z, w].all isHexDigit then some (int16 [x, y, z, w]) else none := by
  cases hx : isHexDigit x <;> cases hy : isHexDigit y <;> cases hz : isHexDigit z <;>
    cases hw : isHexDigit w <;>
    simp [hexadecimal, List.mapM_cons, hexDigit_eq, hx, hy, hz, hw, int16]

theorem toOption_map {ε α β : Type} (x : Except ε α) (f : α → β) :
    (x.map f).toOption = x.toOption.map f := by
  cases x <;> rfl

/-- The substitution decodes escapes as the format has them. -/
theorem unescape_eq_decode (text : Text) (h : 10 ∉ text) :
    (unescape text).toOption = decode text := by
  induction text using unescape.induct with
  | case1 => rfl
  | case2 x y z w rest hhex ih =>
    have hrest : 10 ∉ rest := fun hmem ↦ h (by simp [hmem])
    rw [unescape, if_pos hhex, decode, hexadecimal_eq, if_pos hhex, toOption_map, ih hrest]
    rfl
  | case3 x y z w rest hhex ih =>
    rw [unescape, if_neg hhex, decode, hexadecimal_eq, if_neg hhex]
    rfl
  | case4 rest hne ih => simp at h
  | case5 c rest hne hc ih =>
    have hrest : 10 ∉ rest := fun hmem ↦ h (by simp [hmem])
    rw [unescape, if_neg hc]
    · by_cases hu : c = 117
      · subst hu
        rw [decode]
        · rfl
        · exact hne
      · rw [decode, if_neg hu]
        · simp only [replace, if_neg hu, Except.bind, toOption_map, ih hrest]
          rfl
        · exact hne
    · exact hne
  | case6 c rest hne hne' ih =>
    have hrest : 10 ∉ rest := fun hmem ↦ h (by simp [hmem])
    rw [unescape, decode, toOption_map, ih hrest]
    all_goals assumption

end Unescape

section Lines

variable {result : Properties} {line rest : Text} {key : Text}

theorem mem_blanks (c : ℕ) : decide (c ∈ [32, 9, 12]) = isBlank c := by
  simp [isBlank]

theorem lstrip_eq (text : Text) : lstrip text = text.dropWhile isBlank := by
  unfold lstrip
  simp only [mem_blanks]

theorem keyIndex_eq (line : Text) : keyIndex false line = keyLength line := by
  induction line using keyLength.induct with
  | case1 => rfl
  | case2 c rest ih => rw [keyIndex, if_pos rfl, keyIndex, keyLength, ih]
  | case3 c rest hne hsep =>
    have hc : c ∈ [61, 58, 9, 32, 12] := by
      simp only [isSeparator, isBlank, decide_eq_true_eq] at hsep
      simp only [List.mem_cons]
      tauto
    have h92 : c ≠ 92 := by
      rintro rfl
      simp at hc
    rw [keyIndex, if_neg h92, if_pos hc, keyLength, if_pos hsep]
    exact hne
  | case4 c rest hne hsep ih =>
    have hc : c ∉ [61, 58, 9, 32, 12] := by
      simp only [isSeparator, isBlank, decide_eq_true_eq] at hsep
      simp only [List.mem_cons]
      tauto
    rw [keyLength, if_neg hsep]
    · by_cases h92 : c = 92
      · cases rest with
        | nil => rw [keyIndex, if_pos h92, keyIndex, keyLength]
        | cons x rest => exact (hne x rest h92 rfl).elim
      · rw [keyIndex, if_neg h92, if_neg hc, ih]
    · exact hne

/-- The parity of the run of backslashes at the end. -/
theorem trailing_eq (line : Text) :
    (line.length - (line.reverse.dropWhile (· = 92)).length) % 2 ≠ 0 ↔ continued line = true := by
  have hlength := congrArg List.length
    (List.takeWhile_append_dropWhile (p := (· = 92)) (l := line.reverse))
  rw [List.length_append, List.length_reverse] at hlength
  rw [continued, decide_eq_true_eq]
  omega

theorem lookup_set (result : Properties) (key v : Text) (m : Text → Option Text)
    (h : ∀ k, result.lookup k = m k) (k : Text) :
    (set result key v).lookup k = Function.update m key (some v) k := by
  unfold set
  split_ifs with hsome
  · rw [Assoc.lookup_map_values fun k old ↦ if k = key then v else old]
    by_cases hk : k = key
    · subst hk
      obtain ⟨old, hold⟩ := Option.isSome_iff_exists.mp hsome
      simp [hold]
    · rw [Function.update_of_ne hk, ← h k]
      simp [hk]
  · rw [Option.not_isSome_iff_eq_none] at hsome
    rw [List.lookup_append]
    by_cases hk : k = key
    · subst hk
      simp [hsome]
    · rw [Function.update_of_ne hk, ← h k, List.lookup_cons, beq_false_of_ne hk]
      simp

theorem comment_eq (line : Text) : line.head?.any (· ∈ [35, 33]) = isComment line := by
  unfold isComment
  cases line.head? with
  | none => rfl
  | some c => simp [isMark]

theorem isComment_append {begun : Text} (h : begun ≠ []) :
    isComment (begun ++ line) = isComment begun := by
  obtain ⟨c, begun, rfl⟩ := List.exists_cons_of_ne_nil h
  rfl

theorem readLines_cons (result : Properties) (continuation physical : Text) (rest : List Text) :
    readLines result continuation (physical :: rest) =
      let line := continuation ++ physical.dropWhile isBlank
      if continued line then readLines result line.dropLast rest
      else if line = [] ∨ isComment line then readLines result [] rest
      else (readProperty result line).bind fun result ↦ readLines result [] rest := by
  rw [readLines, lstrip_eq]
  simp only [trailing_eq, comment_eq]
  split_ifs
  · rfl
  · rfl
  · cases readProperty result (continuation ++ physical.dropWhile isBlank) <;> rfl

theorem isComment_dropLast (h : isComment line = false) : isComment line.dropLast = false := by
  match line with
  | [] => rfl
  | [_] => rfl
  | _ :: _ :: _ => exact h

/-- With every comment closed the loop reads the logical lines. -/
theorem readLines_eq {unfinished : Option Text} {lines : List Text}
    (hclosed : ∀ line, .comment line ∈ (scan unfinished lines).1 → continued line = false)
    (hbegun : continued (unfinished.getD []) = false)
    (hmark : isComment (unfinished.getD []) = false) (result : Properties) :
    readLines result (unfinished.getD []) lines =
      ((logical (scan unfinished lines).1).foldlM readProperty result).bind fun result ↦
        if (scan unfinished lines).2.getD [] ≠ [] then .error "Incomplete continued Java property"
        else .ok result := by
  induction lines generalizing unfinished result with
  | nil => rfl
  | cons natural rest ih =>
    have hnew (result : Properties)
        (h : ∀ line, .comment line ∈ (scan none rest).1 → continued line = false) :=
      @ih none h rfl rfl result
    rw [readLines_cons]
    have hscan := scan_cons unfinished natural rest
    generalize unfinished.getD [] = begun at *
    generalize natural.dropWhile isBlank = line at *
    dsimp only at hscan ⊢
    by_cases hblank : begun = [] ∧ line = []
    · obtain ⟨rfl, rfl⟩ := hblank
      rw [if_pos ⟨rfl, rfl⟩] at hscan
      rw [hscan] at hclosed ⊢
      exact hnew result hclosed
    · rw [if_neg hblank] at hscan
      by_cases hcomment : begun = [] ∧ isComment line = true
      · obtain ⟨rfl, hcomment⟩ := hcomment
        rw [if_pos ⟨rfl, hcomment⟩] at hscan
        rw [hscan] at hclosed ⊢
        have hline : continued line = false := hclosed line List.mem_cons_self
        rw [List.nil_append, hline, if_neg Bool.false_ne_true, if_pos (.inr hcomment)]
        exact hnew result fun line hmem ↦ hclosed line (List.mem_cons_of_mem _ hmem)
      · rw [if_neg hcomment] at hscan
        rw [continued_append hbegun]
        by_cases hcontinued : continued line = true
        · rw [if_pos hcontinued] at hscan ⊢
          rw [hscan] at hclosed ⊢
          obtain ⟨hline, hlast⟩ := dropLast_of_continued hcontinued
          have hne : line ≠ [] := by
            rintro rfl
            cases hcontinued
          rw [List.dropLast_append_of_ne_nil hne]
          refine @ih (some (begun ++ line.dropLast)) hclosed ?_ ?_ result
          · exact (continued_append hbegun).trans hlast
          · by_cases hempty : begun = []
            · have hmark' : isComment line = false := by
                simpa [hempty] using hcomment
              subst hempty
              exact isComment_dropLast hmark'
            · exact (isComment_append hempty).trans hmark
        · rw [if_neg hcontinued] at hscan ⊢
          rw [hscan] at hclosed ⊢
          have hproperty : ¬(begun ++ line = [] ∨ isComment (begun ++ line) = true) := by
            rintro (hnil | hmark')
            · exact hblank (List.append_eq_nil_iff.mp hnil)
            · by_cases hempty : begun = []
              · subst hempty
                exact hcomment ⟨rfl, hmark'⟩
              · rw [isComment_append hempty, hmark] at hmark'
                cases hmark'
          rw [if_neg hproperty]
          have hlogical : logical (.property (begun ++ line) :: (scan none rest).1) =
              (begun ++ line) :: logical (scan none rest).1 := rfl
          rw [hlogical, List.foldlM_cons]
          cases hread : readProperty result (begun ++ line) with
          | error message => rfl
          | ok result =>
            exact hnew result fun line hmem ↦ hclosed line (List.mem_cons_of_mem _ hmem)

/-- The dictionary is the map, or both are refused. -/
def Represents : Except String Properties → Option (Text → Option Text) → Prop
  | .ok result, some m => ∀ key, result.lookup key = m key
  | .error _, none => True
  | _, _ => False

theorem readProperty_eq (result : Properties) (line : Text) :
    readProperty result line = (unescape (value (line.drop (keyLength line)))).bind fun v ↦
      (unescape (line.take (keyLength line))).map fun key ↦ set result key v := by
  have hrest (rest : Text) : (match lstrip rest with
      | c :: tail => if c = 61 ∨ c = 58 then lstrip tail else lstrip rest
      | [] => lstrip rest) = value rest := by
    unfold value
    rw [lstrip_eq]
    split
    · next c tail h =>
      rw [h, lstrip_eq]
    · next h => rw [h]
  unfold readProperty
  rw [keyIndex_eq]
  dsimp only
  rw [hrest]

theorem represents_property {m : Text → Option Text} (hm : ∀ key, result.lookup key = m key)
    (h : 10 ∉ line) : Represents (readProperty result line) (assign m line) := by
  have hkey := unescape_eq_decode (line.take (keyLength line))
    fun hmem ↦ h (List.mem_of_mem_take hmem)
  have hvalue := unescape_eq_decode (value (line.drop (keyLength line)))
    fun hmem ↦ h (List.mem_of_mem_drop (mem_of_value hmem))
  rw [readProperty_eq, assign, ← hkey, ← hvalue]
  cases unescape (value (line.drop (keyLength line))) with
  | error => cases unescape (line.take (keyLength line)) <;> trivial
  | ok v =>
    cases unescape (line.take (keyLength line)) with
    | error => trivial
    | ok key => exact lookup_set result key v m hm

theorem represents_lines {lines : List Text} (h : ∀ line ∈ lines, 10 ∉ line)
    (result : Properties) (m : Text → Option Text) (hm : ∀ key, result.lookup key = m key) :
    Represents (lines.foldlM readProperty result) (lines.foldlM assign m) := by
  induction lines generalizing result m with
  | nil => exact hm
  | cons line lines ih =>
    have hline := represents_property hm (h line List.mem_cons_self)
    rw [List.foldlM_cons, List.foldlM_cons]
    cases hread : readProperty result line with
    | error message =>
      rw [hread] at hline
      cases hassign : assign m line with
      | none => trivial
      | some m' =>
        rw [hassign] at hline
        exact hline.elim
    | ok result' =>
      rw [hread] at hline
      cases hassign : assign m line with
      | none =>
        rw [hassign] at hline
        exact hline.elim
      | some m' =>
        rw [hassign] at hline
        exact ih (fun line hmem ↦ h line (List.mem_cons_of_mem _ hmem)) result' m' hline

end Lines

/-- What is read is what the format says, and only a file that is malformed or ends in
an unfinished line is refused. -/
def Conforms (content : Octets) : Prop :=
  match readProperties content with
  | .ok result => ∃ m, load (decodeLatin content) = some m ∧ ∀ key, result.lookup key = m key
  | .error _ => load (decodeLatin content) = none ∨
    (scan none (naturalLines (decodeLatin content))).2.isSome

/-- There are no other line breaks than CR and LF, no comment ends in an odd number of
backslashes, and the file does not end in a continuation of nothing. -/
structure Plain (content : Octets) : Prop where
  breaks : ∀ b ∈ content, b ∉ [11, 12, 28, 29, 30, 133]
  comments : ∀ line, .comment line ∈ (scan none (naturalLines (decodeLatin content))).1 →
    continued line = false
  ending : (scan none (naturalLines (decodeLatin content))).2 ≠ some []

theorem physical_eq_natural {content : Octets}
    (h : ∀ b ∈ content, b ∉ [11, 12, 28, 29, 30, 133]) :
    pieces isLineBreak (decodeLatin content) = naturalLines (decodeLatin content) := by
  refine pieces_congr fun c hc ↦ ?_
  obtain ⟨b, hb, rfl⟩ := List.mem_map.mp hc
  have hb := h b hb
  have hne (k : UInt8) (hk : k ∈ ([11, 12, 28, 29, 30, 133] : Octets)) : b.toNat ≠ k.toNat := by
    intro he
    exact hb (UInt8.toNat_inj.mp he ▸ hk)
  have h₁ := hne 11 (by decide)
  have h₂ := hne 12 (by decide)
  have h₃ := hne 28 (by decide)
  have h₄ := hne 29 (by decide)
  have h₅ := hne 30 (by decide)
  have h₆ := hne 133 (by decide)
  simp only [isLineBreak, isNatural, List.mem_cons, List.not_mem_nil, or_false]
  refine decide_eq_decide.mpr ⟨fun hbreak ↦ ?_, fun hbreak ↦ ?_⟩
  · rcases hbreak with h | h | h | h | h | h | h | h
    · exact .inl h
    · exact absurd h h₁
    · exact absurd h h₂
    · exact .inr h
    · exact absurd h h₃
    · exact absurd h h₄
    · exact absurd h h₅
    · exact absurd h h₆
  · rcases hbreak with h | h
    · exact .inl h
    · exact .inr (.inr (.inr (.inl h)))

theorem readProperties_conforms {content : Octets} (h : Plain content) : Conforms content := by
  have hlines : ∀ line ∈ logical (scan none (naturalLines (decodeLatin content))).1, 10 ∉ line := by
    intro line hline hmem
    obtain ⟨item, hitem, hproperty⟩ := List.mem_filterMap.mp hline
    cases item with
    | comment => cases hproperty
    | property line' =>
      obtain rfl := Option.some.inj hproperty
      obtain hnone | ⟨natural, hnatural, hmem⟩ := mem_of_property hitem hmem
      · cases hnone
      · cases no_break natural hnatural 10 hmem
  have hread := readLines_eq h.comments rfl rfl []
  have hrepresents := represents_lines hlines [] (fun _ ↦ none) fun _ ↦ rfl
  have hcontent : readProperties content = _ :=
    (congrArg (readLines [] []) (physical_eq_natural h.breaks)).trans hread
  unfold Conforms load
  rw [hcontent, List.foldlM_append]
  cases hresult : (logical (scan none (naturalLines (decodeLatin content))).1).foldlM readProperty
    [] with
  | error message =>
    cases hmap : (logical (scan none (naturalLines (decodeLatin content))).1).foldlM assign
      fun _ ↦ none with
    | none => exact .inl rfl
    | some m =>
      rw [hresult, hmap] at hrepresents
      exact hrepresents.elim
  | ok result =>
    cases hmap : (logical (scan none (naturalLines (decodeLatin content))).1).foldlM assign
      fun _ ↦ none with
    | none =>
      rw [hresult, hmap] at hrepresents
      exact hrepresents.elim
    | some m =>
      rw [hresult, hmap] at hrepresents
      cases hending : (scan none (naturalLines (decodeLatin content))).2 with
      | none => exact ⟨m, rfl, hrepresents⟩
      | some line =>
        have hne : line ≠ [] := by
          rintro rfl
          exact h.ending hending
        simp only [Except.bind, Option.getD_some, ne_eq, hne, not_false_eq_true, if_true]
        exact .inr rfl

/-- The line after a comment that ends in an odd number of backslashes is lost. -/
theorem readLines_comment {comment line : Text} (hc : isComment (comment.dropWhile isBlank) = true)
    (hcontinued : continued (comment.dropWhile isBlank) = true)
    (hline : continued (line.dropWhile isBlank) = false) (result : Properties) (rest : List Text) :
    readLines result [] (comment :: line :: rest) = readLines result [] rest := by
  obtain ⟨heq, hlast⟩ := dropLast_of_continued hcontinued
  rw [readLines_cons]
  generalize comment.dropWhile isBlank = first at *
  have hne : first.dropLast ≠ [] := by
    intro hnil
    rw [heq, hnil] at hc
    cases hc
  have hmark : isComment (first.dropLast ++ line.dropWhile isBlank) = true := by
    have hlast : isComment (first.dropLast ++ [92]) = isComment first.dropLast :=
      isComment_append hne
    rw [isComment_append hne, ← hlast, ← heq]
    exact hc
  dsimp only
  rw [List.nil_append, if_pos hcontinued, readLines_cons]
  dsimp only
  rw [continued_append hlast, hline, if_neg Bool.false_ne_true, if_pos (.inr hmark)]

theorem readProperties_conforms_sample : ∃ result,
    readProperties (ascii "# comment\nx\\:key : hello\\nworld\nlong=one\\\n  two\nunicode=\\u0041\n") =
      .ok result ∧ result = [(decodeLatin (ascii "x:key"), decodeLatin (ascii "hello\nworld")),
        (decodeLatin (ascii "long"), decodeLatin (ascii "onetwo")),
        (decodeLatin (ascii "unicode"), decodeLatin (ascii "A"))] ∧
    Conforms (ascii "# comment\nx\\:key : hello\\nworld\nlong=one\\\n  two\nunicode=\\u0041\n") := by
  refine ⟨_, rfl, by decide +kernel, readProperties_conforms ⟨by decide +kernel, ?_, by decide +kernel⟩⟩
  have hitems : (scan none (naturalLines (decodeLatin (ascii
      "# comment\nx\\:key : hello\\nworld\nlong=one\\\n  two\nunicode=\\u0041\n")))).1.all
        (fun item ↦ match item with
          | .comment line => !continued line
          | .property _ => true) = true := by decide +kernel
  intro line hline
  simpa using List.all_eq_true.mp hitems _ hline

/-- A commented path, and a next line character inside a value. -/
theorem readProperties_diverges :
    ¬Conforms (ascii "# was C:\\\nname=value\n") ∧
    ¬Conforms (ascii "name=a" ++ [133] ++ ascii "b\n") ∧ ¬Conforms (ascii "\\") := by
  have hdiffers {content : Octets} {result : Properties} (key v : Text)
      (hread : readProperties content = .ok result)
      (hload : (load (decodeLatin content)).map (· key) = some (some v))
      (hne : result.lookup key ≠ some v) : ¬Conforms content := by
    intro h
    rw [Conforms, hread] at h
    obtain ⟨m, hm, hkey⟩ := h
    rw [hm] at hload
    exact hne ((hkey key).trans (Option.some.inj hload))
  refine ⟨?_, ?_, ?_⟩
  · exact hdiffers (decodeLatin (ascii "name")) (decodeLatin (ascii "value")) rfl
      (by decide +kernel) (by decide +kernel)
  · exact hdiffers (decodeLatin (ascii "name")) [97, 133, 98] rfl
      (by decide +kernel) (by decide +kernel)
  · exact hdiffers [] [] rfl (by decide +kernel) (by decide +kernel)

end NoreplyGateway.Migration
