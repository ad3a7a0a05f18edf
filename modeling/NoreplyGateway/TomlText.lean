import NoreplyGateway.Json
import NoreplyGateway.Outcome
import NoreplyGateway.Toml

/-! Lines of a TOML document whose values are written as JSON. -/

namespace NoreplyGateway

namespace Json

/-- What `json.dumps` is given: text, an integer that is not negative, a float, a
flag, or a list of texts. -/
inductive Value
  | text (s : String)
  | number (n : ℕ)
  | rate (q : ℚ)
  | flag (b : Bool)
  | texts (l : List String)

/-- `json.dumps`, with the text of a float. -/
def Value.dumps (repr : ℚ → List Char) : Value → Except String (List Char)
  | .text s => .ok (dumpString s)
  | .number n =>
    if Toml.maxDigits < (Nat.toDigits 10 n).length then
      .error "Exceeds the limit (4300 digits) for integer string conversion"
    else .ok (Nat.toDigits 10 n)
  | .rate q => .ok (repr q)
  | .flag b => .ok (if b then "true" else "false").toList
  | .texts l => .ok (Json.dumps l).toList

end Json

namespace Toml

/-- The error for the escape of a surrogate. -/
def notScalar : String := "Escaped character is not a Unicode scalar value"

/-- The characters of the basic plane. -/
def InPlane (c : Char) : Prop := c.toNat < 65536

instance : DecidablePred InPlane := fun c ↦ inferInstanceAs (Decidable (c.toNat < 65536))

def Basic (s : String) : Prop := ∀ c ∈ s.toList, InPlane c

instance : DecidablePred Basic := fun s ↦
  decidable_of_iff (s.toList.all (fun c ↦ decide (InPlane c)) = true) (by simp [Basic])

section Strings

open Json

variable {rest : List Char} {c : Char} {n : ℕ}

theorem hexValue_digitChar (h : n < 16) : hexValue (Nat.digitChar n) = some n := by
  have hall : ∀ m < 16, hexValue (Nat.digitChar m) = some m := by decide
  exact hall n h

theorem basicString_hex (left value : ℕ) (h : n < 16) : basicString (.hex left value)
    (Nat.digitChar n :: rest) =
      if 1 < left then basicString (.hex (left - 1) (16 * value + n)) rest
      else if isScalar (16 * value + n) then
        prepend (Char.ofNat (16 * value + n)) (basicString .plain rest)
      else .error notScalar := by
  rw [basicString, hexValue_digitChar h]
  rfl

theorem basicString_unicodeEscape (h : n < 65536) :
    basicString .plain (unicodeEscape n ++ rest) =
      if isScalar n then prepend (Char.ofNat n) (basicString .plain rest)
      else .error notScalar := by
  have hdigits : hexDigits 4 n = [Nat.digitChar (n / 4096), Nat.digitChar (n / 256 % 16),
      Nat.digitChar (n / 16 % 16), Nat.digitChar (n % 16)] := by
    simp only [hexDigits, List.nil_append, List.cons_append, Nat.div_div_eq_div_mul]
    rw [Nat.mod_eq_of_lt (show n / 4096 < 16 by omega)]
  have hvalue : 16 * (16 * (16 * (16 * 0 + n / 4096) + n / 256 % 16) + n / 16 % 16) + n % 16 = n := by
    omega
  have hu : basicString .plain (unicodeEscape n ++ rest) =
      basicString (.hex 4 0) (hexDigits 4 n ++ rest) := rfl
  rw [hu, hdigits]
  simp only [List.cons_append, List.nil_append]
  rw [basicString_hex _ _ (by omega), if_pos (by decide), basicString_hex _ _ (by omega),
    if_pos (by decide), basicString_hex _ _ (by omega), if_pos (by decide),
    basicString_hex _ _ (by omega), if_neg (by decide), hvalue]

theorem isScalar_toNat (c : Char) : isScalar c.toNat = true := by
  have hvalid := c.valid
  simp only [UInt32.isValidChar, Nat.isValidChar] at hvalid
  have hnat : c.val.toNat = c.toNat := rfl
  simp only [isScalar, decide_eq_true_eq]
  omega

theorem eq_ofNat {k : ℕ} (h : c.toNat = k) : c = Char.ofNat k := by
  rw [← h, Char.ofNat_toNat]

theorem basicString_escape (c : Char) (rest : List Char) :
    basicString .plain (escape c ++ rest) =
      if InPlane c then prepend c (basicString .plain rest) else .error notScalar := by
  by_cases hquote : c.toNat = 34
  · obtain rfl := eq_ofNat hquote
    rfl
  by_cases hbackslash : c.toNat = 92
  · obtain rfl := eq_ofNat hbackslash
    rfl
  by_cases hnewline : c.toNat = 10
  · obtain rfl := eq_ofNat hnewline
    rfl
  by_cases hreturn : c.toNat = 13
  · obtain rfl := eq_ofNat hreturn
    rfl
  by_cases htab : c.toNat = 9
  · obtain rfl := eq_ofNat htab
    rfl
  by_cases hfeed : c.toNat = 12
  · obtain rfl := eq_ofNat hfeed
    rfl
  by_cases hback : c.toNat = 8
  · obtain rfl := eq_ofNat hback
    rfl
  rw [escape]
  simp only [hquote, hbackslash, hnewline, hreturn, htab, hfeed, hback, or_self, if_false]
  by_cases hprintable : 32 ≤ c.toNat ∧ c.toNat ≤ 126
  · have hplane : InPlane c := by
      unfold InPlane
      omega
    rw [if_pos hprintable, if_pos hplane]
    have hq : c ≠ quote := fun h ↦ hquote (by rw [h]; rfl)
    have hb : c ≠ backslash := fun h ↦ hbackslash (by rw [h]; rfl)
    have hlegal : isIllegal c = false := by
      simp only [isIllegal, decide_eq_false_iff_not, not_and]
      omega
    simp only [List.singleton_append, basicString, hq, hb, hlegal, if_false, Bool.false_eq_true]
  · rw [if_neg hprintable]
    by_cases hplane : c.toNat < 65536
    · have hin : InPlane c := hplane
      rw [if_pos hplane, if_pos hin, basicString_unicodeEscape hplane, if_pos (isScalar_toNat c),
        Char.ofNat_toNat]
    · have hlt : c.toNat < 1114112 := by
        have hscalar := isScalar_toNat c
        simp only [isScalar, decide_eq_true_eq] at hscalar
        omega
      have hsurrogate : ¬isScalar (55296 + (c.toNat - 65536) / 1024) = true := by
        simp only [isScalar, decide_eq_true_eq]
        omega
      have hout : ¬InPlane c := hplane
      rw [if_neg hplane, if_neg hout, List.append_assoc, basicString_unicodeEscape (by omega),
        if_neg hsurrogate]

theorem basicString_body (s : List Char) (rest : List Char) :
    basicString .plain (s.flatMap escape ++ quote :: rest) =
      if ∀ c ∈ s, InPlane c then .ok (s, rest) else .error notScalar := by
  induction s with
  | nil => simp [basicString]
  | cons c s ih =>
    rw [List.flatMap_cons, List.append_assoc, basicString_escape, ih]
    by_cases hc : InPlane c
    · by_cases hs : ∀ d ∈ s, InPlane d
      · have hall : ∀ d ∈ c :: s, InPlane d := List.forall_mem_cons.mpr ⟨hc, hs⟩
        rw [if_pos hc, if_pos hs, if_pos hall]
        rfl
      · have hall : ¬∀ d ∈ c :: s, InPlane d := fun h ↦ hs (List.forall_mem_cons.mp h).2
        rw [if_pos hc, if_neg hs, if_neg hall]
        rfl
    · have hall : ¬∀ d ∈ c :: s, InPlane d := fun h ↦ hc (List.forall_mem_cons.mp h).1
      rw [if_neg hc, if_neg hall]

end Strings

section Numbers

variable {rest : List Char} {isDigit : Char → Bool} {l : List Char}

/-- Text at which a run of digits stops. -/
def Stops (isDigit : Char → Bool) (rest : List Char) : Prop :=
  ∀ c ∈ rest.head?, isDigit c = false ∧ c ≠ '_'

theorem stops_newline : Stops Char.isDigit ('\n' :: rest) := by
  intro c hc
  obtain rfl := Option.some.inj hc
  decide

theorem digitRun_append (hl : ∀ c ∈ l, isDigit c = true) (hrest : Stops isDigit rest) :
    digitRun isDigit (l ++ rest) = (l, rest) := by
  induction l with
  | nil =>
    cases rest with
    | nil => rfl
    | cons c rest =>
      obtain ⟨hc, hne⟩ := hrest c rfl
      rw [List.nil_append, digitRun, if_neg (by simp [hc]), if_neg (fun h ↦ hne h.1)]
  | cons c l ih =>
    obtain ⟨hc, hl⟩ := List.forall_mem_cons.mp hl
    rw [List.cons_append, digitRun, if_pos hc, ih hl]

/-- Digits without a superfluous zero in front. -/
def IsWhole (l : List Char) : Prop :=
  l = ['0'] ∨ l ≠ [] ∧ l.head? ≠ some '0' ∧ ∀ c ∈ l, c.isDigit = true

theorem isWhole_toDigits (n : ℕ) : IsWhole (Nat.toDigits 10 n) := by
  have hdigits : ∀ c ∈ Nat.toDigits 10 n, c.isDigit = true :=
    fun c hc ↦ Nat.isDigit_of_mem_toDigits (by decide) (by decide) hc
  rcases Nat.eq_zero_or_pos n with rfl | hn
  · exact .inl rfl
  · refine .inr ⟨Nat.toDigits_ne_nil, ?_, hdigits⟩
    clear hdigits
    induction n using Nat.strong_induction_on with
    | _ n ih =>
      by_cases hlt : n < 10
      · rw [Nat.toDigits_of_lt_base hlt]
        interval_cases n <;> decide
      · rw [Nat.toDigits_of_base_le (by decide) (not_lt.mp hlt),
          List.head?_append_of_ne_nil _ Nat.toDigits_ne_nil]
        exact ih (n / 10) (by omega) (by omega)

theorem whole_append (hl : IsWhole l) (hrest : Stops Char.isDigit rest) :
    whole (l ++ rest) = some (l, rest) := by
  rcases hl with rfl | ⟨hne, hzero, hl⟩
  · rfl
  · cases l with
    | nil => exact absurd rfl hne
    | cons c l =>
      have hc : c ≠ '0' := fun h ↦ hzero (congrArg some h)
      have hdigit := (List.forall_mem_cons.mp hl).1
      have hrun := digitRun_append hl hrest
      rw [List.cons_append] at hrun ⊢
      unfold whole
      split
      · next heq => exact absurd (List.cons.inj heq).1 hc
      · next d cs hne' heq =>
        obtain ⟨rfl, rfl⟩ := List.cons.inj heq
        rw [if_pos hdigit, hrun]
      · next heq => cases heq

theorem isDigit_head (hl : IsWhole l) : ∃ c cs, l = c :: cs ∧ c.isDigit = true := by
  rcases hl with rfl | ⟨hne, -, hl⟩
  · exact ⟨'0', [], rfl, rfl⟩
  · cases l with
    | nil => exact absurd rfl hne
    | cons c cs => exact ⟨c, cs, rfl, (List.forall_mem_cons.mp hl).1⟩

theorem sign_of_isDigit {c : Char} (hc : c.isDigit = true) (cs : List Char) :
    sign (c :: cs) = ([], c :: cs) := by
  unfold sign
  split
  · next heq =>
    obtain ⟨rfl, -⟩ := List.cons.inj heq
    cases hc
  · next heq =>
    obtain ⟨rfl, -⟩ := List.cons.inj heq
    cases hc
  · rfl

theorem sign_append (hl : IsWhole l) : sign (l ++ rest) = ([], l ++ rest) := by
  obtain ⟨c, cs, rfl, hc⟩ := isDigit_head hl
  exact sign_of_isDigit hc (cs ++ rest)

/-- What may stand behind the digits of a number: the end of the line, a decimal
point or an exponent. -/
def Closes (rest : List Char) : Prop :=
  rest.head? = some '\n' ∨ rest.head? = some '.' ∨ rest.head? = some 'e'

theorem Closes.stops (h : Closes rest) : Stops Char.isDigit rest := by
  intro c hc
  rcases h with h | h | h <;> obtain rfl := Option.some.inj (h.symm.trans hc) <;> decide

theorem prefixed_append (hl : IsWhole l) (hrest : Closes rest) : prefixed (l ++ rest) = none := by
  rcases hl with rfl | ⟨hne, hzero, -⟩
  · cases rest with
    | nil => rfl
    | cons k rest =>
      have hradix : radix k = none := by
        rcases hrest with h | h | h <;> obtain rfl := Option.some.inj h <;> rfl
      cases rest with
      | nil => rfl
      | cons d rest =>
        simp only [List.singleton_append, prefixed, hradix]
        rfl
  · cases l with
    | nil => exact absurd rfl hne
    | cons c l =>
      have hc : c ≠ '0' := fun h ↦ hzero (congrArg some h)
      rw [List.cons_append]
      unfold prefixed
      split
      · next heq => exact absurd (List.cons.inj heq).1 hc
      · rfl

/-- The text of a float: digits, and behind them a fraction, an exponent, or
both. -/
structure FloatText where
  whole : List Char
  fraction : List Char
  exponent : List Char
  isWhole : IsWhole whole
  isFraction : fraction = [] ∨
    ∃ digits, fraction = '.' :: digits ∧ digits ≠ [] ∧ ∀ c ∈ digits, c.isDigit = true
  isExponent : exponent = [] ∨ ∃ mark digits, (mark = '+' ∨ mark = '-') ∧
    exponent = 'e' :: mark :: digits ∧ digits ≠ [] ∧ ∀ c ∈ digits, c.isDigit = true
  isFloat : fraction ++ exponent ≠ []

def FloatText.text (t : FloatText) : List Char := t.whole ++ (t.fraction ++ t.exponent)

namespace FloatText

variable (t : FloatText)

theorem closes_exponent : Closes (t.exponent ++ '\n' :: rest) := by
  rcases t.isExponent with he | ⟨mark, digits, -, he, -⟩
  · exact .inl (by rw [he]; rfl)
  · exact .inr (.inr (by rw [he]; rfl))

theorem closes_fraction : Closes (t.fraction ++ (t.exponent ++ '\n' :: rest)) := by
  rcases t.isFraction with hf | ⟨digits, hf, -⟩
  · rw [hf]
    exact t.closes_exponent
  · exact .inr (.inl (by rw [hf]; rfl))

theorem exponent_append : Toml.exponent (t.exponent ++ '\n' :: rest) =
    (t.exponent, '\n' :: rest) := by
  rcases t.isExponent with he | ⟨mark, digits, hmark, he, hne, hdigits⟩
  · rw [he]
    rfl
  · have hsign : sign (mark :: (digits ++ '\n' :: rest)) = ([mark], digits ++ '\n' :: rest) := by
      rcases hmark with rfl | rfl <;> rfl
    have hhead : (digits ++ '\n' :: rest).head?.any Char.isDigit = true := by
      cases digits with
      | nil => exact absurd rfl hne
      | cons d digits => exact (List.forall_mem_cons.mp hdigits).1
    rw [he]
    simp only [List.cons_append, Toml.exponent, hsign, hhead, digitRun_append hdigits stops_newline]
    simp

theorem fraction_append : Toml.fraction (t.fraction ++ (t.exponent ++ '\n' :: rest)) =
    (t.fraction, t.exponent ++ '\n' :: rest) := by
  rcases t.isFraction with hf | ⟨digits, hf, hne, hdigits⟩
  · rw [hf, List.nil_append]
    rcases t.isExponent with he | ⟨mark, digits, hmark, he, -⟩
    · rw [he]
      cases rest <;> rfl
    · rw [he]
      rfl
  · cases digits with
    | nil => exact absurd rfl hne
    | cons d digits =>
      have hd := (List.forall_mem_cons.mp hdigits).1
      have hstops : Stops Char.isDigit (t.exponent ++ '\n' :: rest) := t.closes_exponent.stops
      have hrun := digitRun_append hdigits hstops
      rw [hf]
      simp only [List.cons_append, Toml.fraction, hd, if_true]
      rw [← List.cons_append, hrun]

theorem number_append (float : List Char → PyFloat) : number float (t.text ++ '\n' :: rest) =
    some (.ok (.float (float t.text)), '\n' :: rest) := by
  have htext : t.text ++ '\n' :: rest =
      t.whole ++ (t.fraction ++ (t.exponent ++ '\n' :: rest)) := by
    simp [text]
  rw [htext, number, prefixed_append t.isWhole t.closes_fraction, sign_append t.isWhole,
    whole_append t.isWhole t.closes_fraction.stops]
  simp only [Option.map_some, t.fraction_append, t.exponent_append, if_neg t.isFloat]
  simp [text]

end FloatText

theorem number_toDigits (float : List Char → PyFloat) {n : ℕ}
    (hn : (Nat.toDigits 10 n).length ≤ maxDigits) :
    number float (Nat.toDigits 10 n ++ '\n' :: rest) = some (.ok (.integer n), '\n' :: rest) := by
  have hfraction : fraction ('\n' :: rest) = ([], '\n' :: rest) := by cases rest <;> rfl
  have hexponent : exponent ('\n' :: rest) = ([], '\n' :: rest) := rfl
  have hwhole := isWhole_toDigits n
  rw [number, prefixed_append hwhole (.inl rfl), sign_append hwhole,
    whole_append hwhole stops_newline]
  simp only [Option.map_some, hfraction, hexponent, List.append_nil, if_true, decimal,
    if_neg (not_lt.mpr hn), Nat.ofDigitChars_ten_toDigits]
  rfl

end Numbers

section Values

open Json

variable {rest : List Char} {repr : ℚ → List Char} {float : List Char → PyFloat} {fuel : ℕ}

theorem escape_head (c : Char) (cs : List Char) : ∃ d ds, escape c ++ cs = d :: ds ∧ d ≠ quote := by
  have hb : backslash ≠ quote := by decide
  rw [escape]
  split_ifs with h₁ h₂ h₃ h₄ h₅ h₆ h₇ h₈
  · exact ⟨backslash, _, rfl, hb⟩
  · exact ⟨backslash, _, rfl, hb⟩
  · exact ⟨backslash, _, rfl, hb⟩
  · exact ⟨backslash, _, rfl, hb⟩
  · exact ⟨backslash, _, rfl, hb⟩
  · exact ⟨backslash, _, rfl, hb⟩
  · refine ⟨c, cs, rfl, fun h ↦ h₁ (.inl ?_)⟩
    rw [h]
    rfl
  · exact ⟨backslash, _, rfl, hb⟩
  · exact ⟨backslash, _, rfl, hb⟩

theorem value_dumpString (s : String) (hrest : rest.head? ≠ some quote) :
    value float (fuel + 1) (dumpString s ++ rest) =
      if Basic s then .ok (.string s, rest) else .error notScalar := by
  have hopen : ([quote, quote] : List Char).isPrefixOf
      (s.toList.flatMap escape ++ quote :: rest) = false := by
    cases hs : s.toList with
    | nil =>
      cases rest with
      | nil => rfl
      | cons c rest =>
        have hc : (quote == c) = false := beq_false_of_ne (fun h ↦ hrest (congrArg some h.symm))
        simp [List.isPrefixOf, hc]
    | cons c cs =>
      obtain ⟨d, ds, hd, hne⟩ := escape_head c (cs.flatMap escape ++ quote :: rest)
      have hquote : (quote == d) = false := beq_false_of_ne hne.symm
      rw [List.flatMap_cons, List.append_assoc, hd]
      simp [List.isPrefixOf, hquote]
  have htext : dumpString s ++ rest = quote :: (s.toList.flatMap escape ++ quote :: rest) := by
    simp [dumpString, quote]
  have hbody := basicString_body s.toList rest
  rw [htext, value, if_pos rfl, hopen, if_neg (by simp), hbody]
  by_cases hs : Basic s
  · have hall : ∀ c ∈ s.toList, InPlane c := hs
    rw [if_pos hs, if_pos hall]
    simp [Except.map]
  · have hall : ¬∀ c ∈ s.toList, InPlane c := hs
    rw [if_neg hs, if_neg hall]
    rfl

def joined (l : List String) : List Char := [',', ' '].intercalate (l.map dumpString)

theorem joined_singleton (s : String) : joined [s] = dumpString s := by
  simp [joined, List.intercalate]

theorem joined_cons (s s' : String) (l : List String) :
    joined (s :: s' :: l) = dumpString s ++ ',' :: ' ' :: joined (s' :: l) := by
  simp [joined, List.intercalate]

theorem joined_head (s : String) (l : List String) : ∃ cs, joined (s :: l) = quote :: cs := by
  cases l with
  | nil =>
    rw [joined_singleton]
    exact ⟨_, rfl⟩
  | cons s' l =>
    rw [joined_cons]
    exact ⟨_, rfl⟩

theorem length_le_joined (l : List String) : l.length ≤ (joined l).length := by
  induction l with
  | nil => exact Nat.zero_le _
  | cons s l ih =>
    cases l with
    | nil => simp [joined_singleton, dumpString]
    | cons s' l =>
      rw [joined_cons]
      simp only [List.length_cons, List.length_append] at ih ⊢
      omega

theorem items_last (s : String) : items float (fuel + 2) (dumpString s ++ ']' :: rest) =
    if Basic s then .ok ([.string s], rest) else .error notScalar := by
  rw [items, value_dumpString s (by simp [quote])]
  by_cases hs : Basic s
  · rw [if_pos hs, if_pos hs]
    rfl
  · rw [if_neg hs, if_neg hs]
    rfl

theorem items_next (s : String) : items float (fuel + 2)
    (dumpString s ++ ',' :: ' ' :: quote :: rest) =
      if Basic s then
        (items float (fuel + 1) (quote :: rest)).map (fun r ↦ (.string s :: r.1, r.2))
      else .error notScalar := by
  rw [items, value_dumpString s (by simp [quote])]
  by_cases hs : Basic s
  · rw [if_pos hs, if_pos hs]
    change (items float (fuel + 1) (quote :: rest) >>=
      fun r ↦ Except.ok (.string s :: r.1, r.2)) = _
    cases items float (fuel + 1) (quote :: rest) <;> rfl
  · rw [if_neg hs, if_neg hs]
    rfl

theorem items_joined (s : String) (l : List String) (hfuel : l.length + 2 ≤ fuel) :
    items float fuel (joined (s :: l) ++ ']' :: rest) =
      if ∀ s' ∈ s :: l, Basic s' then .ok ((s :: l).map .string, rest) else .error notScalar := by
  induction l generalizing s fuel with
  | nil =>
    obtain ⟨fuel, rfl⟩ := Nat.exists_eq_add_of_le' hfuel
    simp only [List.forall_mem_singleton, joined_singleton]
    exact items_last s
  | cons s' l ih =>
    obtain ⟨cs, hcs⟩ := joined_head s' l
    obtain ⟨fuel, rfl⟩ : ∃ n, fuel = n + 2 := ⟨fuel - 2, by omega⟩
    have hle : l.length + 2 ≤ fuel + 1 := by
      rw [List.length_cons] at hfuel
      omega
    have htail := ih s' hle
    rw [joined_cons, hcs, List.append_assoc, List.cons_append, List.cons_append, List.cons_append,
      items_next, ← List.cons_append, ← hcs, htail]
    by_cases hs : Basic s
    · by_cases hl : ∀ s'' ∈ s' :: l, Basic s''
      · have hall : ∀ s'' ∈ s :: s' :: l, Basic s'' := List.forall_mem_cons.mpr ⟨hs, hl⟩
        rw [if_pos hs, if_pos hl, if_pos hall]
        rfl
      · have hall : ¬∀ s'' ∈ s :: s' :: l, Basic s'' := fun h ↦ hl (List.forall_mem_cons.mp h).2
        rw [if_pos hs, if_neg hl, if_neg hall]
        rfl
    · have hall : ¬∀ s'' ∈ s :: s' :: l, Basic s'' := fun h ↦ hs (List.forall_mem_cons.mp h).1
      rw [if_neg hs, if_neg hall]

/-- A float of the machine: what `repr` writes is read as the same number. -/
def Prints (repr : ℚ → List Char) (float : List Char → PyFloat) (q : ℚ) : Prop :=
  ∃ t : FloatText, repr q = t.text ∧ float t.text = q

/-- The value that TOML has for what `json.dumps` is given. -/
def ofJson : Json.Value → Value
  | .text s => .string s
  | .number n => .integer n
  | .rate q => .float q
  | .flag b => .boolean b
  | .texts l => .array (l.map .string)

def Readable : Json.Value → Prop
  | .text s => Basic s
  | .texts l => ∀ s ∈ l, Basic s
  | _ => True

instance : DecidablePred Readable := fun v ↦
  match v with
  | .text s => inferInstanceAs (Decidable (Basic s))
  | .texts l => decidable_of_iff (l.all (fun s ↦ decide (Basic s)) = true) (by simp [Readable])
  | .number _ | .rate _ | .flag _ => .isTrue trivial

theorem scalar_of_number {c : Char} {cs rest : List Char} {v : Value} (hc : c.isDigit = true)
    (h : number float (c :: cs) = some (.ok v, rest)) : scalar float (c :: cs) = .ok (v, rest) := by
  have hne : ∀ d, d.isDigit = false → (d == c) = false := by
    intro d hd
    refine beq_false_of_ne (fun h ↦ ?_)
    rw [h, hc] at hd
    cases hd
  have htrue : after "true" (c :: cs) = none := by
    simp [after, List.isPrefixOf, hne 't' (by decide)]
  have hfalse : after "false" (c :: cs) = none := by
    simp [after, List.isPrefixOf, hne 'f' (by decide)]
  rw [scalar, htrue, hfalse, h]
  rfl

theorem value_of_number {cs rest : List Char} {v : Value} (hfuel : 0 < fuel)
    (hc : ∃ c cs', cs = c :: cs' ∧ c.isDigit = true)
    (h : number float cs = some (.ok v, rest)) : value float fuel cs = .ok (v, rest) := by
  obtain ⟨fuel, rfl⟩ := Nat.exists_eq_add_of_lt hfuel
  obtain ⟨c, cs', rfl, hc⟩ := hc
  have hq : c ≠ quote := by
    rintro rfl
    revert hc
    decide
  have hb : c ≠ '[' := by
    rintro rfl
    revert hc
    decide
  rw [Nat.zero_add, value, if_neg hq, if_neg hb]
  exact scalar_of_number hc h

/-- A JSON text at the end of a line is read as the value that it was written
for, unless it has the escape of a surrogate. -/
theorem value_dumps {v : Json.Value} {text : List Char} (hv : v.dumps repr = .ok text)
    (hfloat : ∀ q, v = .rate q → Prints repr float q) (hfuel : text.length + 1 ≤ fuel) :
    value float fuel (text ++ '\n' :: rest) =
      if Readable v then .ok (ofJson v, '\n' :: rest) else .error notScalar := by
  cases v with
  | text s =>
    obtain rfl := Except.ok.inj hv
    obtain ⟨fuel, rfl⟩ := Nat.exists_eq_add_of_le' hfuel
    exact value_dumpString s (by simp [quote])
  | number n =>
    rw [Json.Value.dumps] at hv
    split_ifs at hv with hn
    obtain rfl := Except.ok.inj hv
    obtain ⟨c, cs, hcs, hc⟩ := isDigit_head (isWhole_toDigits n)
    refine (value_of_number (by omega) ⟨c, cs ++ '\n' :: rest, by rw [hcs]; rfl, hc⟩
      (number_toDigits float (not_lt.mp hn))).trans ?_
    exact (if_pos (show Readable (.number n) from trivial)).symm
  | rate q =>
    obtain ⟨t, ht, hq⟩ := hfloat q rfl
    obtain rfl := Except.ok.inj hv
    obtain ⟨c, cs, hcs, hc⟩ := isDigit_head t.isWhole
    rw [ht, value_of_number (by omega) ⟨c, _, by rw [FloatText.text, hcs]; rfl, hc⟩
      (t.number_append float), hq]
    exact (if_pos (show Readable (.rate q) from trivial)).symm
  | flag b =>
    obtain rfl := Except.ok.inj hv
    obtain ⟨fuel, rfl⟩ := Nat.exists_eq_add_of_le' hfuel
    cases b <;> rfl
  | texts l =>
    obtain rfl := Except.ok.inj hv
    have htext : (Json.dumps l).toList = '[' :: (joined l ++ [']']) := by
      simp [Json.dumps, joined]
    rw [htext] at hfuel ⊢
    simp only [List.length_cons, List.length_append, List.length_nil] at hfuel
    obtain ⟨fuel, rfl⟩ : ∃ n, fuel = n + 1 := ⟨fuel - 1, by omega⟩
    cases l with
    | nil => rfl
    | cons s l =>
      obtain ⟨cs, hcs⟩ := joined_head s l
      have hlength := length_le_joined (s :: l)
      have hle : l.length + 2 ≤ fuel := by
        rw [List.length_cons] at hlength
        omega
      have happend : '[' :: (joined (s :: l) ++ [']']) ++ '\n' :: rest =
          '[' :: quote :: (cs ++ ']' :: '\n' :: rest) := by
        rw [hcs]
        simp
      rw [happend]
      change (items float fuel (quote :: cs ++ ']' :: '\n' :: rest) >>=
        fun r ↦ Except.ok (Value.array r.1, r.2)) = _
      rw [← hcs, items_joined s l hle]
      by_cases hl : ∀ s' ∈ s :: l, Basic s'
      · have hreadable : Readable (.texts (s :: l)) := hl
        rw [if_pos hl, if_pos hreadable]
        rfl
      · have hreadable : ¬Readable (.texts (s :: l)) := hl
        rw [if_neg hl, if_neg hreadable]
        rfl

end Values

end Toml

end NoreplyGateway
