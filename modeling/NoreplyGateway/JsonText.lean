import NoreplyGateway.TomlText
import NoreplyGateway.Upstream.Library

/-! A reader of JSON, and what `json.dumps` writes for it. The escape of a lone
surrogate is refused, as no character stands for it. -/

namespace NoreplyGateway.JsonText

open Json (escape unicodeEscape hexDigits dumpString)
open Toml (quote backslash hexValue sign after)
open Upstream (Value)

section Strings

/-- Where the reader of a string stands. Behind the escape of a high surrogate
another escape has to follow. -/
inductive StringState
  | plain
  | escape
  | hex (high : Option ℕ) (left value : ℕ)
  | pair (high : ℕ)
  | pairEscape (high : ℕ)

def replacement (c : Char) : Option Char := if c = '/' then some c else Toml.replacement c

def prepend (c : Char) (x : Option (List Char × List Char)) : Option (List Char × List Char) :=
  x.map (fun r ↦ (c :: r.1, r.2))

def isHigh (n : ℕ) : Bool := 55296 ≤ n ∧ n ≤ 56319

def isLow (n : ℕ) : Bool := 56320 ≤ n ∧ n ≤ 57343

/-- `scanstring`, behind the opening quote. -/
def scanString : StringState → List Char → Option (List Char × List Char)
  | _, [] => none
  | .plain, c :: cs =>
    if c = quote then some ([], cs)
    else if c = backslash then scanString .escape cs
    else if c.toNat < 32 then none
    else prepend c (scanString .plain cs)
  | .escape, c :: cs =>
    if c = 'u' then scanString (.hex none 4 0) cs
    else (replacement c).bind (fun d ↦ prepend d (scanString .plain cs))
  | .hex high left value, c :: cs =>
    (hexValue c).bind fun d ↦
      let n := 16 * value + d
      if 1 < left then scanString (.hex high (left - 1) n) cs
      else match high with
        | none =>
          if isHigh n then scanString (.pair n) cs
          else if isLow n then none
          else prepend (Char.ofNat n) (scanString .plain cs)
        | some h =>
          if isLow n then
            prepend (Char.ofNat (65536 + (h - 55296) * 1024 + (n - 56320))) (scanString .plain cs)
          else none
  | .pair high, c :: cs => if c = backslash then scanString (.pairEscape high) cs else none
  | .pairEscape high, c :: cs => if c = 'u' then scanString (.hex (some high) 4 0) cs else none

end Strings

section Numbers

def isNumberChar (c : Char) : Bool := c.isDigit ∨ c = '+' ∨ c = '-' ∨ c = '.' ∨ c = 'e' ∨ c = 'E'

def wholePart (cs : List Char) : Option (List Char) :=
  match cs with
  | '0' :: cs => some cs
  | c :: cs => if c.isDigit then some (cs.dropWhile Char.isDigit) else none
  | [] => none

def fractionPart (cs : List Char) : Option (List Char) :=
  match cs with
  | '.' :: cs => if cs.head?.any Char.isDigit then some (cs.dropWhile Char.isDigit) else none
  | cs => some cs

def exponentPart (cs : List Char) : Option (List Char) :=
  match cs with
  | [] => some []
  | e :: cs =>
    let digits := (sign cs).2
    if (e = 'e' ∨ e = 'E') ∧ digits.head?.any Char.isDigit then
      some (digits.dropWhile Char.isDigit)
    else none

/-- The text of a number: digits, and behind them a fraction and an exponent. -/
def IsNumber (cs : List Char) : Prop :=
  cs.all isNumberChar = true ∧
    (((wholePart (if cs.head? = some '-' then cs.tail else cs)).bind fractionPart).bind
      exponentPart) = some []

instance : DecidablePred IsNumber := fun _ ↦ inferInstanceAs (Decidable (_ ∧ _))

/-- A character of a number behind one is an error here or at the next token. -/
def number (cs : List Char) : Option (Value × List Char) :=
  if IsNumber (cs.takeWhile isNumberChar) then
    some (.number (String.ofList (cs.takeWhile isNumberChar)), cs.dropWhile isNumberChar)
  else none

end Numbers

section Values

def isBlank (c : Char) : Bool := c = ' ' ∨ c = '\t' ∨ c = '\n' ∨ c = '\r'

def skip (cs : List Char) : List Char := cs.dropWhile isBlank

/-- The dictionary of the pairs, where a later one replaces the value of an earlier one. -/
def assign (fields : List (String × Value)) (key : String) (value : Value) :
    List (String × Value) :=
  if fields.any (fun f ↦ f.1 = key) then
    fields.map (fun f ↦ if f.1 = key then (key, value) else f)
  else fields ++ [(key, value)]

def ofPairs (pairs : List (String × Value)) : List (String × Value) :=
  pairs.foldl (fun fields p ↦ assign fields p.1 p.2) []

def constants : List (String × Value) :=
  [("null", .null), ("true", .bool true), ("false", .bool false), ("NaN", .number "NaN"),
    ("Infinity", .number "Infinity"), ("-Infinity", .number "-Infinity")]

def constant (cs : List Char) : Option (Value × List Char) :=
  constants.findSome? (fun c ↦ (after c.1 cs).map (c.2, ·))

mutual

/-- `scan_once`, to a depth that the text does not exceed. -/
def value : ℕ → List Char → Option (Value × List Char)
  | 0, _ => none
  | fuel + 1, cs =>
    match cs with
    | [] => none
    | c :: cs =>
      if c = quote then (scanString .plain cs).map (fun r ↦ (.string (String.ofList r.1), r.2))
      else if c = '[' then
        match skip cs with
        | ']' :: cs => some (.array [], cs)
        | cs => (elements fuel cs).map (fun r ↦ (.array r.1, r.2))
      else if c = '{' then
        match skip cs with
        | '}' :: cs => some (.object [], cs)
        | cs => (members fuel cs).map (fun r ↦ (.object (ofPairs r.1), r.2))
      else (number (c :: cs)).or (constant (c :: cs))

def elements : ℕ → List Char → Option (List Value × List Char)
  | 0, _ => none
  | fuel + 1, cs =>
    (value fuel cs).bind fun (v, cs) ↦
      match skip cs with
      | ']' :: cs => some ([v], cs)
      | ',' :: cs => (elements fuel (skip cs)).map (fun r ↦ (v :: r.1, r.2))
      | _ => none

def members : ℕ → List Char → Option (List (String × Value) × List Char)
  | 0, _ => none
  | _ + 1, [] => none
  | fuel + 1, c :: cs =>
    if c = quote then
      (scanString .plain cs).bind fun (key, cs) ↦
        match skip cs with
        | ':' :: cs =>
          (value fuel (skip cs)).bind fun (v, cs) ↦
            match skip cs with
            | '}' :: cs => some ([(String.ofList key, v)], cs)
            | ',' :: cs =>
              (members fuel (skip cs)).map (fun r ↦ ((String.ofList key, v) :: r.1, r.2))
            | _ => none
        | _ => none
    else none

end

/-- `json.loads` -/
def loads (cs : List Char) : Option Value :=
  (value (cs.length + 1) (skip cs)).bind (fun r ↦ if skip r.2 = [] then some r.1 else none)

mutual

/-- `json.dumps`, with so much blank space behind each separator. -/
def dumps (space : List Char) : Value → List Char
  | .null => ['n', 'u', 'l', 'l']
  | .bool b => if b then ['t', 'r', 'u', 'e'] else ['f', 'a', 'l', 's', 'e']
  | .number text => text.toList
  | .string s => dumpString s
  | .array values => '[' :: dumpAll space values ++ [']']
  | .object fields => '{' :: dumpFields space fields ++ ['}']

def dumpAll (space : List Char) : List Value → List Char
  | [] => []
  | v :: values => dumps space v ++
      (if values.isEmpty then [] else ',' :: (space ++ dumpAll space values))

def dumpFields (space : List Char) : List (String × Value) → List Char
  | [] => []
  | (k, v) :: fields => dumpString k ++ ':' :: (space ++ (dumps space v ++
      (if fields.isEmpty then [] else ',' :: (space ++ dumpFields space fields))))

end

mutual

/-- A value that `json.loads` can return. -/
def WellFormed : Value → Prop
  | .number text => IsNumber text.toList ∨ text ∈ ["NaN", "Infinity", "-Infinity"]
  | .array values => AllWellFormed values
  | .object fields => (fields.map Prod.fst).Nodup ∧ FieldsWellFormed fields
  | _ => True

def AllWellFormed : List Value → Prop
  | [] => True
  | v :: values => WellFormed v ∧ AllWellFormed values

def FieldsWellFormed : List (String × Value) → Prop
  | [] => True
  | (_, v) :: fields => WellFormed v ∧ FieldsWellFormed fields

end

end Values

section Strings

variable {rest : List Char} {c : Char} {n : ℕ}

theorem scanString_hex (high : Option ℕ) (left value : ℕ) (hleft : 1 < left) (h : n < 16) :
    scanString (.hex high left value) (Nat.digitChar n :: rest) =
      scanString (.hex high (left - 1) (16 * value + n)) rest := by
  simp [scanString, Toml.hexValue_digitChar h, hleft]

/-- What the four digits of an escape lead to. -/
theorem scanString_unicode (high : Option ℕ) (h : n < 65536) :
    scanString (.hex high 4 0) (hexDigits 4 n ++ rest) =
      match high with
      | none =>
        if isHigh n then scanString (.pair n) rest
        else if isLow n then none
        else prepend (Char.ofNat n) (scanString .plain rest)
      | some k =>
        if isLow n then
          prepend (Char.ofNat (65536 + (k - 55296) * 1024 + (n - 56320))) (scanString .plain rest)
        else none := by
  have hdigits : hexDigits 4 n = [Nat.digitChar (n / 4096), Nat.digitChar (n / 256 % 16),
      Nat.digitChar (n / 16 % 16), Nat.digitChar (n % 16)] := by
    simp only [hexDigits, List.nil_append, List.cons_append, Nat.div_div_eq_div_mul]
    rw [Nat.mod_eq_of_lt (show n / 4096 < 16 by omega)]
  have hvalue : 16 * (16 * (16 * (16 * 0 + n / 4096) + n / 256 % 16) + n / 16 % 16) + n % 16 = n := by
    omega
  rw [hdigits]
  simp only [List.cons_append, List.nil_append]
  rw [scanString_hex _ _ _ (by decide) (by omega), scanString_hex _ _ _ (by decide) (by omega),
    scanString_hex _ _ _ (by decide) (by omega)]
  simp only [scanString, Toml.hexValue_digitChar (show n % 16 < 16 by omega), Option.bind_some,
    hvalue]
  rfl

theorem scanString_escape (c : Char) (rest : List Char) :
    scanString .plain (escape c ++ rest) = prepend c (scanString .plain rest) := by
  have hscalar := Toml.isScalar_toNat c
  simp only [Toml.isScalar, decide_eq_true_eq] at hscalar
  by_cases hquote : c.toNat = 34
  · obtain rfl := Toml.eq_ofNat hquote
    rfl
  by_cases hbackslash : c.toNat = 92
  · obtain rfl := Toml.eq_ofNat hbackslash
    rfl
  by_cases hnewline : c.toNat = 10
  · obtain rfl := Toml.eq_ofNat hnewline
    rfl
  by_cases hreturn : c.toNat = 13
  · obtain rfl := Toml.eq_ofNat hreturn
    rfl
  by_cases htab : c.toNat = 9
  · obtain rfl := Toml.eq_ofNat htab
    rfl
  by_cases hfeed : c.toNat = 12
  · obtain rfl := Toml.eq_ofNat hfeed
    rfl
  by_cases hback : c.toNat = 8
  · obtain rfl := Toml.eq_ofNat hback
    rfl
  rw [escape]
  simp only [hquote, hbackslash, hnewline, hreturn, htab, hfeed, hback, or_self, if_false]
  by_cases hprintable : 32 ≤ c.toNat ∧ c.toNat ≤ 126
  · have hq : c ≠ quote := fun h ↦ hquote (by rw [h]; rfl)
    have hb : c ≠ backslash := fun h ↦ hbackslash (by rw [h]; rfl)
    rw [if_pos hprintable]
    simp only [List.singleton_append, scanString, hq, hb, if_false,
      if_neg (not_lt.mpr hprintable.1)]
  · rw [if_neg hprintable]
    have hstart : ∀ n cs, scanString .plain (unicodeEscape n ++ cs) =
        scanString (.hex none 4 0) (hexDigits 4 n ++ cs) := fun _ _ ↦ rfl
    by_cases hplane : c.toNat < 65536
    · have hhigh : isHigh c.toNat = false := by
        simp only [isHigh, decide_eq_false_iff_not]
        omega
      have hlow : isLow c.toNat = false := by
        simp only [isLow, decide_eq_false_iff_not]
        omega
      rw [if_pos hplane, hstart, scanString_unicode none hplane]
      simp [hhigh, hlow, Char.ofNat_toNat]
    · -- a surrogate pair
      rw [if_neg hplane, List.append_assoc, hstart, scanString_unicode none (by omega)]
      have hhigh : isHigh (55296 + (c.toNat - 65536) / 1024) = true := by
        simp only [isHigh, decide_eq_true_eq]
        omega
      have hlow : isLow (56320 + (c.toNat - 65536) % 1024) = true := by
        simp only [isLow, decide_eq_true_eq]
        omega
      have hpair : ∀ k n cs, scanString (.pair k) (unicodeEscape n ++ cs) =
          scanString (.hex (some k) 4 0) (hexDigits 4 n ++ cs) := fun _ _ _ ↦ rfl
      have hvalue : 65536 + (55296 + (c.toNat - 65536) / 1024 - 55296) * 1024 +
          (56320 + (c.toNat - 65536) % 1024 - 56320) = c.toNat := by
        omega
      simp only [hhigh, if_true]
      rw [hpair, scanString_unicode _ (by omega)]
      simp only [hlow, if_true, hvalue, Char.ofNat_toNat]

theorem scanString_body (s rest : List Char) :
    scanString .plain (s.flatMap escape ++ quote :: rest) = some (s, rest) := by
  induction s with
  | nil => rfl
  | cons c s ih =>
    rw [List.flatMap_cons, List.append_assoc, scanString_escape, ih]
    rfl

/-- The text that `json.dumps` writes is the text that `json.loads` reads. -/
theorem scanString_dumpString (s : String) (rest : List Char) :
    ∃ cs, dumpString s ++ rest = quote :: cs ∧ scanString .plain cs = some (s.toList, rest) :=
  ⟨s.toList.flatMap escape ++ quote :: rest, by simp [dumpString, quote], scanString_body _ _⟩

end Strings

section Values

variable {space rest : List Char} {fuel : ℕ}

/-- No number goes on here. -/
def Ends (rest : List Char) : Prop := rest.head?.all (fun c ↦ !isNumberChar c) = true

theorem ends_cons {c : Char} {cs : List Char} (h : isNumberChar c = false) : Ends (c :: cs) := by
  simp [Ends, h]

theorem IsNumber.head {l : List Char} (h : IsNumber l) :
    ∃ c cs, l = c :: cs ∧ isNumberChar c = true := by
  obtain ⟨hall, hparts⟩ := h
  cases l with
  | nil => simp [wholePart] at hparts
  | cons c cs => exact ⟨c, cs, rfl, (List.all_cons.symm.trans hall |> Bool.and_eq_true_iff.mp).1⟩

theorem number_append {text : String} (h : IsNumber text.toList) (hrest : Ends rest) :
    number (text.toList ++ rest) = some (.number text, rest) := by
  have hall := List.all_eq_true.mp h.1
  have htake : (text.toList ++ rest).takeWhile isNumberChar = text.toList := by
    rw [List.takeWhile_append_of_pos hall]
    cases rest with
    | nil => simp
    | cons c cs => simp_all [Ends]
  have hdrop : (text.toList ++ rest).dropWhile isNumberChar = rest := by
    rw [List.dropWhile_append_of_pos hall]
    cases rest with
    | nil => simp
    | cons c cs => simp_all [Ends]
  rw [number, htake, hdrop, if_pos h, String.ofList_toList]

theorem numberChar_ne {c d : Char} (hc : isNumberChar c = true) (hd : isNumberChar d = false) :
    c ≠ d := by
  rintro rfl
  rw [hc] at hd
  cases hd

theorem numberChar_not_blank {c : Char} (hc : isNumberChar c = true) : isBlank c = false := by
  have hne := fun d ↦ numberChar_ne (d := d) hc
  simp [isBlank, hne ' ' (by decide), hne '\t' (by decide), hne '\n' (by decide),
    hne '\r' (by decide)]

/-- The first character of a value. -/
theorem dumps_head (space : List Char) {v : Value} (h : WellFormed v) :
    ∃ c cs, dumps space v = c :: cs ∧ isBlank c = false ∧ c ≠ ']' := by
  cases v with
  | null => exact ⟨_, _, rfl, by decide, by decide⟩
  | bool b => cases b <;> exact ⟨_, _, rfl, by decide, by decide⟩
  | number text =>
    rw [WellFormed] at h
    rcases h with h | h
    · obtain ⟨c, cs, hl, hc⟩ := h.head
      exact ⟨c, cs, by rw [dumps, hl], numberChar_not_blank hc, numberChar_ne hc (by decide)⟩
    · simp only [List.mem_cons, List.not_mem_nil, or_false] at h
      rcases h with rfl | rfl | rfl
      · exact ⟨'N', ['a', 'N'], by simp [dumps], by decide, by decide⟩
      · exact ⟨'I', "nfinity".toList, by simp [dumps], by decide, by decide⟩
      · exact ⟨'-', "Infinity".toList, by simp [dumps], by decide, by decide⟩
  | string s => exact ⟨quote, _, by rw [dumps, dumpString]; rfl, by decide, by decide⟩
  | array values => exact ⟨'[', _, by rw [dumps]; rfl, by decide, by decide⟩
  | object fields => exact ⟨'{', _, by rw [dumps]; rfl, by decide, by decide⟩

theorem skip_cons {c : Char} {cs : List Char} (h : isBlank c = false) : skip (c :: cs) = c :: cs := by
  simp [skip, h]

theorem value_string (s : String) : value (fuel + 1) (dumpString s ++ rest) =
    some (.string s, rest) := by
  obtain ⟨cs, htext, hscan⟩ := scanString_dumpString s rest
  rw [htext, value, if_pos rfl, hscan]
  simp

theorem value_number {text : String} (h : IsNumber text.toList) (hrest : Ends rest) :
    value (fuel + 1) (text.toList ++ rest) = some (.number text, rest) := by
  obtain ⟨c, cs, hl, hc⟩ := h.head
  have hnumber := number_append h hrest
  rw [hl] at hnumber ⊢
  rw [List.cons_append] at hnumber ⊢
  rw [value, if_neg (numberChar_ne hc (by decide)), if_neg (numberChar_ne hc (by decide)),
    if_neg (numberChar_ne hc (by decide)), hnumber]
  rfl

theorem value_constant (name : String) (v : Value) (rest : List Char)
    (h : (name, v) ∈ constants) : value (fuel + 1) (name.toList ++ rest) = some (v, rest) := by
  have hempty : ¬ IsNumber [] := by decide
  have hminus : ¬ IsNumber ['-'] := by decide
  simp only [constants, List.mem_cons, Prod.mk.injEq, List.not_mem_nil, or_false] at h
  rcases h with ⟨rfl, rfl⟩ | ⟨rfl, rfl⟩ | ⟨rfl, rfl⟩ | ⟨rfl, rfl⟩ | ⟨rfl, rfl⟩ | ⟨rfl, rfl⟩ <;>
    simp [value, number, isNumberChar, hempty, hminus, constant, constants, after, quote,
      ← String.length_toList]

theorem skip_space (hspace : ∀ c ∈ space, isBlank c = true) (cs : List Char) :
    skip (space ++ cs) = skip cs := by
  rw [skip, List.dropWhile_append_of_pos hspace]
  rfl

theorem dumpAll_head (space : List Char) (v : Value) (values : List Value) (h : WellFormed v) :
    ∃ c cs, dumpAll space (v :: values) = c :: cs ∧ isBlank c = false ∧ c ≠ ']' := by
  obtain ⟨c, cs, hc, hblank, hne⟩ := dumps_head space h
  exact ⟨c, _, by rw [dumpAll, hc]; rfl, hblank, hne⟩

theorem dumpFields_head (space : List Char) (f : String × Value) (fields : List (String × Value)) :
    ∃ cs, dumpFields space (f :: fields) = quote :: cs := by
  exact ⟨_, by rw [dumpFields, dumpString]; rfl⟩

theorem assign_of_not_mem {fields : List (String × Value)} {key : String} (v : Value)
    (h : key ∉ fields.map Prod.fst) : assign fields key v = fields ++ [(key, v)] := by
  rw [assign, if_neg]
  simpa using h

theorem ofPairs_of_nodup {fields : List (String × Value)} (h : (fields.map Prod.fst).Nodup) :
    ofPairs fields = fields := by
  induction fields using List.reverseRecOn with
  | nil => rfl
  | append_singleton fields f ih =>
    rw [List.map_append, List.nodup_append] at h
    obtain ⟨hnodup, -, hdisjoint⟩ := h
    have hf : f.1 ∉ fields.map Prod.fst := fun hmem ↦ hdisjoint f.1 hmem f.1 (by simp) rfl
    have hfold := ih hnodup
    rw [ofPairs] at hfold ⊢
    rw [List.foldl_append, hfold, List.foldl_cons, List.foldl_nil, assign_of_not_mem f.2 hf]

mutual

/-- A value is read behind the text that is written for it. -/
theorem value_dumps (hspace : ∀ c ∈ space, isBlank c = true) (v : Value) (h : WellFormed v) (fuel : ℕ)
    (hfuel : (dumps space v).length ≤ fuel) (rest : List Char) (hrest : Ends rest) :
    value fuel (dumps space v ++ rest) = some (v, rest) := by
  obtain ⟨c, cs, hc, -⟩ := dumps_head space h
  obtain ⟨fuel, rfl⟩ : ∃ k, fuel = k + 1 := by
    rw [hc, List.length_cons] at hfuel
    exact ⟨fuel - 1, by omega⟩
  clear hc c cs
  cases v with
  | null => exact value_constant "null" .null rest (by simp [constants])
  | bool b =>
    cases b with
    | true => exact value_constant "true" (.bool true) rest (by simp [constants])
    | false => exact value_constant "false" (.bool false) rest (by simp [constants])
  | number text =>
    rw [WellFormed] at h
    rw [dumps]
    rcases h with h | h
    · exact value_number h hrest
    · apply value_constant
      simp only [List.mem_cons, List.not_mem_nil, or_false] at h
      rcases h with rfl | rfl | rfl <;> simp [constants]
  | string s => exact value_string s
  | array values =>
    rw [WellFormed] at h
    simp only [dumps, List.length_cons, List.length_append, List.length_nil, List.cons_append,
      List.append_assoc, List.nil_append] at hfuel ⊢
    rw [value, if_neg (by decide), if_pos rfl]
    cases values with
    | nil => rfl
    | cons v values =>
      have hitems := elements_dumps hspace v values h fuel (by omega) rest
      obtain ⟨c, cs, hc, hblank, hne⟩ := dumpAll_head space v values h.1
      rw [hc, List.cons_append] at hitems ⊢
      rw [skip_cons hblank]
      split
      · rename_i heq
        exact absurd (List.cons.inj heq).1 hne
      · rw [hitems]
        rfl
  | object fields =>
    rw [WellFormed] at h
    simp only [dumps, List.length_cons, List.length_append, List.length_nil, List.cons_append,
      List.append_assoc, List.nil_append] at hfuel ⊢
    rw [value, if_neg (by decide), if_neg (by decide), if_pos rfl]
    cases fields with
    | nil => rfl
    | cons f fields =>
      obtain ⟨key, v⟩ := f
      have hitems := members_dumps hspace key v fields h.2 fuel (by omega) rest
      obtain ⟨cs, hc⟩ := dumpFields_head space (key, v) fields
      rw [hc, List.cons_append] at hitems ⊢
      rw [skip_cons (by decide)]
      split
      · rename_i heq
        exact absurd (List.cons.inj heq).1 (by decide)
      · rw [hitems]
        simp [ofPairs_of_nodup h.1]
termination_by fuel

theorem elements_dumps (hspace : ∀ c ∈ space, isBlank c = true) (v : Value)
    (values : List Value) (h : AllWellFormed (v :: values)) (fuel : ℕ)
    (hfuel : (dumpAll space (v :: values)).length + 1 ≤ fuel) (rest : List Char) :
    elements fuel (dumpAll space (v :: values) ++ ']' :: rest) = some (v :: values, rest) := by
  obtain ⟨fuel, rfl⟩ : ∃ k, fuel = k + 1 := ⟨fuel - 1, by omega⟩
  have hclose : skip (']' :: rest) = ']' :: rest := skip_cons (by decide)
  have hcomma : ∀ cs, skip (',' :: cs) = ',' :: cs := fun cs ↦ skip_cons (by decide)
  rw [AllWellFormed] at h
  cases values with
  | nil =>
    simp only [dumpAll, List.isEmpty_nil, if_true, List.append_nil] at hfuel ⊢
    have hv := value_dumps hspace v h.1 fuel (by omega) (']' :: rest) (ends_cons (by decide))
    simp only [elements, hv, Option.bind_some, hclose]
  | cons w values =>
    have hw := h.2
    rw [AllWellFormed] at hw
    rw [dumpAll, if_neg (by simp)] at hfuel ⊢
    simp only [List.length_append, List.length_cons, List.append_assoc, List.cons_append]
      at hfuel ⊢
    have hv := value_dumps hspace v h.1 fuel (by omega)
      (',' :: (space ++ (dumpAll space (w :: values) ++ ']' :: rest))) (ends_cons (by decide))
    have hvalues := elements_dumps hspace w values h.2 fuel (by omega) rest
    obtain ⟨c, cs, hc, hblank, -⟩ := dumpAll_head space w values hw.1
    have hskip : skip (dumpAll space (w :: values) ++ ']' :: rest) =
        dumpAll space (w :: values) ++ ']' :: rest := by
      rw [hc, List.cons_append, skip_cons hblank]
    simp only [elements, hv, Option.bind_some, hcomma, skip_space hspace, hskip, hvalues,
      Option.map_some]
termination_by fuel

theorem members_dumps (hspace : ∀ c ∈ space, isBlank c = true) (key : String) (v : Value)
    (fields : List (String × Value)) (h : FieldsWellFormed ((key, v) :: fields)) (fuel : ℕ)
    (hfuel : (dumpFields space ((key, v) :: fields)).length + 1 ≤ fuel) (rest : List Char) :
    members fuel (dumpFields space ((key, v) :: fields) ++ '}' :: rest) =
      some ((key, v) :: fields, rest) := by
  obtain ⟨fuel, rfl⟩ : ∃ k, fuel = k + 1 := ⟨fuel - 1, by omega⟩
  have hclose : skip ('}' :: rest) = '}' :: rest := skip_cons (by decide)
  have hcomma : ∀ cs, skip (',' :: cs) = ',' :: cs := fun cs ↦ skip_cons (by decide)
  have hcolon : ∀ cs, skip (':' :: cs) = ':' :: cs := fun cs ↦ skip_cons (by decide)
  rw [FieldsWellFormed] at h
  obtain ⟨c, cs, hc, hblank, -⟩ := dumps_head space h.1
  have hskip : ∀ l, skip (dumps space v ++ l) = dumps space v ++ l := by
    intro l
    rw [hc, List.cons_append, skip_cons hblank]
  cases fields with
  | nil =>
    simp only [dumpFields, List.isEmpty_nil, if_true, List.append_nil, List.length_append,
      List.length_cons, List.append_assoc, List.cons_append] at hfuel ⊢
    obtain ⟨text, htext, hscan⟩ := scanString_dumpString key
      (':' :: (space ++ (dumps space v ++ '}' :: rest)))
    have hv := value_dumps hspace v h.1 fuel (by omega) ('}' :: rest) (ends_cons (by decide))
    rw [htext]
    simp only [members, if_true, hscan, Option.bind_some, hcolon, skip_space hspace, hskip, hv,
      hclose, String.ofList_toList]
  | cons f fields =>
    obtain ⟨key', v'⟩ := f
    rw [dumpFields, if_neg (by simp)] at hfuel ⊢
    simp only [List.length_append, List.length_cons, List.append_assoc, List.cons_append]
      at hfuel ⊢
    obtain ⟨text, htext, hscan⟩ := scanString_dumpString key (':' :: (space ++ (dumps space v ++
      ',' :: (space ++ (dumpFields space ((key', v') :: fields) ++ '}' :: rest)))))
    have hv := value_dumps hspace v h.1 fuel (by omega)
      (',' :: (space ++ (dumpFields space ((key', v') :: fields) ++ '}' :: rest)))
      (ends_cons (by decide))
    have hfields := members_dumps hspace key' v' fields h.2 fuel (by omega) rest
    obtain ⟨cs', hc'⟩ := dumpFields_head space (key', v') fields
    have hskip' : skip (dumpFields space ((key', v') :: fields) ++ '}' :: rest) =
        dumpFields space ((key', v') :: fields) ++ '}' :: rest := by
      rw [hc', List.cons_append, skip_cons (by decide)]
    rw [htext]
    simp only [members, if_true, hscan, Option.bind_some, hcolon, skip_space hspace, hskip, hv,
      hcomma, hskip', hfields, Option.map_some, String.ofList_toList]
termination_by fuel

end

/-- What `json.dumps` writes is read by `json.loads` as the same value. -/
theorem loads_dumps (hspace : ∀ c ∈ space, isBlank c = true) {v : Value} (h : WellFormed v) :
    loads (dumps space v) = some v := by
  obtain ⟨c, cs, hc, hblank, -⟩ := dumps_head space h
  have hv := value_dumps hspace v h ((dumps space v).length + 1) (by omega) [] rfl
  rw [List.append_nil] at hv
  have hskip : skip (dumps space v) = dumps space v := by rw [hc, skip_cons hblank]
  rw [loads, hskip, hv]
  rfl

theorem dumps_injective (hspace : ∀ c ∈ space, isBlank c = true) {v w : Value} (hv : WellFormed v)
    (hw : WellFormed w) (h : dumps space v = dumps space w) : v = w := by
  have hloads := loads_dumps hspace hw
  rw [← h, loads_dumps hspace hv] at hloads
  exact Option.some.inj hloads

theorem dumpAll_strings (l : List String) :
    dumpAll [' '] (l.map .string) = [',', ' '].intercalate (l.map dumpString) := by
  induction l with
  | nil => rfl
  | cons s l ih =>
    cases l with
    | nil => simp [dumpAll, dumps]
    | cons s' l =>
      rw [List.map_cons, dumpAll, ih, if_neg (by simp)]
      simp [dumps, List.intercalate]

theorem allWellFormed_strings (l : List String) : AllWellFormed (l.map .string) := by
  induction l with
  | nil => exact trivial
  | cons s l ih => exact ⟨trivial, ih⟩

/-- Lists of texts that are written alike are the same. -/
theorem dumps_strings_injective {l l' : List String} (h : Json.dumps l = Json.dumps l') :
    l = l' := by
  have hall : ∀ k : List String, WellFormed (.array (k.map .string)) := by
    intro k
    rw [WellFormed]
    exact allWellFormed_strings k
  have htext : ∀ k : List String,
      (Json.dumps k).toList = dumps [' '] (.array (k.map .string)) := by
    intro k
    rw [dumps, dumpAll_strings, Json.dumps, String.toList_ofList]
    rfl
  have heq : Value.array (l.map .string) = .array (l'.map .string) := by
    have hspace : ∀ c ∈ [' '], isBlank c = true := by simp [isBlank]
    apply dumps_injective hspace (hall l) (hall l')
    rw [← htext, ← htext, h]
  have hmap := Value.array.inj heq
  exact (List.map_injective_iff.mpr fun _ _ h ↦ Value.string.inj h) hmap

end Values

end NoreplyGateway.JsonText
