import NoreplyGateway.PyFloat

/-! A reader of TOML 1.0: comments, tables, keys of one part, and the values that
a configuration has. Literal and multi-line strings, dotted keys, inline tables,
arrays of tables, dates and times are refused. -/

namespace NoreplyGateway.Toml

inductive Value
  | string (s : String)
  | integer (n : ℤ)
  | float (x : PyFloat)
  | boolean (b : Bool)
  | array (l : List Value)

/-- The top level of a document, and its tables with the current one first. -/
structure Document where
  root : List (String × Value) := []
  tables : List (String × List (String × Value)) := []

def quote : Char := Char.ofNat 34

def backslash : Char := Char.ofNat 92

def unsupported : String := "Unsupported syntax"

def isBlank (c : Char) : Bool := c = ' ' ∨ c = '\t'

/-- Control characters other than the tab. -/
def isIllegal (c : Char) : Bool := c ≠ '\t' ∧ (c.toNat < 32 ∨ c.toNat = 127)

def isBareKey (c : Char) : Bool := c.isAlphanum ∨ c = '-' ∨ c = '_'

def skipBlank (cs : List Char) : List Char := cs.dropWhile isBlank

section Strings

def hexValue (c : Char) : Option ℕ :=
  if c.isDigit then some (c.toNat - 48)
  else if 'a' ≤ c ∧ c ≤ 'f' then some (c.toNat - 87)
  else if 'A' ≤ c ∧ c ≤ 'F' then some (c.toNat - 55)
  else none

def isScalar (n : ℕ) : Bool := n ≤ 55295 ∨ 57344 ≤ n ∧ n ≤ 1114111

/-- Where the reader of a basic string stands: between two characters, behind a
backslash, or in an escape with so many digits to come. -/
inductive StringState
  | plain
  | escape
  | hex (left : ℕ) (value : ℕ)

def replacement (c : Char) : Option Char :=
  if c = 'b' then some (Char.ofNat 8)
  else if c = 't' then some '\t'
  else if c = 'n' then some '\n'
  else if c = 'f' then some (Char.ofNat 12)
  else if c = 'r' then some '\r'
  else if c = quote ∨ c = backslash then some c
  else none

/-- A character in front of what is read. -/
def prepend (c : Char) (x : Except String (List Char × List Char)) :
    Except String (List Char × List Char) :=
  x.map (fun r ↦ (c :: r.1, r.2))

/-- `parse_basic_str` on one line, behind the opening quote. -/
def basicString : StringState → List Char → Except String (List Char × List Char)
  | .plain, [] => .error "Unterminated string"
  | .escape, [] => .error "Unescaped backslash in a string"
  | .hex _ _, [] => .error "Invalid hex value"
  | .plain, c :: cs =>
    if c = quote then .ok ([], cs)
    else if c = backslash then basicString .escape cs
    else if isIllegal c then .error "Illegal character"
    else prepend c (basicString .plain cs)
  | .escape, c :: cs =>
    if c = 'u' then basicString (.hex 4 0) cs
    else if c = 'U' then basicString (.hex 8 0) cs
    else match replacement c with
      | some d => prepend d (basicString .plain cs)
      | none => .error "Unescaped backslash in a string"
  | .hex left value, c :: cs =>
    match hexValue c with
    | none => .error "Invalid hex value"
    | some d =>
      if 1 < left then basicString (.hex (left - 1) (16 * value + d)) cs
      else if isScalar (16 * value + d) then
        prepend (Char.ofNat (16 * value + d)) (basicString .plain cs)
      else .error "Escaped character is not a Unicode scalar value"

end Strings

section Numbers

/-- The digits of a number, between which single underscores may stand. -/
def digitRun (isDigit : Char → Bool) : List Char → List Char × List Char
  | [] => ([], [])
  | c :: cs =>
    if isDigit c then (c :: (digitRun isDigit cs).1, (digitRun isDigit cs).2)
    else if c = '_' ∧ cs.head?.any isDigit then digitRun isDigit cs
    else ([], c :: cs)

def fraction (cs : List Char) : List Char × List Char :=
  match cs with
  | '.' :: d :: cs =>
    if d.isDigit then ('.' :: (digitRun Char.isDigit (d :: cs)).1,
      (digitRun Char.isDigit (d :: cs)).2)
    else ([], '.' :: d :: cs)
  | cs => ([], cs)

def sign (cs : List Char) : List Char × List Char :=
  match cs with
  | '+' :: cs => (['+'], cs)
  | '-' :: cs => (['-'], cs)
  | cs => ([], cs)

def exponent (cs : List Char) : List Char × List Char :=
  match cs with
  | e :: cs =>
    if (e = 'e' ∨ e = 'E') ∧ (sign cs).2.head?.any Char.isDigit then
      (e :: (sign cs).1 ++ (digitRun Char.isDigit (sign cs).2).1,
        (digitRun Char.isDigit (sign cs).2).2)
    else ([], e :: cs)
  | [] => ([], [])

/-- The digits in front of the decimal point, which do not start with a
superfluous zero. -/
def whole (cs : List Char) : Option (List Char × List Char) :=
  match cs with
  | '0' :: cs => some (['0'], cs)
  | c :: cs => if c.isDigit then some (digitRun Char.isDigit (c :: cs)) else none
  | [] => none

def radix : Char → Option ℕ
  | 'x' => some 16
  | 'o' => some 8
  | 'b' => some 2
  | _ => none

/-- The conversions between integers and text stop at this number of decimal
digits. -/
def maxDigits : ℕ := 4300

/-- `int` of decimal digits behind a sign. -/
def decimal (sign digits : List Char) : Except String Value :=
  if maxDigits < digits.length then .error "Exceeds the limit for integer string conversion"
  else
    let n : ℤ := Nat.ofDigitChars 10 digits 0
    .ok (.integer (if sign = ['-'] then -n else n))

def prefixed (cs : List Char) : Option (ℤ × List Char) :=
  match cs with
  | '0' :: k :: d :: cs => do
    let base ← radix k
    let isDigit := fun c ↦ (hexValue c).any (· < base)
    if isDigit d then
      let run := digitRun isDigit (d :: cs)
      some (run.1.foldl (fun n c ↦ base * n + (hexValue c).getD 0) 0, run.2)
    else none
  | _ => none

/-- The longest number at the start of the text. -/
def number (float : List Char → PyFloat) (cs : List Char) :
    Option (Except String Value × List Char) :=
  match prefixed cs with
  | some (n, cs) => some (.ok (.integer n), cs)
  | none => (whole (sign cs).2).map fun (digits, cs₁) ↦
    let (frac, cs₂) := fraction cs₁
    let (exp, cs₃) := exponent cs₂
    if frac ++ exp = [] then (decimal (sign cs).1 digits, cs₃)
    else (.ok (.float (float ((sign cs).1 ++ digits ++ frac ++ exp))), cs₃)

end Numbers

/-- The text behind a literal that it starts with. -/
def after (literal : String) (cs : List Char) : Option (List Char) :=
  if literal.toList.isPrefixOf cs then some (cs.drop literal.length) else none

/-- `skip_comments_and_array_ws`, inside a comment or outside of it. -/
def skipArrayBlank : Bool → List Char → Except String (List Char)
  | _, [] => .ok []
  | true, c :: cs =>
    if c = '\n' then skipArrayBlank false cs
    else if isIllegal c then .error "Found invalid character"
    else skipArrayBlank true cs
  | false, c :: cs =>
    if isBlank c ∨ c = '\n' then skipArrayBlank false cs
    else if c = '#' then skipArrayBlank true cs
    else .ok (c :: cs)

/-- Values that are not arrays. -/
def scalar (float : List Char → PyFloat) (cs : List Char) : Except String (Value × List Char) :=
  match after "true" cs, after "false" cs with
  | some rest, _ => .ok (.boolean true, rest)
  | _, some rest => .ok (.boolean false, rest)
  | none, none =>
    match number float cs with
    | some (value, rest) => value.map (·, rest)
    | none =>
      match after "inf" (sign cs).2, after "nan" (sign cs).2 with
      | some rest, _ => .ok (.float (float ((sign cs).1 ++ ['i', 'n', 'f'])), rest)
      | _, some rest => .ok (.float .nan, rest)
      | none, none => .error "Invalid value"

mutual

/-- `parse_value`, to a depth of nesting that the text does not exceed. -/
def value (float : List Char → PyFloat) : ℕ → List Char → Except String (Value × List Char)
  | 0, _ => .error unsupported
  | fuel + 1, cs =>
    match cs with
    | [] => .error "Invalid value"
    | c :: cs =>
      if c = quote then
        if [quote, quote].isPrefixOf cs then .error unsupported
        else (basicString .plain cs).map (fun r ↦ (.string (String.ofList r.1), r.2))
      else if c = '[' then do
        match ← skipArrayBlank false cs with
        | ']' :: cs => .ok (.array [], cs)
        | cs =>
          let r ← items float fuel cs
          .ok (.array r.1, r.2)
      else scalar float (c :: cs)

/-- The elements of an array, from the first one on. -/
def items (float : List Char → PyFloat) : ℕ → List Char →
    Except String (List Value × List Char)
  | 0, _ => .error unsupported
  | fuel + 1, cs => do
    let r ← value float fuel cs
    match ← skipArrayBlank false r.2 with
    | ']' :: cs => .ok ([r.1], cs)
    | ',' :: cs =>
      match ← skipArrayBlank false cs with
      | ']' :: cs => .ok ([r.1], cs)
      | cs =>
        let rest ← items float fuel cs
        .ok (r.1 :: rest.1, rest.2)
    | _ => .error "Unclosed array"

end

/-- A key of one part, and the text behind it. -/
def key (cs : List Char) : Except String (String × List Char) :=
  match cs with
  | [] => .error "Invalid initial character for a key part"
  | c :: cs =>
    if c = quote then (basicString .plain cs).map (fun r ↦ (String.ofList r.1, skipBlank r.2))
    else if isBareKey c then .ok (String.ofList ((c :: cs).takeWhile isBareKey),
      skipBlank ((c :: cs).dropWhile isBareKey))
    else .error "Invalid initial character for a key part"

/-- Add a key to the current table. -/
def assign (doc : Document) (key : String) (value : Value) : Except String Document :=
  match doc.tables with
  | [] =>
    if key ∈ doc.root.map (·.1) then .error "Cannot overwrite a value"
    else .ok { doc with root := doc.root ++ [(key, value)] }
  | (name, entries) :: tables =>
    if key ∈ entries.map (·.1) then .error "Cannot overwrite a value"
    else .ok { doc with tables := (name, entries ++ [(key, value)]) :: tables }

/-- Open a table. -/
def declare (doc : Document) (name : String) : Except String Document :=
  if name ∈ doc.tables.map (·.1) then .error "Cannot declare a table twice"
  else if name ∈ doc.root.map (·.1) then .error "Cannot overwrite a value"
  else .ok { doc with tables := (name, []) :: doc.tables }

/-- `key_value_rule` -/
def pair (float : List Char → PyFloat) (doc : Document) (cs : List Char) :
    Except String (Document × List Char) := do
  let k ← key cs
  match k.2 with
  | '=' :: cs =>
    let v ← value float (cs.length + 1) (skipBlank cs)
    let doc ← assign doc k.1 v.1
    .ok (doc, v.2)
  | _ => .error "Expected '=' after a key in a key/value pair"

/-- `create_dict_rule`, behind the bracket. -/
def header (doc : Document) (cs : List Char) : Except String (Document × List Char) := do
  let k ← key (skipBlank cs)
  let doc ← declare doc k.1
  match k.2 with
  | ']' :: cs => .ok (doc, cs)
  | _ => .error "Expected ']' at the end of a table declaration"

/-- The rest of a line behind a statement. -/
def lineEnd (cs : List Char) : Except String (List Char) :=
  match cs with
  | [] => .ok []
  | '#' :: cs =>
    if (cs.takeWhile (· ≠ '\n')).any isIllegal then .error "Found invalid character"
    else .ok ((cs.dropWhile (· ≠ '\n')).drop 1)
  | '\n' :: cs => .ok cs
  | _ => .error "Expected newline or end of document after a statement"

/-- One statement with its line. -/
def statement (float : List Char → PyFloat) (doc : Document) (cs : List Char) :
    Except String (Document × List Char) :=
  match cs with
  | '[' :: cs => do
    let r ← header doc cs
    let rest ← lineEnd (skipBlank r.2)
    .ok (r.1, rest)
  | '#' :: cs => do
    let rest ← lineEnd ('#' :: cs)
    .ok (doc, rest)
  | cs => do
    let r ← pair float doc cs
    let rest ← lineEnd (skipBlank r.2)
    .ok (r.1, rest)

def statements (float : List Char → PyFloat) : ℕ → Document → List Char → Except String Document
  | 0, _, _ => .error unsupported
  | fuel + 1, doc, cs =>
    match skipBlank cs with
    | [] => .ok doc
    | '\n' :: cs => statements float fuel doc cs
    | cs => do
      let r ← statement float doc cs
      statements float fuel r.1 r.2

/-- `s.replace` of the line ends of two characters. -/
def unixLines : List Char → List Char
  | '\r' :: '\n' :: cs => '\n' :: unixLines cs
  | c :: cs => c :: unixLines cs
  | [] => []

def loads (float : List Char → PyFloat) (text : List Char) : Except String Document :=
  statements float ((unixLines text).length + 1) {} (unixLines text)

end NoreplyGateway.Toml
