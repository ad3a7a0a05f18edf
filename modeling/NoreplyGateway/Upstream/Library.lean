import NoreplyGateway.Config

namespace NoreplyGateway.Upstream

/-- What `json.loads` returns. -/
inductive Value
  | null
  | bool (b : Bool)
  | number (text : String)
  | string (s : String)
  | array (values : List Value)
  | object (fields : List (String × Value))

/-- `dict.get`; every other value has no such method. -/
def Value.get? (v : Value) (key : String) (default : Value) : Option Value :=
  match v with
  | .object fields => some ((fields.lookup key).getD default)
  | _ => none

/-- An element as ElementTree keeps it. -/
inductive Xml
  | element (tag : String) (attributes : List (String × String)) (text : Option String)
      (children : List Xml)

namespace Xml

def tag : Xml → String
  | element t _ _ _ => t

def get (x : Xml) (name : String) : Option String :=
  match x with
  | element _ attributes _ _ => attributes.lookup name

def text : Xml → Option String
  | element _ _ t _ => t

def children : Xml → List Xml
  | element _ _ _ c => c

mutual

/-- The element and everything below it, in document order. -/
def iter : Xml → List Xml
  | element t a x c => element t a x c :: iterAll c

def iterAll : List Xml → List Xml
  | [] => []
  | x :: l => iter x ++ iterAll l

end

/-- `findall(".//tag")`, which leaves out the element itself. -/
def findall (x : Xml) (tag : String) : List Xml := (iterAll x.children).filter (·.tag = tag)

def findtext (x : Xml) (tag : String) (default : String) : String :=
  match x.children.find? (·.tag = tag) with
  | none => default
  | some child => child.text.getD ""

end Xml

/-- An exception of a library call, which is a ValueError or is not caught. -/
inductive PyError
  | valueError
  | other (name : String)

/-- The library functions that interpret what the upstream sent. Where the
result is optional the caller treats every failure alike. -/
structure Library where
  float : String → Option PyFloat
  timestamp : String → Option Time
  loads : Octets → Except PyError Value
  str : Value → Except PyError String
  fromstring : Octets → Option Xml
  sha256 : String → String

/-- `read_limited`, from the chunks of the response body. -/
def readLimited (limit : ℕ) (parts : List Octets) : Option Octets :=
  parts.foldl (fun buffer part ↦ buffer.bind fun b ↦
    if b.length + part.length > limit then none else some (b ++ part)) (some [])

/-- `bytes.lstrip`. -/
def lstrip (content : Octets) : Octets :=
  content.dropWhile (fun b ↦ b = 32 ∨ 9 ≤ b ∧ b ≤ 13)

def retryAfter (lib : Library) (now : Time) (value : Option String) : PyFloat :=
  match value with
  | none => (0 : ℚ)
  | some text =>
    match lib.float text with
    | some delay =>
      if PyFloat.le (0 : ℚ) delay ∧ PyFloat.lt delay PyFloat.inf then delay else (0 : ℚ)
    | none =>
      match lib.timestamp text with
      | some t => PyFloat.max (0 : ℚ) (t - now : ℚ)
      | none => (0 : ℚ)

/-- The characters of an error code that are safe to show, at most a hundred. -/
def safeCode (allowed : List Char) (code : String) : String :=
  String.ofList ((code.toList.filter
    (fun c ↦ c.isAlphanum ∨ c ∈ allowed)).take 100)

end NoreplyGateway.Upstream
