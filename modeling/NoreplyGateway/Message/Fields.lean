import NoreplyGateway.Message
import NoreplyGateway.Outcome

namespace NoreplyGateway

/-- Why `prepare_message` gives up: its own MessageRejected, or an exception of
Python or of the email package. -/
inductive Rejection
  | rejected (message : String)
  | raised (name : String)
  deriving DecidableEq

/-- The value of a field: text from the source, which may be folded, or a header
that the program has set. -/
inductive FieldValue
  | source (text : String)
  | set (text : String)
  deriving DecidableEq

structure Field where
  name : String
  value : FieldValue
  deriving DecidableEq

/-- A header as the email package reads it: its text, its defects, and the
addresses in it. -/
abbrev Header := SenderHeader

/-- The parser, the header registry and the generator of the email package.
Reading a header may raise, and so may writing a message. -/
structure HeaderRegistry where
  parsebytes : Octets → List Field × Bool
  header : String → String → Option Header
  asBytes : List Field → Option Octets

/-- `splitlines` finds more than one line. -/
def multiline : List Char → Bool
  | [] => false
  | '\r' :: '\n' :: text => !text.isEmpty
  | c :: text =>
    if c.toNat ∈ [10, 11, 12, 13, 28, 29, 30, 0x85, 0x2028, 0x2029] then !text.isEmpty
    else multiline text

/-- Headers that the SMTP policy allows once. -/
def onceOnly : List String := ["subject", "date", "orig-date", "sender", "to", "cc", "bcc", "from",
  "reply-to", "mime-version", "content-type", "content-disposition", "content-transfer-encoding",
  "message-id"]

namespace Field

variable (registry : HeaderRegistry) (f : Field)

def named (name : String) : Bool := casefold f.name = casefold name

/-- The policy removes the line ends of folded text when a header is read. -/
def read : Option Header :=
  match f.value with
  | .source text =>
    registry.header f.name (String.ofList (text.toList.filter (fun c ↦ c ≠ '\r' ∧ c ≠ '\n')))
  | .set text => registry.header f.name text

end Field

namespace Fields

variable (registry : HeaderRegistry) (fields : List Field) (name : String)

def ofName : List Field := fields.filter (·.named name)

/-- `del message[name]`. -/
def delete : List Field := fields.filter (fun f ↦ !f.named name)

def readField (f : Field) : Except Rejection Header :=
  match f.read registry with
  | some h => .ok h
  | none => .error (.raised "Exception")

def getAll : Except Rejection (List Header) :=
  (ofName fields name).mapM (readField registry)

/-- `message[name]`: the first header of the name. -/
def get : Except Rejection (Option Header) :=
  match fields.find? (·.named name) with
  | none => .ok none
  | some f => (readField registry f).map some

/-- `message[name] = value`. -/
def setItem (value : String) : Except Rejection (List Field) :=
  if casefold name ∈ onceOnly ∧ fields.any (·.named name) then .error (.raised "ValueError")
  else if multiline value.toList then .error (.raised "ValueError")
  else if (registry.header name value).isNone then .error (.raised "Exception")
  else .ok (fields ++ [⟨name, .set value⟩])

/-- `replace_header`: the first header of the name gets another value. -/
def replaceHeader (value : String) : List Field → Except Rejection (List Field)
  | [] => .error (.raised "KeyError")
  | f :: fields =>
    if f.named name then
      if multiline value.toList then .error (.raised "ValueError")
      else if (registry.header f.name value).isNone then .error (.raised "Exception")
      else .ok (⟨f.name, .set value⟩ :: fields)
    else (replaceHeader value fields).map (f :: ·)

/-- The headers of a name. -/
def headers : List Header := (ofName fields name).filterMap (Field.read registry)

variable {registry} {fields} {fields' : List Field} {name} {n value : String} {f : Field} {h : Header}

theorem named_congr (hn : casefold n = casefold name) : f.named n = f.named name := by
  rw [Field.named, Field.named, hn]

theorem ofName_congr (hn : casefold n = casefold name) : ofName fields n = ofName fields name :=
  List.filter_congr (fun _ _ ↦ named_congr hn)

/-- The fields of other names stay as they are. -/
def Frame (names : List String) (fields fields' : List Field) : Prop :=
  ∀ name, casefold name ∉ names.map casefold → ofName fields' name = ofName fields name

theorem Frame.refl (names : List String) (fields : List Field) : Frame names fields fields :=
  fun _ _ ↦ rfl

theorem Frame.trans {names names' : List String} {fields'' : List Field}
    (h : Frame names fields fields') (h' : Frame names' fields' fields'') :
    Frame (names ++ names') fields fields'' := by
  intro name hn
  rw [List.map_append, List.mem_append, not_or] at hn
  rw [h' name hn.2, h name hn.1]

end Fields

end NoreplyGateway
