import NoreplyGateway.Lines
import NoreplyGateway.Message.Stages

namespace NoreplyGateway

open Fields Lines Outcome PyText

variable {email : EmailPackage} {registry : HeaderRegistry} {fields : List Field}

section Head

theorem splitHead_cons (c : UInt8) (l : Octets) : splitHead (c :: l) =
    if (c :: l).take 4 = crlfcrlf then some ([], (c :: l).drop 4)
    else (splitHead l).map (fun p ↦ (c :: p.1, p.2)) := by
  split_ifs with h
  · obtain ⟨rest, hrest⟩ : ∃ rest, c :: l = crlfcrlf ++ rest :=
      ⟨(c :: l).drop 4, by rw [← h, List.take_append_drop]⟩
    rw [hrest]
    rfl
  · rw [splitHead]
    rintro body hc rfl
    exact h (by rw [hc]; rfl)

/-- A split depends on no octet behind the empty line. -/
theorem splitHead_eq_some {l head tail : Octets} (h : splitHead l = some (head, tail)) :
    l = head ++ crlfcrlf ++ tail ∧
      ∀ rest, splitHead (head ++ crlfcrlf ++ rest) = some (head, rest) := by
  induction l generalizing head with
  | nil => cases h
  | cons c l ih =>
    rw [splitHead_cons] at h
    split_ifs at h with hc
    · cases h
      refine ⟨?_, fun _ ↦ rfl⟩
      rw [List.nil_append, ← hc, List.take_append_drop]
    · obtain ⟨⟨head', tail'⟩, hl, hp⟩ := Option.map_eq_some_iff.mp h
      obtain ⟨rfl, rfl⟩ := Prod.mk.inj hp
      obtain ⟨rfl, hrest⟩ := ih hl
      refine ⟨rfl, fun rest ↦ ?_⟩
      have htake : ∀ rest : Octets, (c :: (head' ++ crlfcrlf ++ rest)).take 4 =
          (c :: (head' ++ crlfcrlf)).take 4 := by
        intro rest
        rw [← List.cons_append]
        refine List.take_append_of_le_length ?_
        simp only [List.length_cons, List.length_append, crlfcrlf, List.length_nil]
        omega
      rw [List.cons_append, List.cons_append, splitHead_cons, htake rest, ← htake tail', if_neg hc,
        hrest]
      rfl

end Head

/-- The name of a field, and the addresses that are read in it. -/
def Field.view (registry : HeaderRegistry) (f : Field) : String × Option (List String) :=
  (casefold f.name, (f.read registry).map (·.addresses))

/-- The addresses of each header of a name. -/
def Fields.reads (registry : HeaderRegistry) (fields : List Field) (name : String) :
    List (Option (List String)) :=
  (ofName fields name).map (fun f ↦ (f.read registry).map (·.addresses))

/-- The email package reads back what it has written: addresses as they are set,
alone in From or joined in Bcc, and a message with the fields it was written from. -/
structure Faithful (email : EmailPackage) (registry : HeaderRegistry) : Prop where
  normal : ∀ {name text address m : String} {header : Header}, registry.header name text = some header →
    address ∈ header.addresses → mailbox email address false = .ok m → m = address
  address : ∀ {name value m : String} {header : Header}, casefold name = casefold "From" →
    mailbox email value false = .ok m → registry.header name m = some header →
    header.addresses = [m]
  join : ∀ {previous : List Header} {missing : List String} {header : Header},
    (∀ h ∈ previous, h.defective = false ∧
      ∃ name text, casefold name = casefold "Bcc" ∧ registry.header name text = some h) →
    (∀ m ∈ missing, ∃ value, mailbox email value false = .ok m) →
    registry.header "Bcc" (", ".intercalate (previous.map (·.text) ++ missing)) = some header →
    header.addresses = previous.flatMap (·.addresses) ++ missing
  serialize : ∀ {fields : List Field} {octets : Octets}, registry.asBytes fields = some octets →
    ∃ head tail, splitHead octets = some (head, tail) ∧
      (registry.parsebytes (head ++ crlfcrlf)).1.map (·.view registry) =
        fields.map (·.view registry)

section Serialize

end Serialize

/-! An email package for plain headers: unfolded ASCII text, and addresses without
names, comments or quotes between commas. -/

section Plain

def separates (c : Char) : Bool := c = ',' ∨ c = ' '

def plainMail : EmailPackage where
  address value := if value.toList.any separates then none else plainEmail.address value
  fromHeader := plainEmail.fromHeader

/-- The addresses in a text. -/
def plainAddresses (text : String) : List String :=
  ((text.toList.splitOnP separates).filter (fun word ↦ !word.isEmpty)).map String.ofList

def plainHeader (name text : String) : Option Header :=
  some ⟨text, false, if casefold name ∈ (["From", "Sender"] ++ recipientNames).map casefold then
    plainAddresses text else []⟩

def plainLine (line : Octets) : Option Field :=
  let text := (line.filter (fun b ↦ b ≠ 13 ∧ b ≠ 10)).map (fun b ↦ Char.ofNat b.toNat)
  match partition ':' text with
  | (name, true, value) => some ⟨String.ofList name, .source (String.ofList (PyText.strip value))⟩
  | (_, false, _) => none

def plainParse (octets : Octets) : List Field × Bool := ((lines 10 octets).filterMap plainLine, false)

def plainText : Field → Octets
  | ⟨name, .source text⟩ | ⟨name, .set text⟩ => ascii (name ++ ": " ++ text ++ "\r\n")

/-- It writes only what it reads back. -/
def plainRegistry : HeaderRegistry where
  parsebytes := plainParse
  header := plainHeader
  asBytes fields :=
    let view := Field.view ⟨plainParse, plainHeader, fun _ ↦ none⟩
    let octets := fields.flatMap plainText ++ [13, 10]
    match splitHead octets with
    | none => none
    | some (head, _) =>
      if (plainParse (head ++ crlfcrlf)).1.map view = fields.map view then some octets else none

theorem plainAddresses_append (s t : String) :
    plainAddresses (s ++ ", " ++ t) = plainAddresses s ++ plainAddresses t := by
  have htext : (s ++ ", " ++ t).toList = s.toList ++ ',' :: ' ' :: t.toList := by simp
  have hsep : separates ' ' = true := by decide
  have hblank : (' ' :: t.toList).splitOnP separates = [] :: t.toList.splitOnP separates :=
    List.splitOnP_append_cons [] t.toList hsep
  rw [plainAddresses, htext, List.splitOnP_append_cons _ _ (by decide), hblank]
  simp [plainAddresses]

theorem plainAddresses_intercalate (texts : List String) :
    plainAddresses (", ".intercalate texts) = texts.flatMap plainAddresses := by
  induction texts with
  | nil => rfl
  | cons text texts ih =>
    cases texts with
    | nil => simp
    | cons next texts =>
      rw [String.intercalate_cons_cons, plainAddresses_append, ih]
      rfl

theorem plain_mailbox {value m : String} (h : mailbox plainMail value false = .ok m) :
    m = value ∧ plainAddresses value = [value] := by
  unfold mailbox at h
  simp only [Bool.false_eq_true, and_false, if_false] at h
  split_ifs at h with hcontrol hascii
  split at h
  · cases h
  next address haddress =>
    split_ifs at h with hcomplete
    obtain rfl := Except.ok.inj h
    simp only [plainMail, plainEmail] at haddress
    split_ifs at haddress with hseparates
    obtain rfl := Option.some.inj haddress
    refine ⟨rfl, ?_⟩
    rw [plainAddresses, List.splitOnP_eq_singleton (by simpa using hseparates)]
    have hne : value.toList ≠ [] := by
      intro hempty
      simp [hempty] at hcomplete
    simp [hne]

theorem plain_faithful : Faithful plainMail plainRegistry where
  normal := by
    intro name text address m header hheader haddress hm
    exact (plain_mailbox hm).1
  address := by
    intro name value m header hname hm hheader
    obtain ⟨rfl, hwords⟩ := plain_mailbox hm
    obtain rfl := Option.some.inj hheader
    rw [hname]
    exact hwords
  join := by
    intro previous missing header hprevious hmissing hheader
    obtain rfl := Option.some.inj hheader
    have htexts : ∀ h ∈ previous, plainAddresses h.text = h.addresses := by
      intro h hmem
      obtain ⟨-, name, text, hname, hheader⟩ := hprevious h hmem
      obtain rfl := Option.some.inj hheader
      rw [hname]
      rfl
    have hwords : ∀ m ∈ missing, plainAddresses m = [m] := by
      intro m hmem
      obtain ⟨value, hvalue⟩ := hmissing m hmem
      obtain ⟨rfl, hwords⟩ := plain_mailbox hvalue
      exact hwords
    change plainAddresses _ = _
    rw [plainAddresses_intercalate, List.flatMap_append, List.flatMap_map,
      List.flatMap_congr htexts, List.flatMap_congr hwords]
    simp
  serialize := by
    intro fields octets h
    simp only [plainRegistry] at h
    split at h
    · cases h
    next head tail hsplit =>
      split_ifs at h with hview
      obtain rfl := Option.some.inj h
      exact ⟨head, tail, hsplit, hview⟩

end Plain

end NoreplyGateway
