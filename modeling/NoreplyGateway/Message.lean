import NoreplyGateway.Config

namespace NoreplyGateway

/-- What the email package makes of an address. -/
structure EmailAddress where
  username : String
  domain : String
  addrSpec : String

/-- A From header as the email package parses it: its text, and the mailboxes
in it. -/
structure SenderHeader where
  text : String
  defective : Bool
  addresses : List String

/-- The email package, as far as the gateway asks it about senders: parsing an
addr-spec, and reading the From header of a header block. -/
structure EmailPackage where
  address : String → Option EmailAddress
  fromHeader : Octets → Option SenderHeader

/-- `str.strip` on printable ASCII. -/
def strip (s : List Char) : List Char :=
  ((s.dropWhile (· = ' ')).reverse.dropWhile (· = ' ')).reverse

def mailbox (email : EmailPackage) (value : String) (allowEmpty : Bool) : Except String String :=
  if value = "" ∧ allowEmpty = true then .ok ""
  else if value.toList.any (fun c ↦ c.toNat < 32 ∨ c.toNat = 127) ∨ value.length > 254 then
    .error "Invalid mailbox"
  else
    let address := if value.toList.all (·.toNat < 128) then email.address value else none
    match address with
    | none => .error "Invalid mailbox; SMTPUTF8 addresses are not supported"
    | some a =>
      if a.username = "" ∨ a.domain = "" ∨ strip value.toList ≠ value.toList then
        .error "A complete addr-spec is required"
      else .ok a.addrSpec

/-- Head and body on the two sides of the first empty line. -/
def splitHead : Octets → Option (Octets × Octets)
  | 13 :: 10 :: 13 :: 10 :: body => some ([], body)
  | c :: l => (splitHead l).map (fun p ↦ (c :: p.1, p.2))
  | [] => none

/-- The sender that `prepare_message` settles on once Resent headers are
resolved, and whether it rewrote the From header to get there. -/
def effectiveFrom (email : EmailPackage) (config : Config) (additionalSender : String)
    (header : Option SenderHeader) : Except String (String × Bool) :=
  match header with
  | some ⟨text, false, [address]⟩ =>
    if config.account.natMarker.toList <:+: text.toList then
      if config.account.sender = "" then
        .error "NAT sender rewriting requires a configured legacy sender"
      else .ok (config.account.sender, true)
    else match mailbox email address false with
      | .error e => .error e
      | .ok m =>
        let enabled := [config.account.sender, additionalSender].filter (· ≠ "")
        if casefold m ∈ enabled.map casefold then .ok (address, false)
        else .error "From must match a connected sender address"
  | _ => .error "Exactly one valid From mailbox is required"

/-- Plain addresses, and a From header that stands first and holds only one. -/
def plainEmail : EmailPackage where
  address value :=
    let (username, domain) := value.toList.span (· ≠ '@')
    some ⟨String.ofList username, String.ofList (domain.drop 1), value⟩
  fromHeader head :=
    if head.take 6 = ascii "From: " then
      let address := String.ofList
        (((head.drop 6).takeWhile (· ≠ 13)).map (fun b ↦ Char.ofNat b.toNat))
      some ⟨address, false, [address]⟩
    else none

end NoreplyGateway
