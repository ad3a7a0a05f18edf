import NoreplyGateway.Base64
import NoreplyGateway.Message.Faithful

namespace NoreplyGateway.Upstream

open Base64

/-- The text behind the first occurrence of a tag. -/
def behind (tag : List Char) : List Char → Option (List Char)
  | [] => if tag = [] then some [] else none
  | c :: text =>
    if tag.isPrefixOf (c :: text) then some ((c :: text).drop tag.length) else behind tag text

theorem length_of_behind {tag text rest : List Char} (h : behind tag text = some rest) :
    tag.length ≤ text.length := by
  induction text with
  | nil =>
    rw [behind] at h
    split_ifs at h with htag
    rw [htag]
  | cons c text ih =>
    rw [behind] at h
    split_ifs at h with hprefix
    · exact (List.isPrefixOf_iff_prefix.mp hprefix).length_le
    · exact (ih h).trans (Nat.le_succ _)

theorem behind_append {tag text rest more : List Char} (h : behind tag text = some rest) :
    behind tag (text ++ more) = some (rest ++ more) := by
  induction text with
  | nil =>
    rw [behind] at h
    split_ifs at h with htag
    obtain rfl := Option.some.inj h
    rw [htag]
    cases more <;> rfl
  | cons c text ih =>
    rw [behind] at h
    split_ifs at h with hprefix
    · obtain rfl := Option.some.inj h
      have hle := List.isPrefixOf_iff_prefix.mp hprefix
      have hmore : tag.isPrefixOf (c :: (text ++ more)) = true :=
        List.isPrefixOf_iff_prefix.mpr (hle.trans (List.prefix_append (c :: text) more))
      rw [List.cons_append, behind, if_pos hmore, ← List.cons_append,
        List.drop_append_of_le_length hle.length_le]
    · -- an occurrence across the seam would be longer than the one that is found
      have hmore : ¬tag.isPrefixOf (c :: (text ++ more)) = true := by
        intro hp
        refine hprefix (List.isPrefixOf_iff_prefix.mpr ?_)
        exact List.prefix_of_prefix_length_le (List.isPrefixOf_iff_prefix.mp hp)
          (List.prefix_append (c :: text) more) ((length_of_behind h).trans (Nat.le_succ _))
      rw [List.cons_append, behind, if_neg hmore]
      exact ih h

def mimeTag : String := "<t:MimeContent CharacterSet=\"UTF-8\">"

/-- `ews_request` up to the MIME content. -/
def ewsHead (saveInSent : Bool) : String :=
  String.join ["<?xml version=\"1.0\" encoding=\"utf-8\"?>",
    "<s:Envelope xmlns:s=\"http://schemas.xmlsoap.org/soap/envelope/\" ",
    "xmlns:m=\"http://schemas.microsoft.com/exchange/services/2006/messages\" ",
    "xmlns:t=\"http://schemas.microsoft.com/exchange/services/2006/types\">",
    "<s:Header><t:RequestServerVersion Version=\"Exchange2013_SP1\"/></s:Header>",
    "<s:Body><m:CreateItem MessageDisposition=\"",
    if saveInSent then "SendAndSaveCopy" else "SendOnly", "\">",
    if saveInSent then
      "<m:SavedItemFolderId><t:DistinguishedFolderId Id=\"sentitems\"/></m:SavedItemFolderId>"
    else "",
    "<m:Items><t:Message>", mimeTag]

/-- `ews_request`. The content type is the one that the email package finds in a
header block. -/
def ewsRequest (contentType : Octets → String) (mime : Octets) (saveInSent : Bool) : String :=
  let head := ((splitHead mime).map (·.1)).getD mime
  let itemClass := if contentType (head ++ crlfcrlf) = "multipart/report" then
    "<t:ItemClass>REPORT.IPM.Note.IPNRN</t:ItemClass>" else ""
  ewsHead saveInSent ++ String.ofList (encode mime) ++
    "</t:MimeContent>" ++ itemClass ++ "</t:Message></m:Items></m:CreateItem></s:Body></s:Envelope>"

/-- The body of the POST that `send` issues, which is ASCII text. -/
def payload (contentType : Octets → String) (account : AccountConfig) (mime : Octets) : String :=
  match account.backend with
  | .graph => String.ofList (encode mime)
  | .ews => ewsRequest contentType mime account.saveInSent

/-- The MIME that a payload carries: base64 as it is, or in the MimeContent of the
request. -/
def carried (backend : BackendKind) (payload : String) : Option Octets :=
  match backend with
  | .graph => decode payload.toList
  | .ews => (behind mimeTag.toList payload.toList).bind (fun text ↦ decode (text.takeWhile (· ≠ '<')))

theorem encode_takeWhile (l : Octets) (text : List Char) :
    (encode l ++ '<' :: text).takeWhile (· ≠ '<') = encode l := by
  have hne : ∀ c ∈ encode l, (decide (c ≠ '<')) = true := by
    intro c hc
    rcases mem_alphabet_of_encode hc with hc | rfl
    · have hlt : '<' ∉ alphabet := by decide +kernel
      exact decide_eq_true (fun h ↦ hlt (h ▸ hc))
    · rfl
  rw [List.takeWhile_append_of_pos hne]
  simp

theorem carried_payload (contentType : Octets → String) (account : AccountConfig) (mime : Octets) :
    carried account.backend (payload contentType account mime) = some mime := by
  cases hb : account.backend with
  | graph => simp [carried, payload, hb, decode_encode]
  | ews =>
    have hhead : behind mimeTag.toList (ewsHead account.saveInSent).toList = some [] := by
      rw [ewsHead, String.toList_join]
      cases account.saveInSent <;> decide +kernel
    have hbody : ∃ tail, (ewsRequest contentType mime account.saveInSent).toList =
        (ewsHead account.saveInSent).toList ++ (encode mime ++ '<' :: tail) := by
      have hclose : "</t:MimeContent>".toList = '<' :: "/t:MimeContent>".toList := by decide +kernel
      simp only [ewsRequest, String.toList_append, String.toList_ofList, List.append_assoc, hclose,
        List.cons_append]
      exact ⟨_, rfl⟩
    obtain ⟨tail, htail⟩ := hbody
    simp only [carried, payload, hb, htail, behind_append hhead, List.nil_append, Option.bind_some,
      encode_takeWhile, decode_encode]

end NoreplyGateway.Upstream
