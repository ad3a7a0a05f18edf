import NoreplyGateway.Message.Faithful

namespace NoreplyGateway

open Distinct Fields Outcome

variable {email : EmailPackage} {registry : HeaderRegistry} {config : Config}
  {fields fields' : List Field} {name : String}

section Sender

end Sender

section Final

theorem parseHead_eq_ok {raw body : Octets}
    (h : parseHead registry config raw = .ok (fields, body)) : ∃ head,
      splitHead raw = some (head, body) ∧ fields = (registry.parsebytes (head ++ crlfcrlf)).1 := by
  unfold parseHead at h
  split_ifs at h
  split at h
  · cases h
  next head body' hsplit =>
    split_ifs at h
    dsimp only at h
    split_ifs at h
    cases h
    exact ⟨head, hsplit, rfl⟩

def plainConfig : Config where
  account := { sender := "gateway@example.test" }

def plainDate : String := "Mon, 01 Jan 2024 00:00:00 GMT"

end Final

end NoreplyGateway
