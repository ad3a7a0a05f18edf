import NoreplyGateway.Message.Sender

namespace NoreplyGateway

open Distinct Fields Outcome PyText

variable {email : EmailPackage} {registry : HeaderRegistry} {config : Config}
  {fields fields' : List Field} {name : String}

section Headers

end Headers

section Merge

variable {recipients envelope effective : List String} {shown : List (List String)}

theorem Merged.nodup
    (hm : Merged email registry config fields recipients envelope shown fields' effective) :
    (effective.map casefold).Nodup := by
  rw [hm.rows]
  exact Table.nodup _

end Merge

end NoreplyGateway
