import NoreplyGateway.Web.Throttle

namespace NoreplyGateway.Web

/-- The address of the other end of the connection. -/
def Request.peer (r : Request) : String := if r.remote.getD "" = "" then "unknown" else r.remote.getD ""

variable {urls : UrlLibrary} {config : Config} {r r₁ r₂ : Request} {a key : String}

def sampleAddresses : UrlLibrary where
  urlsplit := fun _ ↦ none
  parseQsl := fun _ ↦ []
  ipAddress := fun text ↦
    if text ∈ ["192.0.2.7", "198.51.100.1", "198.51.100.2"] then some text else none

end NoreplyGateway.Web
