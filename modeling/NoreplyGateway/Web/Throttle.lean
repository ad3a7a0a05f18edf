import NoreplyGateway.PyText
import NoreplyGateway.Web.Request

namespace NoreplyGateway.Web

/-- The instants of the sign-in attempts of each client, oldest first. -/
abbrev Attempts := List (String × List Time)

namespace Attempts

def windowSeconds : ℕ := 900
def perClientLimit : ℕ := 5
def globalLimit : ℕ := 40

/-- The attempts that are still inside the window. -/
def prune (attempts : Attempts) (now : Time) : Attempts :=
  (attempts.map fun (key, instants) ↦ (key, instants.dropWhile (· < now - windowSeconds))).filter
    (fun entry ↦ !entry.2.isEmpty)

/-- `self.attempts[key]`, which enters a key that is missing. -/
def touch (attempts : Attempts) (key : String) : Attempts :=
  if (attempts.lookup key).isSome then attempts else attempts ++ [(key, [])]

def total (attempts : Attempts) : ℕ := (attempts.map (·.2.length)).sum

def record (attempts : Attempts) (key : String) (now : Time) : Attempts :=
  attempts.map fun (k, instants) ↦ (k, if k = key then instants ++ [now] else instants)

/-- The oldest attempt of all, which raises where a client has none. -/
def oldest (attempts : Attempts) : Option Time :=
  (List.mapM (fun entry : String × List Time ↦ entry.2.head?) attempts).bind List.min?

def retryAfter (now oldest : Time) : ℤ := max 1 ⌈(windowSeconds : ℚ) - (now - oldest)⌉

end Attempts

def clientKey (urls : UrlLibrary) (config : Config) (r : Request) : Except Reply String :=
  let peer := if r.remote.getD "" = "" then "unknown" else r.remote.getD ""
  let forwarded := r.forwarded.headD ""
  if peer ∉ config.web.trustedProxyIps ∨ forwarded = "" then .ok peer
  else
    let last := (forwarded.toList.splitOn ',').getLastD []
    match urls.ipAddress (String.ofList (PyText.strip last)) with
    | some key => .ok key
    | none => .error (.valueError "Invalid forwarded client address")

/-- The start of `login`: the attempts that it leaves, and its answer unless the
attempt is admitted. -/
def throttle (urls : UrlLibrary) (config : Config) (attempts : Attempts) (r : Request) (now : Time) :
    Attempts × Option Reply :=
  let pruned := attempts.prune now
  match clientKey urls config r with
  | .error reply => (pruned, some reply)
  | .ok key =>
    let attempts := pruned.touch key
    let client := (attempts.lookup key).getD []
    let clientLimit := Attempts.perClientLimit ≤ client.length
    let globalLimit := Attempts.globalLimit ≤ attempts.total
    if clientLimit ∨ globalLimit then
      let oldest := (if clientLimit then [client.head?] else []) ++
        if globalLimit then [attempts.oldest] else []
      match (oldest.mapM id).bind List.max? with
      | some oldest => (attempts, some {
          status := 429
          error := some "Too many sign-in attempts; try again later"
          retryAfter := some (Attempts.retryAfter now oldest) })
      | none => (attempts, some .internal)
    else (attempts.record key now, none)

end NoreplyGateway.Web
