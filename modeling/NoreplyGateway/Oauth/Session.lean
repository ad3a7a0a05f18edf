import NoreplyGateway.Machine
import NoreplyGateway.Oauth.Tokens

namespace NoreplyGateway.Oauth

open Upstream

/-- A call of `complete_login` that has passed its first checks. -/
structure Login where
  task : ℕ
  flow : LoginFlow
  code : String
  deriving DecidableEq

/-- The two callers of `_save_result`, with what they do after it. -/
inductive Caller
  | refresh
  | login (login : Login) (address : String)

def Caller.task? : Caller → Option Login
  | .refresh => none
  | .login l _ => some l

/-- What the task that has the lock waits for. -/
inductive Phase
  | refreshing (mode : String) (data : Fields)
  | exchanging (login : Login) (data : Fields)
  | verifying (login : Login) (result : Fields)
  | profiling (login : Login) (result claims : Fields)
  | saving (caller : Caller) (result : Fields) (token : String)
  | disconnecting (task : ℕ)

/-- The end of a vault write. It may fail before or after the file was replaced. -/
inductive Write
  | done
  | failed (replaced : Bool)
  deriving DecidableEq

inductive Output
  | token (result : Except DeliveryError String)
  | rejected (error : DeliveryError)
  | login (task : ℕ) (result : Except DeliveryError String)
  | disconnected (task : ℕ) (result : Except DeliveryError Unit)

/-- A token manager, the stored record and the tasks that use the manager. The
program does not keep the last four fields: the chain, begun by a login and
continued by its refreshes, that the record and the access token belong to, the
number of chains, and the last reading of the clock. -/
structure Session where
  manager : TokenManager := {}
  vault : Record := {}
  holder : Option Phase := none
  waiting : List Login := []
  recordChain : ℕ := 0
  tokenChain : ℕ := 0
  chains : ℕ := 0
  clock : Time := 0

inductive Event
  | getToken (now : Time)
  | refreshed (post : PostResult) (now : Time)
  | completeLogin (task : ℕ) (flow : LoginFlow) (response : List (String × String)) (now : Time)
  | enter (login : Login)
  | exchanged (post : PostResult)
  | verified (claims : Except DeliveryError Fields) (now : Time)
  | profiled (post : PostResult) (now : Time)
  | saved (write : Write) (now : Time)
  | rejected (token : String)
  | accepted
  | disconnect (task : ℕ)
  | disconnectWritten (write : Write) (now : Time)

def Event.reading : Event → Option Time
  | .getToken now | .refreshed _ now | .completeLogin _ _ _ now | .verified _ now | .profiled _ now
  | .saved _ now | .disconnectWritten _ now => some now
  | _ => none

variable (lib : Library) (email : EmailPackage) (setup : Setup)

namespace Session

variable (s : Session)

/-- `_save_result` up to its write, which replaces the record in memory. -/
def save (caller : Caller) (result : Fields) (mode username defaultSender : String) (now : Time) :
    Except DeliveryError Session :=
  (saveResult setup s.manager.record result mode username defaultSender now).map fun saved ↦
    let chains := match caller with
      | .refresh => s.chains
      | .login .. => s.chains + 1
    { s with
      manager := { s.manager with record := saved.2 }
      holder := some (.saving caller result saved.1)
      recordChain := match caller with
        | .refresh => s.recordChain
        | .login .. => chains
      chains := chains }

/-- An exception in a task that has the lock. -/
def fail (caller : Option Login) (e : DeliveryError) : Session × Option Output :=
  match caller with
  | none =>
    ({ s with manager := refreshFailed s.manager e, holder := none }, some (.token (.error e)))
  | some login => ({ s with holder := none }, some (.login login.task (.error e)))

/-- `complete_login` once the identity of the user is known. -/
def saveLogin (login : Login) (result claims : Fields) (address : String) (now : Time) :
    Session × Option Output :=
  let username := ((claimedUsername claims).string?).getD ""
  match s.save setup (.login login address) result "v2" username address now with
  | .ok s => (s, none)
  | .error e => s.fail (some login) e

/-- `complete_login` after the verification of the ID token. -/
def identify (login : Login) (result claims : Fields) (now : Time) : Session × Option Output :=
  if (((result.lookup "refresh_token").getD .null).truthy) = false then
    s.fail (some login) (.authenticationRequired
      "No refresh token returned; offline_access consent is required")
  else if setup.allowAnyUsername = true then
    match result.lookup "access_token" with
    | none => s.fail (some login) (.unexpected "KeyError")
    | some (.string _) => ({ s with holder := some (.profiling login result claims) }, none)
    | some _ => s.fail (some login) (.authenticationRequired
      "Could not read a valid address from the signed-in Microsoft account")
  else s.saveLogin setup login result claims setup.account.username now

/-- What the caller of `_save_result` does when it returns. -/
def finish : Caller → Session × Option Output
  | .refresh => ({ s with holder := none }, some (.token (.ok s.manager.accessToken)))
  | .login login address =>
    ({ s with manager := loggedIn s.manager, holder := none },
      some (.login login.task (.ok address)))

/-- What follows the vault write of `_save_result`. -/
def persisted (caller : Caller) (result : Fields) (token : String) (write : Write) (now : Time) :
    Session × Option Output :=
  match write with
  | .failed replaced =>
    let s := if replaced then { s with vault := s.manager.record } else s
    s.fail caller.task? (.retryable "Cannot persist renewed account credentials" (30 : ℚ) true)
  | .done =>
    let installed := install lib s.manager result token now
    let s := { s with
      vault := s.manager.record
      manager := installed.1
      tokenChain := s.recordChain }
    match installed.2 with
    | .error e => s.fail caller.task? e
    | .ok () => s.finish caller

/-- One step of a task between two of its waits, with what the task returns if
it ends. -/
def perform : Event → Option (Session × Option Output)
  | .getToken now =>
    if s.holder.isSome then none
    else match getToken setup s.manager now with
      | .error e => some (s, some (.token (.error e)))
      | .ok (.inl token) => some (s, some (.token (.ok token)))
      | .ok (.inr data) =>
        some ({ s with holder := some (.refreshing (s.manager.record.mode.getD "v2") data) }, none)
  | .refreshed post now =>
    match s.holder with
    | some (.refreshing mode _) =>
      match readJson lib post with
      | .error e => some (s.fail none e)
      | .ok result =>
        match s.save setup .refresh result mode "" "" now with
        | .error e => some (s.fail none e)
        | .ok s => some (s, none)
    | _ => none
  | .completeLogin task flow response now =>
    match checkResponse flow response now with
    | .error e => some (s, some (.login task (.error e)))
    | .ok code => some ({ s with waiting := s.waiting ++ [⟨task, flow, code⟩] }, none)
  | .enter login =>
    if s.holder.isSome ∨ login ∉ s.waiting then none
    else
      let s := { s with waiting := s.waiting.erase login }
      match exchangeData setup login.flow login.code with
      | .error e => some (s.fail (some login) e)
      | .ok data => some ({ s with holder := some (.exchanging login data) }, none)
  | .exchanged post =>
    match s.holder with
    | some (.exchanging login _) =>
      match readJson lib post with
      | .error e => some (s.fail (some login) e)
      | .ok result => some ({ s with holder := some (.verifying login result) }, none)
    | _ => none
  | .verified claims now =>
    match s.holder with
    | some (.verifying login result) =>
      match claims.bind (verifyClaims lib setup login.flow.nonce) with
      | .error e => some (s.fail (some login) e)
      | .ok claims => some (s.identify setup login result claims now)
    | _ => none
  | .profiled post now =>
    match s.holder with
    | some (.profiling login result claims) =>
      match profileAddress lib email post with
      | .error e => some (s.fail (some login) e)
      | .ok address => some (s.saveLogin setup login result claims address now)
    | _ => none
  | .saved write now =>
    match s.holder with
    | some (.saving caller result token) => some (s.persisted lib caller result token write now)
    | _ => none
  | .rejected token =>
    if s.holder.isSome then none
    else
      let rejected := rejectedToken lib s.manager.toTokens token
      some ({ s with manager := { s.manager with toTokens := rejected.2 } },
        some (.rejected rejected.1))
  | .accepted =>
    some ({ s with manager :=
      { s.manager with toTokens := acceptedToken s.manager.toTokens } }, none)
  | .disconnect task =>
    if s.holder.isSome then none
    else some ({ s with holder := some (.disconnecting task) }, none)
  | .disconnectWritten write _ =>
    match s.holder with
    | some (.disconnecting task) =>
      match write with
      | .failed replaced =>
        some ({ s with vault := if replaced then {} else s.vault, holder := none },
          some (.disconnected task (.error (.unexpected "OSError"))))
      | .done => some ({ s with vault := {}, manager := disconnected s.manager, holder := none },
          some (.disconnected task (.ok ())))
    | _ => none

def step (e : Event) : Option Session :=
  (s.perform lib email setup e).map fun result ↦
    { result.1 with clock := e.reading.getD s.clock }

/-- The access token that a call of `get_token` returns with this step. -/
def returned (e : Event) : Option String :=
  match (s.perform lib email setup e).bind (·.2) with
  | some (.token (.ok token)) => some token
  | _ => none

/-- A manager reads its record when it is made, unless the record was made for
another configuration. -/
def opened (vault : Record) : Session :=
  if vault.isEmpty = false ∧ vault.fingerprint ≠ some setup.fingerprint then
    { manager := { lastError := "Account configuration changed; sign in again" }, vault := vault }
  else { manager := { record := vault }, vault := vault }

end Session

end NoreplyGateway.Oauth
