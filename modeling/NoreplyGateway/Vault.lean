import NoreplyGateway.Base64
import NoreplyGateway.Config
import NoreplyGateway.JsonText
import NoreplyGateway.Outcome
import NoreplyGateway.WriteScript

namespace NoreplyGateway

open AtomicFiles JsonText Machine Outcome
open Upstream (Value)

/-- `str.encode` -/
def encodeText (s : String) : Octets := s.toByteArray.data.toList

/-- `bytes.decode` -/
def decodeText (content : Octets) : Option String := String.fromUTF8? ⟨content.toArray⟩

theorem decodeText_encodeText (s : String) : decodeText (encodeText s) = some s := by
  have h : (⟨s.toByteArray.data.toList.toArray⟩ : ByteArray) = s.toByteArray := by simp
  rw [decodeText, encodeText, h]
  simp only [String.fromUTF8?, dif_pos s.isValidUTF8]
  rfl

/-- The files that the gateway replaces as a whole, and the temporary files beside them. -/
inductive FileName
  | key
  | record (name : String)
  | config
  | temporary (target : FileName) (suffix : String)
  deriving DecidableEq

namespace FileName

def isTemporary : FileName → Bool
  | temporary _ _ => true
  | _ => false

/-- The directory of a file. The records are in the data directory, as the key is. -/
def directory {δ : Type} (dataDir parent : δ) : FileName → δ
  | config => parent
  | temporary target _ => directory dataDir parent target
  | _ => dataDir

end FileName

/-- The class `Fernet`: which keys it takes, and a token for some random octets. -/
structure Fernet where
  accepts : Octets → Bool
  encrypt : Octets → Octets → Octets → Octets
  decrypt : Octets → Octets → Option Octets

def Fernet.Lawful (fernet : Fernet) : Prop :=
  ∀ key random data, fernet.decrypt key (fernet.encrypt key random data) = some data

/-- Tokens that carry the key, for the examples. -/
def plainFernet : Fernet where
  accepts key := key.length = 32
  encrypt key _ data := 128 :: (key ++ data)
  decrypt key token :=
    if token.take (key.length + 1) = 128 :: key then some (token.drop (key.length + 1)) else none

theorem plainFernet_lawful : plainFernet.Lawful := by
  intro key random data
  simp [plainFernet]

structure Vault where
  fernet : Fernet
  key : Octets

namespace Vault

/-- The constructor without `create`, from the content of the key file. -/
def load (fernet : Fernet) : Option Octets → Except String Vault
  | none => .error "Gateway is not initialized: run noreply-gateway init"
  | some key => if fernet.accepts key then .ok ⟨fernet, key⟩ else .error "ValueError"

variable (vault : Vault)

/-- `read`, from the content of the file. -/
def read : Option Octets → Except String Value
  | none => .ok (.object [])
  | some data =>
    match vault.fernet.decrypt vault.key data with
    | none => .error "InvalidToken"
    | some text =>
      match (decodeText text).bind (fun s ↦ loads s.toList) with
      | none => .error "JSONDecodeError"
      | some value => .ok value

/-- What `write` replaces the file with. -/
def sealed (random : Octets) (value : Value) : Octets :=
  vault.fernet.encrypt vault.key random (encodeText (String.ofList (dumps [] value)))

variable {vault}

theorem read_sealed {value : Value} (hfernet : vault.fernet.Lawful) (h : WellFormed value)
    (random : Octets) : vault.read (some (vault.sealed random value)) = .ok value := by
  have hloads : loads (dumps [] value) = some value := loads_dumps (by simp) h
  simp only [read, sealed, hfernet vault.key random, decodeText_encodeText, Option.bind_some,
    String.toList_ofList, hloads]

section Runs

variable {δ : Type} [DecidableEq δ] {dataDir parent : δ} {s s' u v : Files FileName Octets}
  {l k : List (Event FileName Octets)} {name : String} {c : Option Octets}

/-- The steps of the processes that write to the data directory. -/
abbrev filesStep (dataDir parent : δ) (s : Files FileName Octets) (e : Event FileName Octets) :
    Option (Files FileName Octets) :=
  s.step (FileName.directory dataDir parent) FileName.isTemporary [] e

/-- A call of `write` for this record is among the events. -/
def Requested (vault : Vault) (l : List (Event FileName Octets)) (name : String) (value : Value) :
    Prop :=
  ∃ t random, WellFormed value ∧ .start (.record name) t (vault.sealed random value) ∈ l

/-- The records are written by `write` only. -/
def WritesRecords (vault : Vault) (l : List (Event FileName Octets)) : Prop :=
  ∀ name t x, .start (.record name) t x ∈ l →
    ∃ random value, WellFormed value ∧ x = vault.sealed random value

/-- Whatever the interleaving of writers, and whichever of them raise or are cut off
by a kill or a crash, a record reads as before or as a value that one of them was given. -/
theorem read_whole (hfernet : vault.fernet.Lawful) (hrest : s.AtRest FileName.isTemporary)
    (hl : Runs (filesStep dataDir parent) s l s') (hwrites : vault.WritesRecords l)
    (hc : s'.disk.May (.record name) c) :
    s.disk.May (.record name) c ∨
      ∃ value, vault.Requested l name value ∧ vault.read c = .ok value := by
  apply (never_torn hrest hl rfl hc).imp_right
  rintro ⟨t, x, hx, rfl⟩
  obtain ⟨random, value, hvalue, rfl⟩ := hwrites name t x hx
  exact ⟨value, ⟨t, random, hvalue, hx⟩, read_sealed hfernet hvalue random⟩

/-- A write that a crash cuts off behind its rename. -/
def crashedWrite : List (Event FileName Octets) := [
  .start (.record "admin") (.temporary (.record "admin") "x")
    ((⟨plainFernet, []⟩ : Vault).sealed [] (.object [])),
  .advance (.temporary (.record "admin") "x"), .advance (.temporary (.record "admin") "x"),
  .advance (.temporary (.record "admin") "x"), .crash (fun _ ↦ 0) (fun _ ↦ [])]

theorem read_whole_sample : ∃ s', Runs (filesStep "data" "etc") {} crashedWrite s' ∧
    ∀ c, s'.disk.May (.record "admin") c →
      ({} : Files FileName Octets).disk.May (.record "admin") c ∨
        ∃ value, (⟨plainFernet, []⟩ : Vault).Requested crashedWrite "admin" value ∧
          (⟨plainFernet, []⟩ : Vault).read c = .ok value := by
  have hvalue : WellFormed (.object []) := by
    rw [WellFormed]
    exact ⟨List.nodup_nil, trivial⟩
  have hwrites : (⟨plainFernet, []⟩ : Vault).WritesRecords crashedWrite := by
    intro name t x hx
    simp only [crashedWrite, List.mem_cons, Event.start.injEq, reduceCtorEq, List.not_mem_nil,
      or_false] at hx
    exact ⟨[], .object [], hvalue, hx.2.2⟩
  obtain ⟨s', hs'⟩ : ∃ s', Runs (filesStep "data" "etc") {} crashedWrite s' :=
    ⟨_, runs_cons.mpr ⟨_, rfl, runs_cons.mpr ⟨_, rfl, runs_cons.mpr ⟨_, rfl,
      runs_cons.mpr ⟨_, rfl, runs_cons.mpr ⟨_, rfl, runs_nil.mpr rfl⟩⟩⟩⟩⟩⟩
  exact ⟨s', hs', fun c ↦ read_whole plainFernet_lawful (atRest_empty _) hs' hwrites⟩

/-- What a call of `write` has replaced when it returns is read until the next call for
this record begins, and a crash does not take it back. -/
theorem read_written {t : FileName} {random : Octets} {value : Value}
    {w : Writing FileName Octets} (hfernet : vault.fernet.Lawful) (hvalue : WellFormed value)
    (hrest : s.AtRest FileName.isTemporary) (hu : Runs (filesStep dataDir parent) s l u)
    (hfree : ∀ t' w', u.writes t' = some w' → w'.path ≠ .record name)
    (hv : Runs (filesStep dataDir parent) u
      (.start (.record name) t (vault.sealed random value) :: k) v)
    (hk : ∀ t' y, .start (.record name) t' y ∉ k)
    (hw : v.writes t = some w) (hpath : w.path = .record name) (hstage : w.stage = .renamed)
    {later : List (Event FileName Octets)}
    (hlater : Runs (filesStep dataDir parent) v (.advance t :: later) s')
    (hnext : ∀ t' y, .start (.record name) t' y ∉ later)
    (hc : s'.disk.May (.record name) c) : vault.read c = .ok value := by
  have hsound := ((hrest.sound []).mono (Q := fun _ _ ↦ True) fun _ _ _ ↦ trivial).run hu
    fun _ _ _ _ ↦ trivial
  rw [returned_kept hsound hfree hv hk hw hpath hstage hlater hnext hc]
  exact read_sealed hfernet hvalue random

/-- A record is written and read back. -/
theorem read_written_sample : ∃ (v s' : Files FileName Octets) (w : Writing FileName Octets),
    v.writes (.temporary (.record "admin") "x") = some w ∧
    Runs (filesStep "data" "etc") v [.advance (.temporary (.record "admin") "x")] s' ∧
    ∀ c, s'.disk.May (.record "admin") c →
      (⟨plainFernet, []⟩ : Vault).read c = .ok (.object []) := by
  let t : FileName := .temporary (.record "admin") "x"
  let vault : Vault := ⟨plainFernet, []⟩
  have hvalue : WellFormed (.object []) := by
    rw [WellFormed]
    exact ⟨List.nodup_nil, trivial⟩
  obtain ⟨v, hv, w, hw, hpath, hstage, s', hs'⟩ : ∃ v, Runs (filesStep "data" "etc") {}
      [.start (.record "admin") t (vault.sealed [] (.object [])), .advance t, .advance t, .advance t]
        v ∧ ∃ w, v.writes t = some w ∧ w.path = .record "admin" ∧ w.stage = .renamed ∧
      ∃ s', Runs (filesStep "data" "etc") v [.advance t] s' := by
    exact ⟨_, runs_cons.mpr ⟨_, rfl, runs_cons.mpr ⟨_, rfl, runs_cons.mpr ⟨_, rfl,
      runs_cons.mpr ⟨_, rfl, runs_nil.mpr rfl⟩⟩⟩⟩, _, rfl, rfl, rfl, _,
      runs_cons.mpr ⟨_, rfl, runs_nil.mpr rfl⟩⟩
  refine ⟨v, s', w, hw, hs', ?_⟩
  intro c hc
  exact read_written plainFernet_lawful hvalue (atRest_empty _) (runs_nil.mpr rfl)
    (fun _ _ h ↦ by cases h) hv (by simp) hw hpath hstage hs' (by simp) hc

end Runs

end Vault

section Passwords

def hashPassword (scrypt : Octets → Octets → Octets) (password : String) (salt : Octets) :
    Except String Value :=
  if password.length < 12 then
    .error "Use an administration password of at least 12 characters"
  else .ok (.object [("salt", .string (String.ofList (Base64.encode salt))),
    ("hash", .string (String.ofList (Base64.encode (scrypt (encodeText password) salt))))])

variable {scrypt : Octets → Octets → Octets} {password attempt : String} {salt : Octets}
  {value : Value}

end Passwords

end NoreplyGateway
