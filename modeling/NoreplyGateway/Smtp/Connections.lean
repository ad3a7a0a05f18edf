import NoreplyGateway.Config
import NoreplyGateway.Machine
import NoreplyGateway.Outcome

namespace NoreplyGateway.Smtp

open Machine Outcome

/-! The values of the `ipaddress` module. -/

inductive IpAddress
  | v4 (value : BitVec 32)
  | v6 (value : BitVec 128)
  deriving DecidableEq

inductive IpNetwork
  | v4 (address netmask : BitVec 32)
  | v6 (address netmask : BitVec 128)
  deriving DecidableEq

/-- The IPv4 address that an IPv6 address stands for, where its `ipv4_mapped` is one. -/
def IpAddress.unmapped : IpAddress → IpAddress
  | .v4 value => .v4 value
  | .v6 value => if value >>> 32 = 0xFFFF then .v4 (value.setWidth 32) else .v6 value

def IpNetwork.contains : IpNetwork → IpAddress → Bool
  | .v4 address netmask, .v4 value => value &&& netmask = address
  | .v6 address netmask, .v6 value => value &&& netmask = address
  | _, _ => false

/-- The task `_connection` of a client, by the wait it is in. -/
inductive Handler
  | opened
  | refused (text : String)
  | serving
  | leaving
  | ended
  deriving DecidableEq

structure Client where
  peer : Option String
  handler : Handler := .opened

/-- `SMTPServer.close`, by the wait it is in. -/
inductive ListenerClose
  | opened
  | stopping
  | waiting (tasks : List ℕ)
  | gathering (tasks : List ℕ)
  | closed
  deriving DecidableEq

/-- What the server keeps of its connections, which are numbered as they come. -/
structure Listener where
  listening : Bool := false
  closing : Bool := false
  clients : List Client := []
  close : ListenerClose := .opened
  deniedCount : ℕ := 0
  connectionCount : ℕ := 0

inductive ConnectionEvent
  | listen
  | accept (peer : Option String)
  | begin (index : ℕ)
  | leave (index : ℕ)
  | ended (index : ℕ)
  | close
  | closeWriters
  | waited
  | gathered

/-- The functions of `ipaddress` that the server calls. -/
structure AddressLibrary where
  ipAddress : String → Option IpAddress
  ipNetwork : String → Except String IpNetwork

/-- What the server is made with. -/
structure Access where
  ipAddress : String → Option IpAddress
  networks : List IpNetwork
  maxConnections : ℕ

def Access.ofConfig (lib : AddressLibrary) (config : Config) : Except String Access := do
  let networks ← config.smtp.allowedNetworks.mapM lib.ipNetwork
  .ok { ipAddress := lib.ipAddress, networks := networks,
        maxConnections := config.smtp.maxConnections }

/-- `SMTPServer.allowed`. -/
def Access.allowed (access : Access) (host : String) : Bool :=
  (access.ipAddress host).any fun address ↦ access.networks.any (·.contains address.unmapped)

/-- The host is an address in one of the networks that the configuration allows. -/
def AddressLibrary.Admits (lib : AddressLibrary) (config : Config) (host : String) : Prop :=
  ∃ address, lib.ipAddress host = some address ∧
    ∃ text ∈ config.smtp.allowedNetworks, ∃ network, lib.ipNetwork text = .ok network ∧
      network.contains address.unmapped = true

section Access

variable {lib : AddressLibrary} {config : Config} {access : Access} {host : String}

theorem Access.eq_of_ofConfig (h : Access.ofConfig lib config = .ok access) :
    ∃ networks, config.smtp.allowedNetworks.mapM lib.ipNetwork = .ok networks ∧
      access = { ipAddress := lib.ipAddress, networks := networks,
                 maxConnections := config.smtp.maxConnections } := by
  obtain ⟨networks, hnetworks, h⟩ := do_eq_ok.mp h
  exact ⟨networks, hnetworks, (Except.ok.inj h).symm⟩

theorem Access.admits_of_allowed (hconfig : Access.ofConfig lib config = .ok access)
    (h : access.allowed host = true) : lib.Admits config host := by
  obtain ⟨networks, hnetworks, rfl⟩ := Access.eq_of_ofConfig hconfig
  obtain ⟨address, haddress, hany⟩ := (Option.any_eq_true ..).mp h
  obtain ⟨network, hnetwork, hcontains⟩ := List.any_eq_true.mp hany
  obtain ⟨text, htext, hparsed⟩ := exists_source_of_mapM hnetworks hnetwork
  exact ⟨address, haddress, text, htext, network, hparsed, hcontains⟩

end Access

namespace Listener

variable (access : Access) (s : Listener)

/-- The set `connections`. -/
def connections : List ℕ :=
  (List.range s.clients.length).filter fun i ↦ s.clients[i]?.any (·.handler = .serving)

/-- The tasks of the list that are not done. -/
def unfinished (tasks : List ℕ) : List ℕ :=
  tasks.filter fun i ↦ s.clients[i]?.any (·.handler ≠ .ended)

def enter (index : ℕ) (client : Client) (handler : Handler) : Listener :=
  { s with clients := s.clients.set index { client with handler := handler } }

/-- The start of `_connection`, up to its first reply. -/
def register (index : ℕ) (client : Client) : Listener :=
  if client.peer.any access.allowed = false then
    { s.enter index client (.refused "554 5.7.1 Client network is not allowed") with
      deniedCount := s.deniedCount + 1 }
  else if s.closing ∨ access.maxConnections ≤ s.connections.length then
    s.enter index client (.refused "421 4.3.2 Connection capacity exceeded")
  else { s.enter index client .serving with connectionCount := s.connectionCount + 1 }

/-- A step of one connection from one wait to the next. -/
def move (index : ℕ) (f : Handler → Option Handler) : Option Listener :=
  s.clients[index]?.bind fun client ↦ (f client.handler).map (s.enter index client)

/-- The `finally` of `_connection`, up to the wait for the writer. -/
def leaveOf : Handler → Option Handler
  | .refused _ | .serving => some .leaving
  | _ => none

def endedOf : Handler → Option Handler
  | .leaving => some .ended
  | _ => none

/-- One step of the server, of a connection, or of `close`. A reply or a command that raises
goes to `leaving` like the end of the loop. -/
def step : ConnectionEvent → Option Listener
  | .listen => some { s with listening := true }
  | .accept peer =>
    if s.listening then some { s with clients := s.clients ++ [{ peer := peer }] } else none
  | .begin index =>
    s.clients[index]?.bind fun client ↦
      if client.handler = .opened then some (s.register access index client) else none
  | .leave index => s.move index leaveOf
  | .ended index => s.move index endedOf
  | .close =>
    if s.close = .opened then
      some { s with closing := true, listening := false, close := .stopping }
    else none
  | .closeWriters =>
    if s.close = .stopping then
      some { s with close :=
        if s.connections = [] then .closed else .waiting s.connections }
    else none
  | .waited =>
    match s.close with
    | .waiting tasks => some { s with close := .gathering (s.unfinished tasks) }
    | _ => none
  | .gathered =>
    match s.close with
    | .gathering tasks => if s.unfinished tasks = [] then some { s with close := .closed } else none
    | _ => none

end Listener

/-- The connections that `close` still waits for, once it has closed their writers. -/
def ListenerClose.awaited : ListenerClose → Option (List ℕ)
  | .opened | .stopping => none
  | .waiting tasks | .gathering tasks => some tasks
  | .closed => some []

namespace Listener

variable {access : Access} {s t : Listener} {e : ConnectionEvent} {index i : ℕ} {client : Client}

theorem mem_connections : i ∈ s.connections ↔
    ∃ c, s.clients[i]? = some c ∧ c.handler = .serving := by
  simp only [connections, List.mem_filter, List.mem_range, Option.any_eq_true, decide_eq_true_eq]
  constructor
  · intro h
    exact h.2
  · intro h
    obtain ⟨c, hc, hserving⟩ := h
    exact ⟨(List.getElem?_eq_some_iff.mp hc).1, c, hc, hserving⟩

theorem connections_nodup : s.connections.Nodup := List.nodup_range.filter _

theorem connections_congr (h : t.clients = s.clients) : t.connections = s.connections := by
  unfold connections
  rw [h]

theorem mem_unfinished {tasks : List ℕ} (hi : i ∈ s.connections) (ht : i ∈ tasks) :
    i ∈ s.unfinished tasks := by
  obtain ⟨c, hc, hserving⟩ := mem_connections.mp hi
  refine List.mem_filter.mpr ⟨ht, ?_⟩
  rw [hc, Option.any_some, hserving]
  rfl

theorem enter_getElem (hc : s.clients[index]? = some client) (handler : Handler) :
    (s.enter index client handler).clients[i]? =
      if i = index then some { client with handler := handler } else s.clients[i]? := by
  have hi := (List.getElem?_eq_some_iff.mp hc).1
  simp only [enter, List.getElem?_set]
  by_cases h : index = i
  · subst h
    simp [hi]
  · simp [h, Ne.symm h]

theorem mem_connections_enter (hc : s.clients[index]? = some client) {handler : Handler}
    (h : i ∈ (s.enter index client handler).connections) :
    i = index ∧ handler = .serving ∨ i ∈ s.connections := by
  obtain ⟨c, hi, hserving⟩ := mem_connections.mp h
  rw [enter_getElem hc] at hi
  split_ifs at hi with he
  · obtain rfl := Option.some.inj hi
    exact .inl ⟨he, hserving⟩
  · exact .inr (mem_connections.mpr ⟨c, hi, hserving⟩)

theorem register_clients (access : Access) (s : Listener) (index : ℕ) (client : Client) :
    ∃ handler,
    (s.register access index client).clients = (s.enter index client handler).clients := by
  unfold register
  split_ifs
  · exact ⟨_, rfl⟩
  · exact ⟨_, rfl⟩
  · exact ⟨_, rfl⟩

@[simp] theorem register_closing : (s.register access index client).closing = s.closing := by
  unfold register
  split_ifs <;> rfl

@[simp] theorem register_close : (s.register access index client).close = s.close := by
  unfold register
  split_ifs <;> rfl

/-- A step of `close`, from one wait to the next. -/
inductive CloseStep (s t : Listener) : Prop
  | kept (ht : t.close = s.close)
  | begun (hclosing : t.closing = true) (ht : t.close = .stopping)
  | writers (hs : s.close = .stopping) (ht : t.close.awaited = some s.connections)
  | waited {tasks : List ℕ} (hs : s.close = .waiting tasks)
      (ht : t.close = .gathering (s.unfinished tasks))
  | gathered {tasks : List ℕ} (hs : s.close = .gathering tasks) (hdone : s.unfinished tasks = [])
      (ht : t.close = .closed)

/-- What one step can do: it is one of the server or of `close`, a client comes, its task
starts, or its task goes on to a wait in which it is in `connections` no more. -/
inductive Change (access : Access) (s t : Listener) : Prop
  | server (hclients : t.clients = s.clients) (hclosing : s.closing = true → t.closing = true)
      (hclose : CloseStep s t)
  | accepted (peer : Option String) (ht : t = { s with clients := s.clients ++ [{ peer := peer }] })
  | begun {index : ℕ} {client : Client} (hc : s.clients[index]? = some client)
      (ht : t = s.register access index client)
  | moved {index : ℕ} {client : Client} {handler : Handler} (hc : s.clients[index]? = some client)
      (hhandler : handler ≠ .serving) (ht : t = s.enter index client handler)

theorem move_change {f : Handler → Option Handler} (h : s.move index f = some t)
    (hf : ∀ handler, f handler ≠ some .serving) : Change access s t := by
  obtain ⟨client, hc, h⟩ := Option.bind_eq_some_iff.mp h
  obtain ⟨handler, hhandler, ht⟩ := Option.map_eq_some_iff.mp h
  exact .moved hc (fun hserving ↦ hf _ (hserving ▸ hhandler)) ht.symm

theorem leaveOf_ne (handler : Handler) : leaveOf handler ≠ some .serving := by
  cases handler <;> simp [leaveOf]

theorem endedOf_ne (handler : Handler) : endedOf handler ≠ some .serving := by
  cases handler <;> simp [endedOf]

theorem step_cases (h : s.step access e = some t) : Change access s t := by
  cases e with
  | listen =>
    obtain rfl := Option.some.inj h
    exact .server rfl id (.kept rfl)
  | accept peer =>
    simp only [step] at h
    split_ifs at h
    exact .accepted peer (Option.some.inj h).symm
  | begin index =>
    obtain ⟨client, hc, h⟩ := Option.bind_eq_some_iff.mp h
    split_ifs at h
    exact .begun hc (Option.some.inj h).symm
  | leave index => exact move_change h leaveOf_ne
  | ended index => exact move_change h endedOf_ne
  | close =>
    simp only [step] at h
    split_ifs at h
    obtain rfl := Option.some.inj h
    exact .server rfl (fun _ ↦ rfl) (.begun rfl rfl)
  | closeWriters =>
    simp only [step] at h
    split_ifs at h with hs hempty
    · obtain rfl := Option.some.inj h
      exact .server rfl id (.writers hs (congrArg some hempty.symm))
    · obtain rfl := Option.some.inj h
      exact .server rfl id (.writers hs rfl)
  | waited =>
    simp only [step] at h
    split at h
    · next tasks hs =>
      obtain rfl := Option.some.inj h
      exact .server rfl id (.waited hs rfl)
    · cases h
  | gathered =>
    simp only [step] at h
    split at h
    · next tasks hs =>
      split_ifs at h with hdone
      obtain rfl := Option.some.inj h
      exact .server rfl id (.gathered hs hdone rfl)
    · cases h

/-- What a step does to the connections: none is new, or it is one from an allowed network
for which there is room, before `close`. -/
inductive ConnectionStep (access : Access) (s t : Listener) : Prop
  | fewer (hc : ∀ i ∈ t.connections, i ∈ s.connections)
  | admitted {index : ℕ} {client : Client} (hi : s.clients[index]? = some client)
      (hallowed : client.peer.any access.allowed = true) (hopen : s.closing = false)
      (hroom : s.connections.length < access.maxConnections)
      (hc : ∀ i ∈ t.connections, i = index ∨ i ∈ s.connections)

theorem enter_fewer (hc : s.clients[index]? = some client) {handler : Handler}
    (hhandler : handler ≠ .serving) :
    ∀ i ∈ (s.enter index client handler).connections, i ∈ s.connections := by
  intro i hi
  exact (mem_connections_enter hc hi).resolve_left fun h ↦ hhandler h.2

theorem register_connections (hc : s.clients[index]? = some client) :
    ConnectionStep access s (s.register access index client) := by
  unfold register
  split_ifs with hdenied hfull
  · exact .fewer (enter_fewer hc nofun)
  · exact .fewer (enter_fewer hc nofun)
  · rw [not_or, Bool.not_eq_true, not_le] at hfull
    refine .admitted hc (Bool.eq_true_of_not_eq_false hdenied) hfull.1 hfull.2 fun i hi ↦ ?_
    exact (mem_connections_enter hc hi).imp_left fun h ↦ h.1

theorem step_connections (h : s.step access e = some t) : ConnectionStep access s t := by
  cases step_cases h with
  | server hclients =>
    exact .fewer fun i hi ↦ connections_congr hclients ▸ hi
  | accepted peer ht =>
    subst ht
    refine .fewer fun i hi ↦ ?_
    obtain ⟨c, hc, hserving⟩ := mem_connections.mp hi
    rw [List.getElem?_append] at hc
    split_ifs at hc with hlt
    · exact mem_connections.mpr ⟨c, hc, hserving⟩
    · obtain rfl := List.mem_singleton.mp (List.mem_of_getElem? hc)
      cases hserving
  | begun hc ht =>
    subst ht
    exact register_connections hc
  | moved hc hhandler ht =>
    subst ht
    exact .fewer (enter_fewer hc hhandler)

theorem enter_peer (hindex : s.clients[index]? = some client) {c : Client} {handler : Handler}
    (hc : s.clients[i]? = some c) :
    ∃ c', (s.enter index client handler).clients[i]? = some c' ∧ c'.peer = c.peer := by
  rw [enter_getElem hindex]
  split_ifs with he
  · subst he
    obtain rfl := Option.some.inj (hindex.symm.trans hc)
    exact ⟨_, rfl, rfl⟩
  · exact ⟨c, hc, rfl⟩

/-- The clients stay, each with its peer. -/
theorem step_peer (h : s.step access e = some t) (hc : s.clients[i]? = some client) :
    ∃ c, t.clients[i]? = some c ∧ c.peer = client.peer := by
  cases step_cases h with
  | server hclients => exact ⟨client, hclients ▸ hc, rfl⟩
  | accepted peer ht =>
    subst ht
    exact ⟨client, List.getElem?_append_left (List.getElem?_eq_some_iff.mp hc).1 ▸ hc, rfl⟩
  | @begun index client' hindex ht =>
    subst ht
    obtain ⟨handler, hclients⟩ := register_clients access s index client'
    rw [hclients]
    exact enter_peer hindex hc
  | moved hindex _ ht =>
    subst ht
    exact enter_peer hindex hc

/-- Once the server closes, no connection is new. -/
theorem closing_step (h : s.step access e = some t) (hs : s.closing = true) :
    t.closing = true ∧ ∀ i ∈ t.connections, i ∈ s.connections := by
  constructor
  · cases step_cases h with
    | server _ hclosing => exact hclosing hs
    | accepted _ ht | moved _ _ ht =>
      subst ht
      exact hs
    | begun _ ht =>
      subst ht
      rw [register_closing]
      exact hs
  · cases step_connections h with
    | fewer hc => exact hc
    | admitted _ _ hopen =>
      rw [hs] at hopen
      cases hopen

theorem step_close (h : s.step access e = some t) : CloseStep s t := by
  cases step_cases h with
  | server _ _ hclose => exact hclose
  | accepted _ ht | moved _ _ ht =>
    subst ht
    exact .kept rfl
  | begun _ ht =>
    subst ht
    exact .kept register_close

/-- The connections are few and allowed, and once `close` has closed their writers there are
at most those that it waits for. -/
structure Guarded (access : Access) (s : Listener) : Prop where
  capacity : s.connections.length ≤ access.maxConnections
  allowed : ∀ i ∈ s.connections, ∃ c, s.clients[i]? = some c ∧ c.peer.any access.allowed = true
  closing : s.close ≠ .opened → s.closing = true
  awaited : ∀ tasks, s.close.awaited = some tasks → ∀ i ∈ s.connections, i ∈ tasks

namespace Guarded

theorem capacity_step (hs : Guarded access s) (h : s.step access e = some t) :
    t.connections.length ≤ access.maxConnections := by
  cases step_connections h with
  | fewer hc => exact (List.subperm_of_subset connections_nodup hc).length_le.trans hs.capacity
  | @admitted index client hi hallowed hopen hroom hc =>
    have hle : t.connections.length ≤ (index :: s.connections).length :=
      (List.subperm_of_subset connections_nodup fun i hi ↦ List.mem_cons.mpr (hc i hi)).length_le
    rw [List.length_cons] at hle
    omega

theorem allowed_step (hs : Guarded access s) (h : s.step access e = some t)
    (hi : i ∈ t.connections) :
    ∃ c, t.clients[i]? = some c ∧ c.peer.any access.allowed = true := by
  have hkept : ∀ client, s.clients[i]? = some client → client.peer.any access.allowed = true →
      ∃ c, t.clients[i]? = some c ∧ c.peer.any access.allowed = true := by
    intro client hc hallowed
    obtain ⟨c, hc', hpeer⟩ := step_peer h hc
    exact ⟨c, hc', hpeer ▸ hallowed⟩
  have hold : i ∈ s.connections →
      ∃ c, t.clients[i]? = some c ∧ c.peer.any access.allowed = true := by
    intro hmem
    obtain ⟨client, hc, hallowed⟩ := hs.allowed i hmem
    exact hkept client hc hallowed
  cases step_connections h with
  | fewer hc => exact hold (hc i hi)
  | admitted hindex hallowed hopen hroom hc =>
    rcases hc i hi with rfl | hmem
    · exact hkept _ hindex hallowed
    · exact hold hmem

theorem closing_of_close (hs : Guarded access s) (h : s.step access e = some t)
    (hclose : s.close ≠ .opened) : t.closing = true := (closing_step h (hs.closing hclose)).1

theorem closing_step (hs : Guarded access s) (h : s.step access e = some t)
    (ht : t.close ≠ .opened) : t.closing = true := by
  cases step_close h with
  | kept hkept => exact hs.closing_of_close h (hkept ▸ ht)
  | begun hclosing => exact hclosing
  | writers hw | waited hw | gathered hw => exact hs.closing_of_close h (by rw [hw]; nofun)

/-- A registered task is not done, so `close` goes on waiting for it. -/
theorem awaited_step (hs : Guarded access s) (h : s.step access e = some t) {tasks : List ℕ}
    (ht : t.close.awaited = some tasks) (hi : i ∈ t.connections) : i ∈ tasks := by
  have hold : s.close ≠ .opened → i ∈ s.connections := by
    intro hclose
    exact (Listener.closing_step h (hs.closing hclose)).2 i hi
  cases step_close h with
  | kept hkept =>
    rw [hkept] at ht
    exact hs.awaited tasks ht i (hold fun hopened ↦ by rw [hopened] at ht; cases ht)
  | begun _ hstopping =>
    rw [hstopping] at ht
    cases ht
  | writers hw hawaited =>
    obtain rfl := Option.some.inj (hawaited.symm.trans ht)
    exact hold (by rw [hw]; nofun)
  | @waited awaited hw hgathering =>
    rw [hgathering] at ht
    obtain rfl := Option.some.inj ht
    have hmem := hold (by rw [hw]; nofun)
    exact mem_unfinished hmem (hs.awaited awaited (by rw [hw]; rfl) i hmem)
  | @gathered awaited hw hdone hclosed =>
    have hmem := hold (by rw [hw]; nofun)
    have hunfinished := mem_unfinished hmem (hs.awaited awaited (by rw [hw]; rfl) i hmem)
    rw [hdone] at hunfinished
    cases hunfinished

theorem step (hs : Guarded access s) (h : s.step access e = some t) : Guarded access t where
  capacity := hs.capacity_step h
  allowed _ hi := hs.allowed_step h hi
  closing ht := hs.closing_step h ht
  awaited _ ht _ hi := hs.awaited_step h ht hi

end Guarded

theorem opened_guarded : Guarded access {} where
  capacity := Nat.zero_le _
  allowed _ hi := by cases hi
  closing h := absurd rfl h
  awaited _ h := by cases h

theorem guarded_of_runs {events : List ConnectionEvent} (h : Runs (step access) {} events s) :
    Guarded access s :=
  h.invariant (fun _ _ _ hu hstep ↦ hu.step hstep) opened_guarded

theorem Guarded.connections_eq_nil (hs : Guarded access s) (h : s.close = .closed) :
    s.connections = [] := by
  apply List.eq_nil_iff_forall_not_mem.mpr
  intro i hi
  have hmem := hs.awaited [] (by rw [h]; rfl) i hi
  cases hmem

theorem closing_runs {events : List ConnectionEvent} (h : Runs (step access) s events t)
    (hs : s.closing = true) : t.closing = true ∧ ∀ i ∈ t.connections, i ∈ s.connections := by
  refine h.invariant (P := fun u ↦ u.closing = true ∧ ∀ i ∈ u.connections, i ∈ s.connections)
    ?_ ⟨hs, fun _ hi ↦ hi⟩
  intro u e v hu hstep
  obtain ⟨hclosing, hfewer⟩ := closing_step hstep hu.1
  exact ⟨hclosing, fun i hi ↦ hu.2 i (hfewer i hi)⟩

/-- In every run no more clients are served than the limit allows, and each of them is in a
network that the configuration allows. From `close` on no client is served that was not before,
and when `close` returns none is. -/
theorem connections_admitted {lib : AddressLibrary} {config : Config}
    {events : List ConnectionEvent} (hconfig : Access.ofConfig lib config = .ok access)
    (h : Runs (step access) {} events s) :
    s.connections.length ≤ config.smtp.maxConnections ∧
    (∀ i ∈ s.connections, ∃ client host, s.clients[i]? = some client ∧
      client.peer = some host ∧ lib.Admits config host) ∧
    ∀ later t, Runs (step access) s later t →
      (s.closing = true → ∀ i ∈ t.connections, i ∈ s.connections) ∧
      (s.close = .closed → t.connections = []) := by
  have hs := guarded_of_runs h
  refine ⟨?_, ?_, ?_⟩
  · obtain ⟨networks, -, rfl⟩ := Access.eq_of_ofConfig hconfig
    exact hs.capacity
  · intro i hi
    obtain ⟨client, hc, hallowed⟩ := hs.allowed i hi
    obtain ⟨host, hpeer, hhost⟩ := (Option.any_eq_true ..).mp hallowed
    exact ⟨client, host, hc, hpeer, Access.admits_of_allowed hconfig hhost⟩
  · intro later t hlater
    constructor
    · intro hclosing
      exact (closing_runs hlater hclosing).2
    · intro hclosed
      have hclosing := hs.closing (by rw [hclosed]; nofun)
      have hfewer := (closing_runs hlater hclosing).2
      rw [hs.connections_eq_nil hclosed] at hfewer
      exact List.eq_nil_iff_forall_not_mem.mpr fun i hi ↦ nomatch hfewer i hi

def sampleAddresses : AddressLibrary where
  ipAddress host :=
    if host = "127.0.0.1" then some (.v4 0x7F000001)
    else if host = "::ffff:127.0.0.1" then some (.v6 0xFFFF7F000001)
    else if host = "10.0.0.1" then some (.v4 0x0A000001) else none
  ipNetwork text :=
    if text = "127.0.0.0/8" then .ok (.v4 0x7F000000 0xFF000000)
    else if text = "::1/128" then .ok (.v6 1 (BitVec.allOnes 128)) else .error "ValueError"

def sampleAccess : Access where
  ipAddress := sampleAddresses.ipAddress
  networks := [.v4 0x7F000000 0xFF000000, .v6 1 (BitVec.allOnes 128)]
  maxConnections := 1

/-- One client is served at a time. -/
def singleConfig : Config := { smtp := { maxConnections := 1 } }

/-- The second client finds no room, and the third one is of another network. -/
def sampleEvents : List ConnectionEvent :=
  [.listen, .accept (some "::ffff:127.0.0.1"), .accept (some "127.0.0.1"),
    .accept (some "10.0.0.1"), .begin 0, .begin 1, .begin 2, .close]

def sampleClose : List ConnectionEvent := [.closeWriters, .leave 0, .ended 0, .waited, .gathered]

theorem connections_admitted_sample : ∃ access s t,
    Access.ofConfig sampleAddresses singleConfig = .ok access ∧
    Runs (step access) {} sampleEvents s ∧ s.connections = [0] ∧
    s.connections.length ≤ singleConfig.smtp.maxConnections ∧
    Runs (step access) s sampleClose t ∧ t.close = .closed ∧ t.connections = [] := by
  have hconfig : Access.ofConfig sampleAddresses singleConfig = .ok sampleAccess := rfl
  have hs : (run (step sampleAccess) sampleEvents {}).any (fun s ↦ s.connections = [0] ∧
      (run (step sampleAccess) sampleClose s).any (fun t ↦ t.close = .closed)) := by decide +kernel
  obtain ⟨s, hs, h⟩ := (Option.any_eq_true ..).mp hs
  obtain ⟨hserved, h⟩ := of_decide_eq_true h
  obtain ⟨t, ht, h⟩ := (Option.any_eq_true ..).mp h
  have hclosed := of_decide_eq_true h
  have hwhole : Runs (step sampleAccess) {} (sampleEvents ++ sampleClose) t :=
    runs_append.mpr ⟨s, hs, ht⟩
  have hempty := ((connections_admitted hconfig hwhole).2.2 [] t (runs_nil.mpr rfl)).2 hclosed
  have hcapacity := (connections_admitted hconfig hs).1
  exact ⟨sampleAccess, s, t, hconfig, hs, hserved, hcapacity, ht, hclosed, hempty⟩

end Listener

end NoreplyGateway.Smtp
