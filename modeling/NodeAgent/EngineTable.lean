import NodeAgent.AddressOwnership
import NodeAgent.Receipts
import NodeAgent.Registry

/-!
The engine as its embedder sees it: a table of inbounds, each with a config and either
config credentials or a table of users. A call takes effect as a whole or is refused;
what the proxy core makes of a config is a parameter (`Shoes`). Keys are owned by
registered inbounds as in `AddressOwnership`, a lease is admitted when its authority is
the one last published for its tag as in `ReplayLineages`, and a credential belongs to
at most one user as in `Registry`.
-/
namespace NodeAgent.EngineTable
open NodeAgent.Api NodeAgent.Credential NodeAgent.FiniteMap
open NodeAgent.AddressOwnership (BindKey KeyText claimTarget)

structure Counters where
  rx : Nat
  tx : Nat
  lastTrafficObservedAtUnixMillis : Nat
deriving DecidableEq

def Counters.zero : Counters := ⟨0,0,0⟩

structure EngineUser where
  spec : UserSpec
  counters : Counters
deriving DecidableEq

/-- The part of a `UserInfo` that its receiver reads. -/
structure Receipt where
  id : String
  counters : Counters
deriving DecidableEq

/-- The user registry of an inbound, with the removed users whose final counters nobody
    has collected. -/
structure UserTable where
  kinds : CredentialKinds
  users : Map String EngineUser
  tombstones : Map String Counters

/-- A lease on the replay namespace of a tag. -/
structure InboundReplayLease where
  tag : String
  lineage : Nat
deriving DecidableEq

structure InboundSpec (V : Type) where
  tag : String
  config : V
  users : Option (List UserSpec)

structure Slot (V : Type) where
  config : V
  registry : Option UserTable
  lineage : Nat

structure Engine (V : Type) where
  inbounds : Map String (Slot V)
  /-- The replay authority last published for each tag. -/
  published : Map String Nat
  nextLineage : Nat

def initial (V : Type) : Engine V := ⟨∅,∅,0⟩

/-- What the proxy core makes of a server config. -/
structure Shoes (V : Type) where
  derivations : Derivations
  /-- `validate_inbound_config`, with placeholder credentials for an inbound that has a
      user registry. -/
  validate : Bool → V → Except EngineError Unit
  bindKeys : V → List BindKey
  text : KeyText
  registryKinds : V → Except EngineError CredentialKinds
  /-- Why the running listeners cannot take the candidate over in place. -/
  reloadRejection : V → V → Option String
  /-- A different listen set is refused. -/
  reload_keeps_listen : ∀ running candidate, reloadRejection running candidate = none →
    ∀ key, key ∈ bindKeys candidate ↔ key ∈ bindKeys running

variable {V : Type} (shoes : Shoes V)

/-! ### Users -/

def credentialsOf (d : Derivations) (kinds : CredentialKinds) (id : String) (spec : UserSpec) (k : Kind) : Option k.Key :=
  match parseCredentials d kinds id spec with
  | .ok credentials => credentials.key k
  | .error _ => none

/-- The user that an index holds under a key. -/
def credentialOwner (d : Derivations) (t : UserTable) (k : Kind) (key : k.Key) : Option String :=
  (t.users.toList.find? (fun entry => credentialsOf d t.kinds entry.1 entry.2.spec k = some key)).map Prod.fst

/-- The error of one form in `check_credentials_unclaimed`. -/
def claimConflict (d : Derivations) (t : UserTable) (id : String) (credentials : Credentials) (k : Kind) : Option EngineError :=
  match (credentials.key k).bind (credentialOwner d t k) with
  | some owner => if owner ≠ id then some (.duplicateCredential id owner) else none
  | none => none

/-- The user that an upsert registers: an update keeps the counters. -/
def registered (t : UserTable) (id : String) (spec : UserSpec) : EngineUser :=
  ⟨spec,((t.users[id]?).map EngineUser.counters).getD Counters.zero⟩

def upsert (d : Derivations) (t : UserTable) (spec : UserSpec) : Except EngineError UserTable :=
  match spec.resolvedId with
  | none => .error (.invalidUser "user needs an `id`, or a `uuid` to use as one")
  | some id =>
    if blank id then .error (.invalidUser "user needs an `id`, or a `uuid` to use as one")
    else if (t.tombstones[id]?).isSome then
      .error (.invalidUser ("user " ++ id ++ " has completed removal, but its final counters have not been collected" ++
        "; call remove_user again to collect that removal before re-adding the id"))
    else match parseCredentials d t.kinds id spec with
    | .error error => .error error
    | .ok credentials =>
      match Registry.retireOrder.findSome? (claimConflict d t id credentials) with
      | some error => .error error
      | none => .ok { t with users := t.users.insert id (registered t id spec) }

/-- The loop of `from_users`. -/
def insertUsers (d : Derivations) : UserTable → List UserSpec → Except EngineError UserTable
  | t, [] => .ok t
  | t, user :: rest =>
    match user.resolvedId with
    | none => .error (.invalidUser "a user needs an `id` or a `uuid`")
    | some id =>
      if (t.users[id]?).isSome then .error (.invalidUser ("user " ++ id ++ " is listed twice"))
      else match upsert d t user with
      | .error error => .error error
      | .ok t' => insertUsers d t' rest

def fromUsers (d : Derivations) (kinds : CredentialKinds) (users : List UserSpec) : Except EngineError UserTable :=
  insertUsers d ⟨kinds,∅,∅⟩ users

/-- `build_user_registry`, for an inbound that has a `users` list. -/
def buildUserRegistry (config : V) : Option (List UserSpec) → Except EngineError (Option UserTable)
  | none => .ok none
  | some users =>
    match shoes.registryKinds config with
    | .error error => .error error
    | .ok kinds =>
      match fromUsers shoes.derivations kinds users with
      | .error error => .error error
      | .ok t => .ok (some t)

/-! ### Inbounds -/

/-- The inbound that has claimed a key. -/
def owner (e : Engine V) (key : BindKey) : Option String :=
  (e.inbounds.toList.find? (fun entry => key ∈ shoes.bindKeys entry.2.config)).map Prod.fst

/-- How an add comes by its replay namespace; a fresh one joins the last published scope
    while something still holds that. -/
inductive Admission
  | fresh (scopeAlive : Bool)
  | preserved (lease : InboundReplayLease)

/-- The authority of an add, and the next unused one. -/
def prepare (e : Engine V) (tag : String) : Admission → Except EngineError (Nat × Nat)
  | .fresh scopeAlive =>
    match e.published[tag]? with
    | some lineage => if scopeAlive then .ok (lineage,e.nextLineage) else .ok (e.nextLineage,e.nextLineage + 1)
    | none => .ok (e.nextLineage,e.nextLineage + 1)
  | .preserved lease =>
    if e.published[tag]? = some lease.lineage then .ok (lease.lineage,e.nextLineage)
    else .error (.invalidConfig ("replay lease for inbound " ++ tag ++ " is stale"))

/-- `validate_inbound`. -/
def validateInbound (spec : InboundSpec V) : Except EngineError Unit :=
  if blank spec.tag then .error (.invalidConfig "tag must not be empty")
  else match shoes.validate spec.users.isSome spec.config with
  | .error error => .error error
  | .ok _ =>
    match buildUserRegistry shoes spec.config spec.users with
    | .error error => .error error
    | .ok _ =>
      match claimTarget shoes.text (fun _ => none) spec.tag [] (shoes.bindKeys spec.config) with
      | .error error => .error error
      | .ok _ => .ok ()

/-- `add_inbound_inner`, when every listener starts. -/
def addInboundInner (e : Engine V) (spec : InboundSpec V) (admission : Admission) : Except EngineError (Engine V) :=
  if blank spec.tag then .error (.invalidConfig "tag must not be empty")
  else match shoes.validate spec.users.isSome spec.config with
  | .error error => .error error
  | .ok _ =>
    match buildUserRegistry shoes spec.config spec.users with
    | .error error => .error error
    | .ok registry =>
      if (e.inbounds[spec.tag]?).isSome then .error (.duplicateTag spec.tag)
      else match prepare e spec.tag admission with
      | .error error => .error error
      | .ok (lineage,nextLineage) =>
        match claimTarget shoes.text (owner shoes e) spec.tag [] (shoes.bindKeys spec.config) with
        | .error error => .error error
        | .ok _ => .ok {
            inbounds := e.inbounds.insert spec.tag ⟨spec.config,registry,lineage⟩
            published := e.published.insert spec.tag lineage
            nextLineage := nextLineage }

def addInbound (e : Engine V) (spec : InboundSpec V) (scopeAlive : Bool) : Except EngineError (Engine V) :=
  addInboundInner shoes e spec (.fresh scopeAlive)

def addInboundWithReplay (e : Engine V) (spec : InboundSpec V) (lease : InboundReplayLease) : Except EngineError (Engine V) :=
  if spec.tag ≠ lease.tag then
    .error (.invalidConfig ("replay lease for inbound " ++ lease.tag ++ " cannot start inbound " ++ spec.tag))
  else addInboundInner shoes e spec (.preserved lease)

/-- Whether the registry answers another set of credential forms than the config asks for. -/
def kindsRejection (registry : Option UserTable) (config : V) : Option EngineError :=
  match registry with
  | none => none
  | some t =>
    match shoes.registryKinds config with
    | .error error => some error
    | .ok kinds =>
      if kinds ≠ t.kinds then
        some (.reloadRequired ("cannot change what this inbound authenticates with in place: its users hold " ++
          t.kinds.acceptedFields ++ " and the new config asks for " ++ kinds.acceptedFields ++
          ". Their credentials would have to be reissued, so do it as a remove plus an add"))
      else none

/-- `update_inbound`, for a spec without users. -/
def updateInbound (e : Engine V) (tag : String) (config : V) : Except EngineError (Engine V) :=
  match e.inbounds[tag]? with
  | none => .error (.unknownTag tag)
  | some slot =>
    match shoes.validate slot.registry.isSome config with
    | .error error => .error error
    | .ok _ =>
      match kindsRejection shoes slot.registry config with
      | some error => .error error
      | none =>
        match shoes.reloadRejection slot.config config with
        | some reason => .error (.reloadRequired reason)
        | none => .ok { e with inbounds := e.inbounds.insert tag { slot with config := config } }

def removeInboundHard (e : Engine V) (tag : String) : Except EngineError (Engine V) :=
  match e.inbounds[tag]? with
  | none => .error (.unknownTag tag)
  | some _ => .ok { e with inbounds := e.inbounds.erase tag }

def preserveInboundReplay (e : Engine V) (tag : String) : Except EngineError InboundReplayLease :=
  match e.inbounds[tag]? with
  | none => .error (.unknownTag tag)
  | some slot => .ok ⟨tag,slot.lineage⟩

/-! ### User calls -/

/-- `registry_for`. -/
def registryFor (e : Engine V) (tag : String) : Except EngineError (Slot V × UserTable) :=
  match e.inbounds[tag]? with
  | none => .error (.unknownTag tag)
  | some slot =>
    match slot.registry with
    | none => .error (.unsupported ("inbound " ++ tag ++ " was created without a `users` list, so its credentials come " ++
        "from its config and cannot be changed at runtime"))
    | some t => .ok (slot,t)

/-- The registry of an inbound after a call. -/
def setRegistry (e : Engine V) (tag : String) (slot : Slot V) (t : UserTable) : Engine V :=
  { e with inbounds := e.inbounds.insert tag { slot with registry := some t } }

def addUser (e : Engine V) (tag : String) (spec : UserSpec) : Except EngineError (Engine V) :=
  match registryFor e tag with
  | .error error => .error error
  | .ok (slot,t) =>
    match upsert shoes.derivations t spec with
    | .error error => .error error
    | .ok t' => .ok (setRegistry e tag slot t')

/-- A removal that delivers its final counters, of this call or of an earlier one. -/
def removeUser (e : Engine V) (tag id : String) : Except EngineError (Receipt × Engine V) :=
  match registryFor e tag with
  | .error error => .error error
  | .ok (slot,t) =>
    match t.users[id]? with
    | some user => .ok (⟨id,user.counters⟩,setRegistry e tag slot { t with users := t.users.erase id })
    | none =>
      match t.tombstones[id]? with
      | some counters => .ok (⟨id,counters⟩,setRegistry e tag slot { t with tombstones := t.tombstones.erase id })
      | none => .error (.unknownUser tag id)

/-- A removal whose finalizer fails: the user is gone and its counters wait. -/
def strandUser (e : Engine V) (tag id : String) : Engine V :=
  match registryFor e tag with
  | .error _ => e
  | .ok (slot,t) =>
    match t.users[id]? with
    | some user => setRegistry e tag slot
        { t with users := t.users.erase id, tombstones := t.tombstones.insert id user.counters }
    | none => e

def kickUser (e : Engine V) (tag id : String) : Except EngineError Unit :=
  match registryFor e tag with
  | .error error => .error error
  | .ok (_,t) => if (t.users[id]?).isSome then .ok () else .error (.unknownUser tag id)

def listUsers (e : Engine V) (tag : String) : Except EngineError (List String) :=
  match registryFor e tag with
  | .error error => .error error
  | .ok (_,t) => .ok t.users.keys

/-- The counters of a user, read and zeroed. -/
def Counters.taken (counters : Counters) : Counters := { counters with rx := 0, tx := 0 }

def takeUserTraffic (e : Engine V) (tag id : String) : Except EngineError (Receipt × Engine V) :=
  match registryFor e tag with
  | .error error => .error error
  | .ok (slot,t) =>
    match t.users[id]? with
    | none => .error (.unknownUser tag id)
    | some user => .ok (⟨id,user.counters⟩,setRegistry e tag slot
        { t with users := t.users.insert id { user with counters := user.counters.taken } })

/-- Every counter of an inbound, zeroed; only users that carried bytes are reported. -/
def takeNonzeroInboundTraffic (e : Engine V) (tag : String) : Except EngineError (List Receipt × Engine V) :=
  match registryFor e tag with
  | .error error => .error error
  | .ok (slot,t) =>
    let carried := t.users.toList.filter (fun entry => entry.2.counters.tx ≠ 0 ∨ entry.2.counters.rx ≠ 0)
    .ok (carried.map (fun entry => ⟨entry.1,entry.2.counters⟩),setRegistry e tag slot
      { t with users := t.users.map (fun _ user => { user with counters := user.counters.taken }) })

/-! ### Metering -/

/-- Bytes that a registered user moves. -/
structure Meter where
  tag : String
  id : String
  rx : Nat
  tx : Nat
  atUnixMillis : Nat

/-- The counters of a user after some traffic; they are `u64`s. -/
def Counters.meter (counters : Counters) (traffic : Meter) : Counters :=
  ⟨(counters.rx + traffic.rx) % Receipts.u64Size,(counters.tx + traffic.tx) % Receipts.u64Size,traffic.atUnixMillis⟩

/-- The engine after some traffic, or `none` when no such user is registered. -/
def meter (e : Engine V) (traffic : Meter) : Option (Engine V) :=
  match registryFor e traffic.tag with
  | .error _ => none
  | .ok (slot,t) =>
    match t.users[traffic.id]? with
    | none => none
    | some user => some (setRegistry e traffic.tag slot
        { t with users := t.users.insert traffic.id { user with counters := user.counters.meter traffic } })

end NodeAgent.EngineTable
