import Mathlib.Logic.Function.Basic
import NodeAgent.Credential
import NodeAgent.FiniteMap

/-!
The user registry of one inbound. A mutation is a list of single map writes made
by the only writer (`Write`, `apply`); an index that was never allocated makes the
write fail, as its `expect` does. `Coherent` says how the maps agree between
mutations, and every accepted, rejected or failed mutation keeps it.
-/
namespace NodeAgent.Registry
open NodeAgent.Api NodeAgent.Credential NodeAgent.FiniteMap

/-- A shared reference to a user's accounting record: where it lies, and the id it
    was made with. -/
structure ContextRef where
  address : Nat
  id : String
deriving DecidableEq

/-- The mutable state of an accounting record. -/
structure UserContext where
  enabled : Bool
  revoked : Bool
  maxConns : UInt64
  uploadLimitBps : UInt64
  downloadLimitBps : UInt64
  tx : UInt64
  rx : UInt64
  lastTrafficObservedAtUnixMillis : UInt64
  conns : Nat
  totalConns : Nat
deriving DecidableEq

def UserContext.new : UserContext := ⟨true,false,0,0,0,0,0,0,0,0⟩

/-- One user: the shared record and the credentials that reach it. -/
structure Entry extends Credentials where
  context : ContextRef
  /-- The uuid that the VMess key was derived from. -/
  vmess : Option Bytes
deriving DecidableEq

def Entry.key (entry : Entry) (k : Kind) : Option k.Key := entry.toCredentials.key k

/-- One removed accounting generation and its final snapshot. -/
structure DrainingUser where
  entry : Entry
  result : Option UserInfo
deriving DecidableEq

structure MemoryUserRegistry where
  kinds : CredentialKinds
  users : Map String Entry
  /-- Where the generation of a removed user lies. -/
  draining : Map String Nat
  index : (k : Kind) → Option (k.Key → Option Entry)
  anytlsPrefixes : Option (Bytes → Option Nat)
  vmessCandidates : List Entry
  contexts : List UserContext
  generations : List DrainingUser

def new (kinds : CredentialKinds) : MemoryUserRegistry where
  kinds := kinds
  users := ∅
  draining := ∅
  index := fun k => if kinds.indexes k then some (fun _ => none) else none
  anytlsPrefixes := if kinds.anytlsPassword then some (fun _ => none) else none
  vmessCandidates := []
  contexts := []
  generations := []

/-- The entry that an index holds under a key. -/
def lookup (r : MemoryUserRegistry) (k : Kind) (key : k.Key) : Option Entry := (r.index k).bind (fun entries => entries key)

/-- `context.is_enabled()`. -/
def isEnabled (r : MemoryUserRegistry) (context : ContextRef) : Bool :=
  (r.contexts[context.address]?).any UserContext.enabled

/-- `user_info`. -/
def userInfo (r : MemoryUserRegistry) (context : ContextRef) : UserInfo :=
  let stats := (r.contexts[context.address]?).getD UserContext.new
  ⟨context.id,stats.enabled,stats.tx,stats.rx,stats.lastTrafficObservedAtUnixMillis,stats.conns,stats.totalConns,
    stats.maxConns,stats.uploadLimitBps,stats.downloadLimitBps⟩

/-! ### Single writes -/

inductive Write
  | newContext
  | setEnabled (address : Nat) (enabled : Bool)
  | setMaxConns (address : Nat) (maxConns : UInt64)
  | setSpeedLimits (address : Nat) (upload download : UInt64)
  | revokeConnections (address : Nat)
  | insertUser (id : String) (entry : Entry)
  | removeUser (id : String)
  | insertDraining (entry : Entry)
  | indexInsert (k : Kind) (key : k.Key) (entry : Entry)
  | indexRemove (k : Kind) (key : k.Key)
  | claimAnytlsPrefix (hash : Bytes)
  | releaseAnytlsPrefix (hash : Bytes)
  | republishVmess

/-- `*entry.or_insert(0) += 1`. -/
def claimed (count : Option Nat) : Option Nat := some (count.getD 0 + 1)

/-- `saturating_sub(1)`, and no entry at zero. -/
def released (count : Option Nat) : Option Nat :=
  match count with
  | none => none
  | some n => if n - 1 = 0 then none else some (n - 1)

def modifyContext (r : MemoryUserRegistry) (address : Nat) (change : UserContext → UserContext) : MemoryUserRegistry :=
  { r with contexts := r.contexts.modify address change }

/-- One write; `none` is a failed `expect` on an index. -/
def apply (d : Derivations) (r : MemoryUserRegistry) : Write → Option MemoryUserRegistry
  | .newContext => some { r with contexts := r.contexts ++ [UserContext.new] }
  | .setEnabled address enabled =>
    some (modifyContext r address (fun context => { context with enabled := enabled }))
  | .setMaxConns address maxConns =>
    some (modifyContext r address (fun context => { context with maxConns := maxConns }))
  | .setSpeedLimits address upload download =>
    some (modifyContext r address
      (fun context => { context with uploadLimitBps := upload, downloadLimitBps := download }))
  | .revokeConnections address =>
    some (modifyContext r address (fun context => { context with revoked := true }))
  | .insertUser id entry => some { r with users := r.users.insert id entry }
  | .removeUser id => some { r with users := r.users.erase id }
  | .insertDraining entry =>
    some { r with
      generations := r.generations ++ [⟨entry,none⟩]
      draining := r.draining.insert entry.context.id r.generations.length }
  | .indexInsert k key entry =>
    (r.index k).map (fun entries =>
      { r with index := Function.update r.index k (some (Function.update entries key (some entry))) })
  | .indexRemove k key =>
    (r.index k).map (fun entries =>
      { r with index := Function.update r.index k (some (Function.update entries key none)) })
  | .claimAnytlsPrefix hash =>
    r.anytlsPrefixes.map (fun prefixes =>
      let start := d.passwordSha256Prefix hash
      { r with anytlsPrefixes := some (Function.update prefixes start (claimed (prefixes start))) })
  | .releaseAnytlsPrefix hash =>
    r.anytlsPrefixes.map (fun prefixes =>
      let start := d.passwordSha256Prefix hash
      { r with anytlsPrefixes := some (Function.update prefixes start (released (prefixes start))) })
  | .republishVmess => some { r with vmessCandidates := (r.users.toList.map Prod.snd).filter (fun entry => entry.vmess.isSome) }

def run (d : Derivations) (r : MemoryUserRegistry) : List Write → Option MemoryUserRegistry
  | [] => some r
  | w :: rest => (apply d r w).bind (fun r' => run d r' rest)

/-! ### Mutations -/

/-- `credential_owner_*`. -/
def credentialOwner (r : MemoryUserRegistry) (k : Kind) (key : k.Key) : Option String :=
  (lookup r k key).map (fun entry => entry.context.id)

/-- The error of one form in `check_credentials_unclaimed`. -/
def claimConflict (r : MemoryUserRegistry) (id : String) (credentials : Credentials) (k : Kind) : Option EngineError :=
  match (credentials.key k).bind (credentialOwner r k) with
  | some owner => if owner ≠ id then some (.duplicateCredential id owner) else none
  | none => none

/-- The order in which forms are checked and retired. -/
def retireOrder : List Kind := [.uuid,.trojan,.password,.psk,.anytls,.naive]

/-- The order in which forms are published, before AnyTLS. -/
def publishOrder : List Kind := [.uuid,.trojan,.password,.psk,.naive]

def checkCredentialsUnclaimed (r : MemoryUserRegistry) (id : String) (credentials : Credentials) : Except EngineError Unit :=
  match retireOrder.findSome? (claimConflict r id credentials) with
  | some error => .error error
  | none => .ok ()

/-- Only an AnyTLS hash has a prefix to give back. -/
def releaseWrites : (k : Kind) → k.Key → List Write
  | .anytls, hash => [.releaseAnytlsPrefix hash]
  | _, _ => []

/-- Taking a user's key out of its index. -/
def unindexWrites (entry : Entry) (k : Kind) : List Write :=
  match entry.key k with
  | some key => .indexRemove k key :: releaseWrites k key
  | none => []

/-- The index key of `previous` that `entry` no longer presents. -/
def retireWrites (previous entry : Entry) (k : Kind) : List Write :=
  if previous.key k ≠ entry.key k then unindexWrites previous k else []

def publishWrites (entry : Entry) (k : Kind) : List Write :=
  match entry.key k with
  | some key => [.indexInsert k key entry]
  | none => []

/-- The prefix is counted only for a hash that displaced nothing. -/
def claimWrites (now : Option MemoryUserRegistry) (entry : Entry) : List Write :=
  match entry.anytlsHash with
  | some hash => if now.bind (fun r => lookup r .anytls hash) = none then [.claimAnytlsPrefix hash] else []
  | none => []

def contextWrites (previous : Option Entry) (address : Nat) (spec : UserSpec) : List Write :=
  (if previous.isNone then [.newContext] else []) ++
    [.setEnabled address spec.enabled,.setMaxConns address (spec.maxConns.getD 0),
      .setSpeedLimits address (spec.uploadLimitBps.getD 0) (spec.downloadLimitBps.getD 0)]

def retirePrevious (previous : Option Entry) (entry : Entry) : List Write :=
  match previous with
  | some old => retireOrder.flatMap (retireWrites old entry)
  | none => []

def upsertWrites (d : Derivations) (r : MemoryUserRegistry) (previous : Option Entry) (entry : Entry) (spec : UserSpec) :
    List Write :=
  let before := contextWrites previous entry.context.address spec ++ retirePrevious previous entry ++
    publishOrder.flatMap (publishWrites entry)
  before ++ publishWrites entry .anytls ++ claimWrites (run d r before) entry ++ [.insertUser entry.context.id entry]

/-- The entry that an upsert publishes: an update keeps the user's record. -/
def newEntry (r : MemoryUserRegistry) (id : String) (credentials : Credentials) : Entry :=
  let context := match r.users[id]? with
    | some previous => previous.context
    | none => ⟨r.contexts.length,id⟩
  { credentials with context := context, vmess := credentials.uuid }

/-- What `upsert_locked` decides: the entry to publish, or the refusal. -/
def validate (d : Derivations) (r : MemoryUserRegistry) (spec : UserSpec) : Except EngineError Entry :=
  match spec.resolvedId with
  | none => .error (.invalidUser "user needs an `id`, or a `uuid` to use as one")
  | some id =>
    if blank id then .error (.invalidUser "user needs an `id`, or a `uuid` to use as one")
    else match (r.draining[id]?).bind (fun generation => r.generations[generation]?) with
    | some draining =>
      let state := if (userInfo r draining.entry.context).conns = 0
        then "has completed removal, but its final counters have not been collected"
        else "is still disconnecting after removal"
      .error (.invalidUser ("user " ++ id ++ " " ++ state ++
        "; call remove_user again to collect that removal before re-adding the id"))
    | none => do
      let credentials ← parseCredentials d r.kinds id spec
      checkCredentialsUnclaimed r id credentials
      return newEntry r id credentials

/-- The writes of `upsert_locked`, or its refusal. -/
def upsertLocked (d : Derivations) (r : MemoryUserRegistry) (spec : UserSpec) : Except EngineError (Entry × List Write) := do
  let entry ← validate d r spec
  return (entry,upsertWrites d r r.users[entry.context.id]? entry spec)

/-- `none` is a failed `expect`. -/
def upsert (d : Derivations) (r : MemoryUserRegistry) (spec : UserSpec) :
    Option (Except EngineError UserInfo × MemoryUserRegistry) :=
  match upsertLocked d r spec with
  | .error error => some (.error error,r)
  | .ok (entry,writes) => (run d r (writes ++ [.republishVmess])).map (fun r' => (.ok (userInfo r' entry.context),r'))

/-- The loop of `from_users`. -/
def insertUsers (d : Derivations) : MemoryUserRegistry → List UserSpec → Option (Except EngineError MemoryUserRegistry)
  | r, [] => some (.ok r)
  | r, user :: rest =>
    match user.resolvedId with
    | none => some (.error (.invalidUser "a user needs an `id` or a `uuid`"))
    | some id =>
      if (r.users[id]?).isSome then some (.error (.invalidUser ("user " ++ id ++ " is listed twice")))
      else match upsertLocked d r user with
      | .error error => some (.error error)
      | .ok (_,writes) => (run d r writes).bind (fun r' => insertUsers d r' rest)

def fromUsers (d : Derivations) (kinds : CredentialKinds) (users : List UserSpec) :
    Option (Except EngineError MemoryUserRegistry) :=
  match insertUsers d (new kinds) users with
  | none => none
  | some (.error error) => some (.error error)
  | some (.ok r) => (run d r [.republishVmess]).map .ok

/-- The writes of `remove` under the writer lock. -/
def retirement (entry : Entry) (id : String) : List Write :=
  [.revokeConnections entry.context.address,.removeUser id,.insertDraining entry] ++
    retireOrder.flatMap (unindexWrites entry) ++ [.republishVmess]

/-- `remove` up to the release of the writer lock: the generation it waits for and
    whether this call removed the user. -/
def beginRemove (d : Derivations) (r : MemoryUserRegistry) (tag id : String) :
    Option (Except EngineError (Nat × Bool) × MemoryUserRegistry) :=
  match r.users[id]? with
  | some entry => (run d r (retirement entry id)).map (fun r' => (.ok (r.generations.length,true),r'))
  | none =>
    match r.draining[id]? with
    | some generation => some (.ok (generation,false),r)
    | none => some (.error (.unknownUser tag id),r)

/-- Clear only the tombstone of this exact generation. -/
def clearDrainingGeneration (r : MemoryUserRegistry) (generation : Nat) : MemoryUserRegistry :=
  match r.generations[generation]? with
  | some tombstone =>
    if r.draining[tombstone.entry.context.id]? = some generation then
      { r with draining := r.draining.erase tombstone.entry.context.id }
    else r
  | none => r

/-! ### Lookups -/

/-- A candidate hit confirmed against its own key; a disabled user is absent. -/
def accept (r : MemoryUserRegistry) (entry : Entry) {k : Kind} (expected presented : k.Key) : Option ContextRef :=
  if expected ≠ presented ∨ !isEnabled r entry.context then none else some entry.context

/-- The lookup that every index serves. -/
def find (r : MemoryUserRegistry) (k : Kind) (presented : k.Key) : Option ContextRef := do
  let entry ← lookup r k presented
  let expected ← entry.key k
  accept r entry expected presented

def findUuid (r : MemoryUserRegistry) (uuid : Bytes) : Option ContextRef := find r .uuid uuid
def findTrojanHash (r : MemoryUserRegistry) (hash : Bytes) : Option ContextRef := find r .trojan hash
def findPassword (r : MemoryUserRegistry) (password : String) : Option ContextRef := find r .password password
def findPasswordSha256 (r : MemoryUserRegistry) (hash : Bytes) : Option ContextRef := find r .anytls hash
def findNaiveBasic (r : MemoryUserRegistry) (encoded : Bytes) : Option ContextRef := find r .naive encoded

/-- The user an identity header named, and the key of the session. -/
def findShadowsocksPskHash (r : MemoryUserRegistry) (hash : Bytes) : Option (ContextRef × Bytes) := do
  let entry ← lookup r .psk hash
  let credential ← entry.shadowsocks
  if credential.hash ≠ hash ∨ !isEnabled r entry.context then none else some (entry.context,credential.psk)

/-- The uuid half of a TUIC credential, and the password its token is keyed with. -/
def findTuicUuid (r : MemoryUserRegistry) (uuid : Bytes) : Option (ContextRef × String) := do
  let entry ← lookup r .uuid uuid
  let password ← entry.tuicPassword
  let expected ← entry.uuid
  if expected ≠ uuid ∨ !isEnabled r entry.context then none else some (entry.context,password)

def acceptVmess (d : Derivations) (r : MemoryUserRegistry) (authId : Bytes) (entry : Entry) :
    Option (ContextRef × Bytes × UInt64) := do
  let key ← entry.vmess
  let timestamp ← d.vmessOpen key authId
  if !isEnabled r entry.context then none else some (entry.context,d.vmessInstructionKey key,timestamp)

def findVmessAuthId (d : Derivations) (r : MemoryUserRegistry) (authId : Bytes) : Option (ContextRef × Bytes × UInt64) :=
  r.vmessCandidates.findSome? (acceptVmess d r authId)

/-- A plausibility test: whether a user's hash starts so, enabled or not. -/
def hasPasswordSha256Prefix (r : MemoryUserRegistry) (start : Bytes) : Bool :=
  (r.anytlsPrefixes.bind (fun prefixes => prefixes start)).isSome

end NodeAgent.Registry
