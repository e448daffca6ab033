import NodeAgent.EngineTable
import NodeAgent.Fallible
import NodeAgent.Transition

/-!
The transactional runtime over the engine. A transaction diffs the published config
against the desired one, journals an inverse for every step that took effect, and on a
failure rolls the journal back; when that fails too, the next transaction first rebuilds
the retained config. Every engine call reads the next `Moment` of a script: what was
metered before it, and whether it fails.
-/
namespace NodeAgent.Runtime
open NodeAgent.Api NodeAgent.Credential NodeAgent.EngineTable NodeAgent.Fallible NodeAgent.FiniteMap NodeAgent.Receipts

/-! ### Configurations -/

structure CompiledInbound (V : Type) where
  nodeId : String
  protocol : String
  spec : InboundSpec V

structure RuntimeConfig (V : Type) where
  inbounds : List (CompiledInbound V)
  dnsClientFingerprint : Bytes

structure NormalizedInbound (V : Type) where
  compiled : CompiledInbound V
  users : Map String UserSpec
  dynamicUsers : Bool

structure NormalizedConfig (V : Type) where
  inbounds : Map String (NormalizedInbound V)
  ruleSetDigest : Bytes
  dnsClientFingerprint : Bytes

def NormalizedConfig.default (V : Type) : NormalizedConfig V := ⟨∅,List.replicate 32 0,List.replicate 32 0⟩

structure RetiringInbound (V : Type) where
  /-- The generation that is present in the engine. -/
  live : NormalizedInbound V
  /-- The published owner of the bytes that it produced. -/
  accounting : NormalizedInbound V

/-- `str::trim`. -/
def trim (s : String) : String :=
  String.ofList ((s.toList.dropWhile isWhitespace).reverse.dropWhile isWhitespace).reverse

/-- The users of an inbound by id. -/
def normalizeUsers (tag : String) : Map String UserSpec → List UserSpec → Except String (Map String UserSpec)
  | users, [] => .ok users
  | users, user :: rest =>
    match user.resolvedId with
    | none => .error ("inbound " ++ tag ++ " contains a user with no id")
    | some id =>
      if blank id then .error ("inbound " ++ tag ++ " contains a user with no id")
      else if (users[id]?).isSome then .error ("inbound " ++ tag ++ " lists user " ++ id ++ " twice")
      else normalizeUsers tag (users.insert id user) rest

def normalizeInbound {V : Type} (compiled : CompiledInbound V) : Except String (NormalizedInbound V) :=
  let tag := trim compiled.spec.tag
  if tag.isEmpty then .error "inbound tag is required"
  else if blank compiled.nodeId then .error ("inbound " ++ tag ++ " has no node_id")
  else if blank compiled.protocol then .error ("inbound " ++ tag ++ " has no protocol label")
  else match normalizeUsers tag ∅ (compiled.spec.users.getD []) with
  | .error error => .error error
  | .ok users => .ok ⟨{ compiled with spec := { compiled.spec with tag := tag } },users,compiled.spec.users.isSome⟩

def normalizeInbounds {V : Type} : Map String (NormalizedInbound V) → List (CompiledInbound V) →
    Except String (Map String (NormalizedInbound V))
  | inbounds, [] => .ok inbounds
  | inbounds, compiled :: rest =>
    match normalizeInbound compiled with
    | .error error => .error error
    | .ok inbound =>
      let tag := inbound.compiled.spec.tag
      if (inbounds[tag]?).isSome then .error ("inbound tag " ++ tag ++ " is listed twice")
      else normalizeInbounds (inbounds.insert tag inbound) rest

/-- `normalize`, with the digest of the prepared rule sets. -/
def normalize {V : Type} (config : RuntimeConfig V) (digest : Bytes) : Except String (NormalizedConfig V) :=
  match normalizeInbounds ∅ config.inbounds with
  | .error error => .error error
  | .ok inbounds => .ok ⟨inbounds,digest,config.dnsClientFingerprint⟩

/-! ### Differences -/

structure UserDelta where
  id : String
  added : Bool
  credentialChanged : Bool
deriving DecidableEq

structure InboundDelta where
  tag : String
  configChanged : Bool
  userModeChanged : Bool
  removedUsers : List String
  upsertUsers : List UserDelta
deriving DecidableEq

structure ConfigDiff where
  removed : List String
  added : List String
  changed : List InboundDelta

def sameUser (left right : UserSpec) : Bool :=
  left.id = right.id && left.uuid = right.uuid && left.password = right.password && left.enabled = right.enabled &&
    left.maxConns = right.maxConns && left.uploadLimitBps = right.uploadLimitBps &&
    left.downloadLimitBps = right.downloadLimitBps

def credentialChanged (left right : UserSpec) : Bool := left.uuid ≠ right.uuid || left.password ≠ right.password

/-- What an upsert of one desired user does, if one is needed. -/
def userDelta (before : Map String UserSpec) (entry : String × UserSpec) : Option UserDelta :=
  match before[entry.1]? with
  | none => some ⟨entry.1,true,false⟩
  | some old => if sameUser old entry.2 then none else some ⟨entry.1,false,credentialChanged old entry.2⟩

section
variable {V : Type} [DecidableEq V]

def inboundDelta (ruleSetsChanged : Bool) (tag : String) (before after : NormalizedInbound V) : InboundDelta where
  tag := tag
  configChanged := ruleSetsChanged || before.compiled.spec.config ≠ after.compiled.spec.config
  userModeChanged := before.dynamicUsers ≠ after.dynamicUsers
  removedUsers := before.users.keys.filter (fun id => (after.users[id]?).isNone)
  upsertUsers := after.users.toList.filterMap (userDelta before.users)

/-- Whether there is anything to do. -/
def InboundDelta.relevant (delta : InboundDelta) : Bool :=
  delta.configChanged || delta.userModeChanged || !delta.removedUsers.isEmpty || !delta.upsertUsers.isEmpty

/-- The delta of a tag that stays, if it has one. -/
def changedDelta (current desired : NormalizedConfig V) (entry : String × NormalizedInbound V) : Option InboundDelta :=
  match desired.inbounds[entry.1]? with
  | none => none
  | some after =>
    let delta := inboundDelta (current.ruleSetDigest ≠ desired.ruleSetDigest) entry.1 entry.2 after
    if delta.relevant then some delta else none

def diffConfigs (current desired : NormalizedConfig V) : ConfigDiff where
  removed := current.inbounds.keys.filter (fun tag => (desired.inbounds[tag]?).isNone)
  added := desired.inbounds.keys.filter (fun tag => (current.inbounds[tag]?).isNone)
  changed := current.inbounds.toList.filterMap (changedDelta current desired)

end

/-! ### The state of the runtime -/

inductive Undo (V : Type)
  | addInbound (inbound : NormalizedInbound V) (replay : InboundReplayLease)
  | removeInbound (live accounting : NormalizedInbound V)
  | restoreHotConfig (current previous : NormalizedInbound V) (replay : InboundReplayLease)
  | addUser (inbound : NormalizedInbound V) (user : UserSpec)
  | removeUser (live accounting : NormalizedInbound V) (userId : String)
  | restoreUser (inbound : NormalizedInbound V) (user : UserSpec) (kick : Bool)

/-- A failure that the engine does not decide. -/
inductive Fault
  | io (msg : String)
  | invalidConfig (msg : String)

def Fault.error : Fault → EngineError
  | .io msg => .io msg
  | .invalidConfig msg => .invalidConfig msg

/-- What the environment does at an engine call. -/
structure Moment where
  meters : List Meter
  fault : Option Fault
  /-- Whether something still holds the replay scope that a fresh add asks for. -/
  scopeAlive : Bool

def Moment.quiet : Moment := ⟨[],none,false⟩

structure AppliedState (V : Type) where
  /-- `none` after a failed rollback: the engine has to be reconciled from `recovery`. -/
  current : Option (NormalizedConfig V)
  recovery : Option (NormalizedConfig V)
  /-- Listener generations that survived a failed rollback. -/
  recoveryLive : Map String (RetiringInbound V)
  committed : Bool
  closed : Bool

structure World (V : Type) where
  engine : Engine V
  state : AppliedState V
  closing : Bool
  recoveryReplay : Map String InboundReplayLease
  pending : PendingTraffic
  /-- The inverses of the running transaction, the latest first. -/
  journal : List (Undo V)
  script : List Moment
  /-- The most keys that were ever on file or reserved; no operation reads it. -/
  peak : Nat

def initial (V : Type) (maxKeys : Nat) : World V where
  engine := EngineTable.initial V
  state := ⟨some (NormalizedConfig.default V),none,∅,false,false⟩
  closing := false
  recoveryReplay := ∅
  pending := Receipts.new maxKeys
  journal := []
  script := []
  peak := 0

variable {V : Type}

/-! ### Engine calls -/

/-- Traffic of a registered user. -/
def meterTraffic (w : World V) (traffic : Meter) : World V :=
  match EngineTable.meter w.engine traffic with
  | none => w
  | some engine => { w with engine := engine }

/-- The next moment of the script, with its traffic metered. -/
def moment {ε : Type} : Op (World V) ε Moment := do
  let w ← look
  let now := w.script.headD Moment.quiet
  change (fun w => { now.meters.foldl meterTraffic w with script := w.script.tail })
  return now

/-- An engine call that takes effect as a whole, unless the engine refuses it or the
    environment makes it fail. -/
def call {α : Type} (effect : Moment → Engine V → Except EngineError (α × Engine V)) : Op (World V) EngineError α := do
  let now ← moment
  let w ← look
  match effect now w.engine with
  | .error error => fail error
  | .ok (result,engine) =>
    match now.fault with
    | some fault => fail fault.error
    | none => do
      change (fun w => { w with engine := engine })
      return result

/-- An engine call that only reads. -/
def ask {α : Type} (answer : Engine V → Except EngineError α) : Op (World V) EngineError α :=
  call (fun _ e => (answer e).map (fun result => (result,e)))

/-- An engine call that only writes. -/
def tell (effect : Moment → Engine V → Except EngineError (Engine V)) : Op (World V) EngineError Unit :=
  call (fun now e => (effect now e).map (fun e' => ((),e')))

variable (shoes : Shoes V)

def callAddInbound (spec : InboundSpec V) : Op (World V) EngineError Unit :=
  tell (fun now e => addInbound shoes e spec now.scopeAlive)

def callAddInboundWithReplay (spec : InboundSpec V) (lease : InboundReplayLease) : Op (World V) EngineError Unit :=
  tell (fun _ e => addInboundWithReplay shoes e spec lease)

/-- `update_inbound(update_spec(inbound))`. -/
def callUpdateInbound (inbound : NormalizedInbound V) : Op (World V) EngineError Unit :=
  tell (fun _ e => updateInbound shoes e inbound.compiled.spec.tag inbound.compiled.spec.config)

def callRemoveInboundHard (tag : String) : Op (World V) EngineError Unit := tell (fun _ e => removeInboundHard e tag)

def callAddUser (tag : String) (user : UserSpec) : Op (World V) EngineError Unit := tell (fun _ e => addUser shoes e tag user)

def callKickUser (tag id : String) : Op (World V) EngineError Unit := ask (fun e => kickUser e tag id)

def callListUsers (tag : String) : Op (World V) EngineError (List String) := ask (fun e => listUsers e tag)

def callPreserveInboundReplay (tag : String) : Op (World V) EngineError InboundReplayLease :=
  ask (fun e => preserveInboundReplay e tag)

def callTakeUserTraffic (tag id : String) : Op (World V) EngineError Receipt := call (fun _ e => takeUserTraffic e tag id)

def callValidateInbound (spec : InboundSpec V) : Op (World V) EngineError Unit := ask (fun _ => validateInbound shoes spec)

/-- A call about the process-wide DNS state, which no inbound shows. -/
def callDns : Op (World V) EngineError Unit := ask (fun _ => .ok ())

/-- A removal that fails in I/O has removed the user and keeps its final counters for
    another call. -/
def callRemoveUser (tag id : String) : Op (World V) EngineError Receipt := do
  let now ← moment
  let w ← look
  match removeUser w.engine tag id with
  | .error error => fail error
  | .ok (receipt,engine) =>
    match now.fault with
    | some (.io msg) => do
      change (fun w => { w with engine := strandUser w.engine tag id })
      fail (.io msg)
    | some fault => fail fault.error
    | none => do
      change (fun w => { w with engine := engine })
      return receipt

/-! ### Reservations and receipts -/

def trafficKey (inbound : NormalizedInbound V) (userId : String) : TrafficDrainKey :=
  ⟨inbound.compiled.spec.tag,inbound.compiled.nodeId,inbound.compiled.protocol,userId⟩

/-- Milliseconds as an observation time; zero stands for none. -/
def trafficObservedAt (millis : Nat) : Option Int := if millis ≠ 0 then some (millis * 1000000) else none

def trafficDrain (inbound : NormalizedInbound V) (receipt : Receipt) : TrafficDrain where
  inboundTag := inbound.compiled.spec.tag
  nodeId := inbound.compiled.nodeId
  protocol := inbound.compiled.protocol
  userId := receipt.id
  uplinkBytes := receipt.counters.rx
  downlinkBytes := receipt.counters.tx
  observedAt := trafficObservedAt receipt.counters.lastTrafficObservedAtUnixMillis

/-- Every change of the pending traffic goes through here. -/
def setPending (pending : PendingTraffic) (w : World V) : World V :=
  { w with
    pending := pending
    peak := max w.peak (pending.entries.size + pending.reserved.size) }

structure Reservation where
  key : TrafficDrainKey
  owns : Bool

def reserveTraffic (inbound : NormalizedInbound V) (userId : String) : Op (World V) String Reservation := do
  let w ← look
  match reserve w.pending (trafficKey inbound userId) with
  | .error error => fail error
  | .ok (owns,pending) => do
    change (setPending pending)
    return ⟨trafficKey inbound userId,owns⟩

/-- A reservation that goes out of scope. -/
def dropReservation {ε : Type} (reservation : Reservation) : Op (World V) ε Unit :=
  change (fun w => if reservation.owns then setPending (release w.pending reservation.key) w else w)

def queueTraffic {ε : Type} (reservation : Reservation) (inbound : NormalizedInbound V) (receipt : Receipt) : Op (World V) ε Unit :=
  change (fun w => setPending (mergeReserved w.pending (trafficDrain inbound receipt) reservation.owns) w)

structure UserRemovalFailure where
  message : String
  changed : Bool
  missing : Bool

def EngineError.isUnknownUser : EngineError → Bool
  | .unknownUser _ _ => true
  | _ => false

def removeUserWithRetry (tag userId : String) : Op (World V) UserRemovalFailure Receipt := do
  match ← attempt (callRemoveUser tag userId) with
  | .ok receipt => return receipt
  | .error (.io first) =>
    match ← attempt (callRemoveUser tag userId) with
    | .ok receipt => return receipt
    | .error retry =>
      fail ⟨"user removal finalizer failed: " ++ first ++ "; retry final receipt: " ++ retry.display,true,false⟩
  | .error error => fail ⟨error.display,false,EngineError.isUnknownUser error⟩

/-- Why the final counters of a user were not collected. -/
inductive CollectFailure
  | reserve (error : String)
  | remove (failure : UserRemovalFailure)

/-- Room is reserved, the user is removed, and its final counters are filed. -/
def collectUser (tag : String) (accounting : NormalizedInbound V) (userId : String) : Op (World V) CollectFailure Unit := do
  match ← attempt (reserveTraffic accounting userId) with
  | .error error => fail (.reserve error)
  | .ok reservation =>
    match ← attempt (removeUserWithRetry tag userId) with
    | .ok receipt => queueTraffic reservation accounting receipt
    | .error failure => do
      dropReservation reservation
      fail (.remove failure)

/-! ### Stopping and replacing a listener -/

structure StepFailure where
  operation : String
  rollback : List String
  /-- Whether the step changed live state before it tried its local restore. -/
  changed : Bool
  restored : Bool

def StepFailure.unchanged (operation : String) : StepFailure := ⟨operation,[],false,true⟩

def describeStepFailure (failure : StepFailure) : String :=
  if failure.rollback.isEmpty then failure.operation
  else failure.operation ++ "; local rollback failed: " ++ "; ".intercalate failure.rollback

/-- The users come back in reverse; what fails is reported. -/
def restoreUsers {ε : Type} (tag : String) (users : List UserSpec) : Op (World V) ε (List String) :=
  foldEach (fun errors user => do
    match ← attempt (callAddUser shoes tag user) with
    | .ok _ => return errors
    | .error error => return errors ++ ["restore user " ++ user.resolvedId.getD "<unknown>" ++ " on " ++ tag ++ ": " ++ error.display])
    [] users.reverse

/-- The live users of a listener that is about to stop. -/
def listForStop (tag : String) : Op (World V) StepFailure (List String) := do
  match ← attempt (callListUsers tag) with
  | .ok users => return users
  | .error (.unsupported _) => return []
  | .error error => fail (.unchanged ("list users before removing inbound " ++ tag ++ ": " ++ error.display))

/-- What a stop reports after it has put the users back that it removed. -/
def stopFailure (tag : String) (removed : List UserSpec) (operation : String) (changed : Bool) : Op (World V) StepFailure (List UserSpec) := do
  let rollback ← restoreUsers shoes tag removed
  fail ⟨operation,rollback,changed || !removed.isEmpty,!changed && rollback.isEmpty⟩

/-- One live user leaves the listener that stops; `removed` holds those before it. -/
def retireLiveUser (tag : String) (registry accounting : NormalizedInbound V) (removed : List UserSpec) (userId : String) :
    Op (World V) StepFailure (List UserSpec) :=
  match registry.users[userId]? with
  | none =>
    stopFailure shoes tag removed ("cannot remove inbound " ++ tag ++ ": live user " ++ userId ++ " is absent from AppliedState") false
  | some spec => do
    match ← attempt (collectUser tag accounting userId) with
    | .ok _ => return removed ++ [spec]
    | .error (.reserve error) =>
      stopFailure shoes tag removed
        ("reserve final traffic for user " ++ userId ++ " while stopping inbound " ++ tag ++ ": " ++ error) false
    | .error (.remove failure) =>
      stopFailure shoes tag removed
        ("remove user " ++ userId ++ " before stopping inbound " ++ tag ++ ": " ++ failure.message) failure.changed

def stopInboundWithOwners (listener registry accounting : NormalizedInbound V) : Op (World V) StepFailure Unit := do
  let tag := listener.compiled.spec.tag
  let live ← listForStop tag
  let removed ← foldEach (retireLiveUser shoes tag registry accounting) [] live
  match ← attempt (callRemoveInboundHard tag) with
  | .ok _ => return ()
  | .error error => do
    let _ ← stopFailure shoes tag removed ("remove inbound " ++ tag ++ ": " ++ error.display) false
    return ()

def stopInbound (inbound : NormalizedInbound V) : Op (World V) StepFailure Unit :=
  stopInboundWithOwners shoes inbound inbound inbound

def replaceInboundWithReplayOwners (current registry accounting new : NormalizedInbound V) (replay : InboundReplayLease) :
    Op (World V) StepFailure Unit := do
  stopInboundWithOwners shoes current registry accounting
  match ← attempt (callAddInboundWithReplay shoes new.compiled.spec replay) with
  | .ok _ => return ()
  | .error operation =>
    match ← attempt (callAddInboundWithReplay shoes current.compiled.spec replay) with
    | .ok _ => fail ⟨"start replacement inbound " ++ new.compiled.spec.tag ++ ": " ++ operation.display,[],true,true⟩
    | .error rollback => fail ⟨"start replacement inbound " ++ new.compiled.spec.tag ++ ": " ++ operation.display,
        ["restore inbound " ++ current.compiled.spec.tag ++ ": " ++ rollback.display],true,false⟩

def replaceInbound (old new : NormalizedInbound V) : Op (World V) StepFailure Unit := do
  match ← attempt (callPreserveInboundReplay old.compiled.spec.tag) with
  | .error error => fail (.unchanged ("preserve replay state for inbound " ++ old.compiled.spec.tag ++ ": " ++ error.display))
  | .ok replay => replaceInboundWithReplayOwners shoes old old old new replay

end NodeAgent.Runtime
