import NodeAgent.Runtime

/-!
Transactions of the runtime: the incremental apply, the full reload, their rollback, the
recovery of an indeterminate runtime, the close and the traffic drain.
-/
namespace NodeAgent.Transaction
open NodeAgent.Api NodeAgent.Credential NodeAgent.EngineTable NodeAgent.Fallible NodeAgent.FiniteMap NodeAgent.Receipts NodeAgent.Runtime

structure RuntimeError where
  operation : String
  rollback : Option String
  rolledBack : Bool
  stateUnchanged : Bool
  running : Bool

def RuntimeError.unchanged (operation : String) (running : Bool) : RuntimeError := ⟨operation,none,false,true,running⟩

def RuntimeError.failed (operation : String) (rollback : List String) (rolledBack stateUnchanged running : Bool) : RuntimeError :=
  ⟨operation,if rollback.isEmpty then none else some ("; ".intercalate rollback),rolledBack,stateUnchanged,running⟩

variable {V : Type} (shoes : Shoes V)

/-- `journal.push`. -/
def push {ε : Type} (undo : Undo V) : Op (World V) ε Unit := change (fun w => { w with journal := undo :: w.journal })

/-- `!engine.list_inbounds().is_empty()`. -/
def running (w : World V) : Bool := !w.engine.inbounds.isEmpty

def uncommittedAccountingOwner (published : Option (NormalizedInbound V)) (candidate : NormalizedInbound V) : NormalizedInbound V :=
  match published with
  | some inbound => inbound
  | none => { candidate with compiled := { candidate.compiled with nodeId := candidate.compiled.spec.tag } }

/-! ### The incremental apply -/

/-- A lookup that the diff makes safe. -/
def expectInbound (config : NormalizedConfig V) (tag : String) : Op (World V) StepFailure (NormalizedInbound V) :=
  match config.inbounds[tag]? with
  | some inbound => pure inbound
  | none => fail (.unchanged "diff tag exists")

def preserveFor (operation tag : String) : Op (World V) StepFailure InboundReplayLease :=
  orFail (callPreserveInboundReplay tag) (fun error => .unchanged (operation ++ tag ++ ": " ++ error.display))

/-- A listener is taken down; its inverse starts it again. -/
def takeDown (old : NormalizedInbound V) (replay : InboundReplayLease) : Op (World V) StepFailure Unit := do
  stopInbound shoes old
  push (.addInbound old replay)

/-- A listener is started; its inverse stops it. -/
def bringUp (operation : String) (start : Op (World V) EngineError Unit) (new accounting : NormalizedInbound V) :
    Op (World V) StepFailure Unit := do
  orFail start (fun error => .unchanged (operation ++ ": " ++ error.display))
  push (.removeInbound new accounting)

def removeTag (current : NormalizedConfig V) (tag : String) : Op (World V) StepFailure Unit := do
  let old ← expectInbound current tag
  let replay ← preserveFor "preserve replay state for inbound " tag
  takeDown shoes old replay

/-- A listener that has to be replaced: old, new and the lease on its namespace. -/
structure Replacement (V : Type) where
  tag : String
  old : NormalizedInbound V
  new : NormalizedInbound V
  replay : InboundReplayLease

/-- The listener takes its new config in place, or is listed for a replacement. -/
def hotUpdate (current desired : NormalizedConfig V) (replacements : List (Replacement V)) (delta : InboundDelta) :
    Op (World V) StepFailure (List (Replacement V)) := do
  let old ← expectInbound current delta.tag
  let new ← expectInbound desired delta.tag
  if delta.userModeChanged then do
    let replay ← preserveFor "preserve replay state before replacing inbound " delta.tag
    return replacements ++ [⟨delta.tag,old,new,replay⟩]
  else if delta.configChanged then do
    let replay ← preserveFor "preserve replay state before updating inbound " delta.tag
    match ← attempt (callUpdateInbound shoes new) with
    | .ok _ => do
      push (.restoreHotConfig new old replay)
      return replacements
    | .error (.reloadRequired _) => return replacements ++ [⟨delta.tag,old,new,replay⟩]
    | .error error => fail (.unchanged ("update inbound " ++ delta.tag ++ ": " ++ error.display))
  else return replacements

def stopReplaced (replacement : Replacement V) : Op (World V) StepFailure Unit :=
  takeDown shoes replacement.old replacement.replay

def startReplacement (replacement : Replacement V) : Op (World V) StepFailure Unit :=
  bringUp ("start replacement inbound " ++ replacement.tag)
    (callAddInboundWithReplay shoes replacement.new.compiled.spec replacement.replay) replacement.new replacement.old

/-- A lookup of a user that the diff makes safe. -/
def expectUser (inbound : NormalizedInbound V) (id : String) : Op (World V) StepFailure UserSpec :=
  match inbound.users[id]? with
  | some user => pure user
  | none => fail (.unchanged "diff user exists")

def retireUser (tag : String) (old : NormalizedInbound V) (id : String) : Op (World V) StepFailure Unit := do
  let oldUser ← expectUser old id
  match ← attempt (collectUser tag old id) with
  | .ok _ => push (.addUser old oldUser)
  | .error (.reserve error) => fail (.unchanged ("reserve final traffic for user " ++ id ++ " on " ++ tag ++ ": " ++ error))
  | .error (.remove failure) =>
    fail ⟨"remove user " ++ id ++ " from " ++ tag ++ ": " ++ failure.message,[],failure.changed,!failure.changed⟩

/-- The inverse of an upsert. -/
def upsertUndo (old new : NormalizedInbound V) (change : UserDelta) (previous : UserSpec) : Undo V :=
  if change.added then .removeUser new old change.id else .restoreUser old previous change.credentialChanged

/-- The spec that an update replaces; an added user replaces none. -/
def replacedUser (old : NormalizedInbound V) (change : UserDelta) (newUser : UserSpec) : Op (World V) StepFailure UserSpec :=
  if change.added then pure newUser else expectUser old change.id

def upsertUser (tag : String) (old new : NormalizedInbound V) (change : UserDelta) : Op (World V) StepFailure Unit := do
  let newUser ← expectUser new change.id
  orFail (callAddUser shoes tag newUser)
    (fun error => .unchanged ("upsert user " ++ change.id ++ " on " ++ tag ++ ": " ++ error.display))
  let previous ← replacedUser old change newUser
  push (upsertUndo old new change previous)
  if change.credentialChanged then
    orFail (callKickUser tag change.id)
      (fun error => .unchanged ("kick stale sessions for user " ++ change.id ++ " on " ++ tag ++ ": " ++ error.display))
  else return ()

/-- Users change in place only on listeners that stayed. -/
def reconcileUsers (current desired : NormalizedConfig V) (replaced : List String) (delta : InboundDelta) :
    Op (World V) StepFailure Unit :=
  if delta.tag ∈ replaced then pure ()
  else do
    let old ← expectInbound current delta.tag
    let new ← expectInbound desired delta.tag
    forEach delta.removedUsers (retireUser delta.tag old)
    forEach delta.upsertUsers (upsertUser shoes delta.tag old new)

def startAdded (desired : NormalizedConfig V) (tag : String) : Op (World V) StepFailure Unit := do
  let new ← expectInbound desired tag
  bringUp ("add inbound " ++ tag) (callAddInbound shoes new.compiled.spec) new (uncommittedAccountingOwner none new)

/-- The bytes of one user up to now go to the old owner. -/
def flushUser (tag : String) (old : NormalizedInbound V) (id : String) : Op (World V) StepFailure Unit := do
  let reservation ← orFail (reserveTraffic old id) (fun error => .unchanged ("reserve old traffic for user " ++ id ++
    " before changing ownership metadata for inbound " ++ tag ++ ": " ++ error))
  match ← attempt (callTakeUserTraffic tag id) with
  | .ok receipt => queueTraffic reservation old receipt
  | .error error => do
    dropReservation reservation
    fail (.unchanged ("take old traffic for user " ++ id ++ " before changing ownership metadata for inbound " ++ tag ++
      ": " ++ error.display))

def flushInbound (desired : NormalizedConfig V) (replaced : List String) (entry : String × NormalizedInbound V) :
    Op (World V) StepFailure Unit :=
  if entry.1 ∈ replaced then pure ()
  else match desired.inbounds[entry.1]? with
  | none => pure ()
  | some new =>
    if entry.2.compiled.nodeId = new.compiled.nodeId ∧ entry.2.compiled.protocol = new.compiled.protocol then pure ()
    else do
      match ← attempt (callListUsers entry.1) with
      | .ok users => forEach users (flushUser entry.1 entry.2)
      | .error (.unsupported _) => return ()
      | .error error => fail (.unchanged ("list users before changing ownership metadata for inbound " ++ entry.1 ++ ": " ++
          error.display))

def flushChangedTrafficMetadata (previous desired : NormalizedConfig V) (replaced : List String) : Op (World V) StepFailure Unit :=
  forEach previous.inbounds.toList (flushInbound desired replaced)

/-! ### The full reload -/

def stopForReload (replays : Map String InboundReplayLease) (entry : String × NormalizedInbound V) :
    Op (World V) StepFailure (Map String InboundReplayLease) := do
  let replay ← preserveFor "preserve replay state for inbound " entry.1
  takeDown shoes entry.2 replay
  return replays.insert entry.1 replay

/-- A candidate joins the namespace of the listener that it takes the place of. -/
def addCandidate (replays : Map String InboundReplayLease) (entry : String × NormalizedInbound V) : Op (World V) EngineError Unit :=
  match replays[entry.1]? with
  | some replay => callAddInboundWithReplay shoes entry.2.compiled.spec replay
  | none => callAddInbound shoes entry.2.compiled.spec

def startCandidate (current : NormalizedConfig V) (replays : Map String InboundReplayLease) (entry : String × NormalizedInbound V) :
    Op (World V) StepFailure Unit :=
  bringUp ("start full-reload candidate inbound " ++ entry.1) (addCandidate shoes replays entry) entry.2
    (uncommittedAccountingOwner current.inbounds[entry.1]? entry.2)

def executeFullReload (current desired : NormalizedConfig V) : Op (World V) StepFailure Unit := do
  let replays ← foldEach (stopForReload shoes) ∅ current.inbounds.toList
  forEach desired.inbounds.toList (startCandidate shoes current replays)

def executeApply [DecidableEq V] (current desired : NormalizedConfig V) (forceConfigReload : Bool) : Op (World V) StepFailure Unit :=
  if forceConfigReload then executeFullReload shoes current desired
  else do
    let diff := diffConfigs current desired
    forEach diff.removed (removeTag shoes current)
    let replacements ← foldEach (hotUpdate shoes current desired) [] diff.changed
    forEach replacements (stopReplaced shoes)
    forEach replacements (startReplacement shoes)
    let replaced := replacements.map Replacement.tag
    forEach diff.changed (reconcileUsers shoes current desired replaced)
    forEach diff.added (startAdded shoes desired)
    flushChangedTrafficMetadata current desired replaced

/-! ### Rollback -/

def performUndo : Undo V → Op (World V) String Unit
  | .addInbound inbound replay =>
    orFail (callAddInboundWithReplay shoes inbound.compiled.spec replay)
      (fun error => "restore inbound " ++ inbound.compiled.spec.tag ++ ": " ++ error.display)
  | .removeInbound live accounting =>
    orFail (stopInboundWithOwners shoes live live accounting) (fun failure => "remove candidate: " ++ describeStepFailure failure)
  | .restoreHotConfig current previous replay =>
    orFail (replaceInboundWithReplayOwners shoes current previous previous previous replay) describeStepFailure
  | .addUser inbound user =>
    orFail (callAddUser shoes inbound.compiled.spec.tag user) (fun error => "restore user " ++ user.resolvedId.getD "<unknown>" ++
      " on " ++ inbound.compiled.spec.tag ++ ": " ++ error.display)
  | .removeUser live accounting userId =>
    orFail (collectUser live.compiled.spec.tag accounting userId) (fun failure => match failure with
      | .reserve error => "reserve candidate user " ++ userId ++ " traffic on " ++ live.compiled.spec.tag ++ ": " ++ error
      | .remove failure => "remove candidate user " ++ userId ++ " from " ++ live.compiled.spec.tag ++ ": " ++ failure.message)
  | .restoreUser inbound user kick => do
    let id := user.resolvedId.getD "<unknown>"
    orFail (callAddUser shoes inbound.compiled.spec.tag user)
      (fun error => "restore user " ++ id ++ " on " ++ inbound.compiled.spec.tag ++ ": " ++ error.display)
    if kick then
      orFail (callKickUser inbound.compiled.spec.tag id)
        (fun error => "kick candidate sessions for " ++ id ++ " on " ++ inbound.compiled.spec.tag ++ ": " ++ error.display)
    else return ()

/-- The known survivors after an undo that succeeded. -/
def undone (live : Map String (RetiringInbound V)) : Undo V → Map String (RetiringInbound V)
  | .addInbound inbound _ => live.insert inbound.compiled.spec.tag ⟨inbound,inbound⟩
  | .removeInbound candidate _ => live.erase candidate.compiled.spec.tag
  | .restoreHotConfig _ previous _ => live.insert previous.compiled.spec.tag ⟨previous,previous⟩
  | _ => live

/-- The generation that survives an undo that failed. -/
def survivor : Undo V → Option (RetiringInbound V)
  | .removeInbound live accounting => some ⟨live,accounting⟩
  | .restoreHotConfig current previous _ => some ⟨current,previous⟩
  | .removeUser live accounting _ => some ⟨live,accounting⟩
  | _ => none

/-- The known survivors after an undo that failed. -/
def survived (e : Engine V) (live : Map String (RetiringInbound V)) (undo : Undo V) : Map String (RetiringInbound V) :=
  match survivor undo with
  | some inbound =>
    if (e.inbounds[inbound.live.compiled.spec.tag]?).isSome then live.insert inbound.live.compiled.spec.tag inbound else live
  | none => live

def undoOne {ε : Type} (progress : List String × Map String (RetiringInbound V)) (undo : Undo V) :
    Op (World V) ε (List String × Map String (RetiringInbound V)) := do
  match ← attempt (performUndo shoes undo) with
  | .ok _ => return (progress.1,undone progress.2 undo)
  | .error error => do
    let w ← look
    return (progress.1 ++ [error],survived w.engine progress.2 undo)

/-- The errors of the rollback, and what survived it. -/
def rollbackJournal {ε : Type} : Op (World V) ε (List String × Map String (RetiringInbound V)) := do
  let w ← look
  change (fun w => { w with journal := [] })
  let (errors,live) ← foldEach (undoOne shoes) ([],∅) w.journal
  return (errors,if errors.isEmpty then ∅ else live)

structure DnsReloadContext where
  clientRotated : Bool
  fullReload : Bool

/-- New flows of a restored inbound leave the candidate's DNS generation. -/
def refreshRestored {ε : Type} (rollback : List String) (entry : String × NormalizedInbound V) : Op (World V) ε (List String) := do
  match ← attempt (callUpdateInbound shoes entry.2) with
  | .ok _ => return rollback
  | .error (.reloadRequired _) =>
    match ← attempt (replaceInbound shoes entry.2 entry.2) with
    | .ok _ => return rollback
    | .error failure => return rollback ++ ["rebuild rollback DNS state for " ++ entry.2.compiled.spec.tag ++ ": " ++
        describeStepFailure failure]
  | .error error => return rollback ++ ["refresh rollback DNS state for " ++ entry.2.compiled.spec.tag ++ ": " ++ error.display]

/-- The state is known again: this config is what runs. -/
def publishKnown {ε : Type} (config : NormalizedConfig V) : Op (World V) ε Unit :=
  change (fun w => { w with
    state := { w.state with current := some config, recovery := none, recoveryLive := ∅ }
    recoveryReplay := ∅ })

/-- The process-wide DNS state is set when a transaction needs it. -/
def configureDns {ε : Type} (needed : Bool) : Op (World V) ε (Except EngineError Unit) :=
  if needed then attempt callDns else pure (.ok ())

/-- The DNS state of what the rollback brought back, when the client had rotated. -/
def refreshAll {ε : Type} (previous : NormalizedConfig V) (rotated : Bool) (undoErrors : List String) : Op (World V) ε (List String) :=
  if rotated && undoErrors.isEmpty then foldEach (refreshRestored shoes) undoErrors previous.inbounds.toList
  else pure undoErrors

/-- The config before is known to run again, or has to be recovered. -/
def publishFailed {ε : Type} (previous : NormalizedConfig V) (previousReplay : Map String InboundReplayLease)
    (recoveryLive : Map String (RetiringInbound V)) (fullyRestored : Bool) : Op (World V) ε Unit :=
  if fullyRestored then publishKnown previous
  else change (fun w => { w with
    state := { w.state with current := none, recovery := some previous, recoveryLive := recoveryLive }
    recoveryReplay := previousReplay })

/-- The errors of a failed step so far, with what the DNS restore adds. -/
def sidecarErrors (rollback : List String) : Except EngineError Unit → List String
  | .ok _ => rollback
  | .error error => rollback ++ ["restore generation-global URLTest probe DNS: " ++ error.display]

def finishFailedTransaction {ε : Type} (previous : NormalizedConfig V) (previousReplay : Map String InboundReplayLease)
    (failure : StepFailure) (dns : DnsReloadContext) : Op (World V) ε RuntimeError := do
  let w ← look
  let restorationAttempted := dns.fullReload || failure.changed || !w.journal.isEmpty
  let configured ← configureDns dns.fullReload
  let (journalErrors,recoveryLive) ← rollbackJournal shoes
  let rollback ← refreshAll shoes previous (dns.clientRotated && failure.restored)
    (sidecarErrors failure.rollback configured ++ journalErrors)
  let fullyRestored := failure.restored && rollback.isEmpty
  publishFailed previous previousReplay recoveryLive fullyRestored
  return RuntimeError.failed failure.operation rollback
    (fullyRestored && restorationAttempted && !previous.inbounds.isEmpty) (fullyRestored && !restorationAttempted) fullyRestored

/-! ### Recovery -/

/-- A configured id that the engine does not know was collected before. -/
def forceCollect (tag : String) (inbound : RetiringInbound V) (userId : String) : Op (World V) String Unit := do
  match ← attempt (collectUser tag inbound.accounting userId) with
  | .ok _ => return ()
  | .error (.reserve error) =>
    fail ("reserve final traffic for user " ++ userId ++ " while stopping " ++ tag ++ ": " ++ error)
  | .error (.remove failure) =>
    if failure.missing && !failure.changed then return ()
    else fail ("remove user " ++ userId ++ " while stopping " ++ tag ++ ": " ++ failure.message)

/-- The ids that a forced stop collects: `list_users` omits tombstones, so those of the
    generation's configs are added. -/
def forceIds (users : List String) (known : Option (RetiringInbound V)) : List String :=
  match known with
  | some inbound =>
    if inbound.live.dynamicUsers then
      ((users ++ inbound.live.users.keys ++ inbound.accounting.users.keys).foldl (fun ids id => ids.insert id ())
        (∅ : Map String Unit)).keys
    else users
  | none => users

/-- The users of a listener that is forced to stop are collected for their known owner. -/
def forceCollectAll (tag : String) (known : Option (RetiringInbound V)) : Op (World V) String Unit := do
  match ← attempt (callListUsers tag) with
  | .ok users =>
    match known with
    | none =>
      if !users.isEmpty then
        fail ("cannot safely stop untracked inbound " ++ tag ++ ": traffic ownership metadata is unavailable")
      else return ()
    | some inbound => forEach (forceIds users known) (forceCollect tag inbound)
  | .error (.unsupported _) => return ()
  | .error error => fail ("list users while stopping " ++ tag ++ ": " ++ error.display)

def forceStopTag (tag : String) (known : Option (RetiringInbound V)) : Op (World V) String Unit := do
  forceCollectAll tag known
  orFail (callRemoveInboundHard tag) (fun error => "remove inbound " ++ tag ++ ": " ++ error.display)

/-- A live listener that no undo has left an entry for is one of the retained config. -/
def learn (recovery : NormalizedConfig V) (known : Map String (RetiringInbound V)) (tag : String) : Map String (RetiringInbound V) :=
  match known[tag]?, recovery.inbounds[tag]? with
  | none, some inbound => known.insert tag ⟨inbound,inbound⟩
  | _, _ => known

/-- A recovery starts from what it knows of every live listener. -/
def knownLive (e : Engine V) (recovery : NormalizedConfig V) (live : Map String (RetiringInbound V)) : Map String (RetiringInbound V) :=
  e.inbounds.keys.foldl (learn recovery) (live.filter (fun tag _ => (e.inbounds[tag]?).isSome))

def publishRecoveryLive {ε : Type} (live : Map String (RetiringInbound V)) : Op (World V) ε Unit :=
  change (fun w => { w with state := { w.state with recoveryLive := live } })

def recoverStop {ε : Type} (progress : List String × Map String (RetiringInbound V)) (tag : String) :
    Op (World V) ε (List String × Map String (RetiringInbound V)) := do
  match ← attempt (forceStopTag tag progress.2[tag]?) with
  | .error error => return (progress.1 ++ [error],progress.2)
  | .ok _ => do
    publishRecoveryLive (progress.2.erase tag)
    return (progress.1,progress.2.erase tag)

def recoverStart (replay : Map String InboundReplayLease) (live : Map String (RetiringInbound V)) (entry : String × NormalizedInbound V) :
    Op (World V) RuntimeError (Map String (RetiringInbound V)) := do
  let tag := entry.2.compiled.spec.tag
  match replay[tag]? with
  | none => fail (.failed ("restore recovery inbound " ++ tag ++ ": replay namespace was not retained") [] false false false)
  | some lease =>
    match ← attempt (callAddInboundWithReplay shoes entry.2.compiled.spec lease) with
    | .error error => do
      let w ← look
      fail (.failed ("restore recovery inbound " ++ tag ++ ": " ++ error.display) [] false false (running w))
    | .ok _ => do
      publishRecoveryLive (live.insert tag ⟨entry.2,entry.2⟩)
      return live.insert tag ⟨entry.2,entry.2⟩

def recoverIfNeeded : Op (World V) RuntimeError Unit := do
  let w ← look
  if w.state.current.isSome then return ()
  else do
    let recovery := w.state.recovery.getD (NormalizedConfig.default V)
    let live := knownLive w.engine recovery w.state.recoveryLive
    publishRecoveryLive live
    let (errors,live) ← foldEach recoverStop ([],live) w.engine.inbounds.keys
    if !errors.isEmpty then do
      let w ← look
      fail (.failed "clean up an indeterminate runtime before recovery" errors false false (running w))
    else do
      orFail callDns (fun error => .failed ("restore generation-global URLTest probe DNS: " ++ error.display) [] false false false)
      let _ ← foldEach (recoverStart shoes w.recoveryReplay) live recovery.inbounds.toList
      publishKnown recovery

/-! ### The transaction -/

/-- A transaction that was refused before it began, or that failed and was rolled back. -/
inductive TransactionError
  | refused (error : RuntimeError)
  | failed (error : RuntimeError)

/-- A preflight check fails. -/
def refuse {α : Type} (operation : String) : Op (World V) TransactionError α := do
  let w ← look
  fail (.refused (.unchanged operation (running w)))

def validateDesired (entry : String × NormalizedInbound V) : Op (World V) TransactionError Unit := do
  match ← attempt (callValidateInbound shoes entry.2.compiled.spec) with
  | .ok _ => return ()
  | .error error => refuse ("validate inbound " ++ entry.2.compiled.spec.tag ++ ": " ++ error.display)

def captureLease (config : NormalizedConfig V) (replay : Map String InboundReplayLease) (tag : String) :
    Op (World V) TransactionError (Map String InboundReplayLease) := do
  match ← attempt (callPreserveInboundReplay tag) with
  | .ok lease => return replay.insert tag lease
  | .error error => fail (.refused (.unchanged ("preserve replay state for inbound " ++ tag ++ ": " ++ error.display)
      (!config.inbounds.isEmpty)))

def captureReplayState (config : NormalizedConfig V) : Op (World V) TransactionError (Map String InboundReplayLease) :=
  foldEach (captureLease config) ∅ config.inbounds.keys

/-- Everything that is decided before the first live change: the known config, the leases
    on its namespaces, and whether the process DNS client rotates. -/
def preflight (desired : NormalizedConfig V) (forceReload : Bool) :
    Op (World V) TransactionError (NormalizedConfig V × Map String InboundReplayLease × DnsReloadContext) := do
  orFail (recoverIfNeeded shoes) .refused
  let w ← look
  match w.state.current with
  | none => refuse "recovery publishes a known state"
  | some previous => do
    forEach desired.inbounds.toList (validateDesired shoes)
    match ← attempt callDns with
    | .error error => refuse ("validate generation-global URLTest probe DNS: " ++ error.display)
    | .ok _ => do
      let previousReplay ← captureReplayState previous
      let full := forceReload || previous.dnsClientFingerprint ≠ desired.dnsClientFingerprint ||
        previous.ruleSetDigest ≠ desired.ruleSetDigest
      return (previous,previousReplay,⟨full && w.state.committed,full⟩)

/-- The published config, once a transaction has committed. -/
def publishCommitted {ε : Type} (desired : NormalizedConfig V) : Op (World V) ε Unit := do
  publishKnown desired
  change (fun w => { w with state := { w.state with committed := true }, journal := [] })

def applyTransactionLocked [DecidableEq V] (config : RuntimeConfig V) (digest : Bytes) (forceReload : Bool) :
    Op (World V) TransactionError Unit := do
  let w ← look
  if w.closing || w.state.closed then refuse "runtime is closed"
  else match normalize config digest with
  | .error error => refuse ("normalize runtime config: " ++ error)
  | .ok desired => do
    let (previous,previousReplay,dns) ← preflight shoes desired forceReload
    let w ← look
    match ← configureDns (dns.fullReload || !w.state.committed) with
    | .error error => do
      let failed ← finishFailedTransaction shoes previous previousReplay
        (.unchanged ("configure generation-global URLTest probe DNS: " ++ error.display)) dns
      fail (.failed failed)
    | .ok _ =>
      match ← attempt (executeApply shoes previous desired dns.fullReload) with
      | .ok _ => publishCommitted desired
      | .error failure => do
        let failed ← finishFailedTransaction shoes previous previousReplay failure dns
        fail (.failed failed)

/-! ### Close and drain -/

/-- What a close knows of a live listener. -/
def closeKnown (known : Option (NormalizedConfig V)) (live : Map String (RetiringInbound V)) (tag : String) : Option (RetiringInbound V) :=
  match live[tag]? with
  | some inbound => some inbound
  | none => (known.bind (fun config => config.inbounds[tag]?)).map (fun inbound => ⟨inbound,inbound⟩)

def closeTag {ε : Type} (known : Option (NormalizedConfig V)) (live : Map String (RetiringInbound V)) (errors : List String) (tag : String) :
    Op (World V) ε (List String) := do
  match ← attempt (forceStopTag tag (closeKnown known live tag)) with
  | .ok _ => return errors
  | .error error => return errors ++ [error]

/-- An empty snapshot is published. -/
def publishClosed {ε : Type} : Op (World V) ε Unit := do
  publishKnown (NormalizedConfig.default V)
  change (fun w => { w with state := { w.state with committed := false } })

def closeOwned : Op (World V) RuntimeError Unit := do
  change (fun w => { w with closing := true })
  let w ← look
  if w.state.closed && w.engine.inbounds.isEmpty then publishClosed
  else do
    let known := match w.state.current with
      | some config => some config
      | none => w.state.recovery
    let errors ← foldEach (closeTag known w.state.recoveryLive) [] w.engine.inbounds.keys
    change (fun w => { w with state := { w.state with closed := true } })
    if errors.isEmpty then publishClosed
    else do
      change (fun w => { w with state := { w.state with current := none, recovery := known } })
      let w ← look
      fail (.failed "close shoes runtime" errors false false (running w))

/-- The counters of one inbound, filed under its published owner. -/
def drainInbound {ε : Type} (drained : TrafficDrainEntries) (entry : String × NormalizedInbound V) : Op (World V) ε TrafficDrainEntries := do
  match ← attempt (call (fun _ e => takeNonzeroInboundTraffic e entry.1)) with
  | .error _ => return drained
  | .ok users => return (users.map (trafficDrain entry.2)).foldl mergeTrafficEntry drained

def drainTrafficOwned {ε : Type} : Op (World V) ε (List TrafficDrain) := do
  let w ← look
  let (pendingReceipts,pending) := drain w.pending
  change (setPending pending)
  let start := pendingReceipts.foldl mergeTrafficEntry ∅
  let drained ← foldEach drainInbound start ((w.state.current.map (fun config => config.inbounds.toList)).getD [])
  return records drained

/-! ### Runs -/

inductive Event (V : Type)
  /-- `apply_config`, `reload_config` or a refresh of the rule sets. -/
  | apply (config : RuntimeConfig V) (digest : Bytes) (forceReload : Bool) (script : List Moment)
  | beginClose
  | close (script : List Moment)
  | drainTraffic (script : List Moment)
  | meter (traffic : Meter)

/-- The state after an operation that reads this script. -/
def perform {ε α : Type} (p : Op (World V) ε α) (script : List Moment) (w : World V) : World V :=
  { (p { w with script := script }).2 with script := [] }

/-- Each transaction holds the apply lock from its first to its last step. -/
def step [DecidableEq V] (w : World V) : Event V → Option (World V)
  | .apply config digest forceReload script => some (perform (applyTransactionLocked shoes config digest forceReload) script w)
  | .beginClose => some { w with closing := true }
  | .close script => some (perform closeOwned script w)
  | .drainTraffic script => some (perform (@drainTrafficOwned V Empty) script w)
  | .meter traffic => some (meterTraffic w traffic)

end NodeAgent.Transaction
