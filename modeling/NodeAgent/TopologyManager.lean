import NodeAgent.TopologyMutation
import NodeAgent.Fallible
import NodeAgent.FiniteMap

/-!
The topology manager: revision guards, candidates and the publication after a successful
runtime call. An operation runs under the operation lock, so it is one step here; what the
panel is asked for is fetched outside the lock and given to the operation as a parameter,
with the publication token that was read before the fetch.
-/
namespace NodeAgent.Topology
open NodeAgent.Fallible NodeAgent.FiniteMap

/-! ### The runtime below -/

structure ReloadStatus where
  running : Bool
  rolledBack : Bool
deriving DecidableEq

/-- The trait `TopologyRuntime` over a runtime state `ρ`, with prepared configurations `C`.
    Whatever decides the outcome of a call is part of the state. -/
structure TopologyRuntime (sc : Sections) (ρ C : Type) where
  apply : MachineTopology sc → Op ρ TopologyError Unit
  closeUserConnections : String → String → ρ → ρ
  warnings : ρ → List String
  /-- `sha256_hex(&current_config())`. -/
  configSha256 : ρ → String
  reconcileCurrent : MachineTopology sc → Op ρ TopologyError Unit
  beginClose : ρ → ρ
  close : Op ρ TopologyError Unit
  prepareReload : MachineTopology sc → Op ρ TopologyError C
  configureReload : MachineTopology sc → Op ρ TopologyError Unit
  reloadPrepared : MachineTopology sc → C → Op ρ TopologyError ReloadStatus

/-! ### Results -/

structure UserRefreshChanges where
  added : Nat
  updated : Nat
  deleted : Nat
  applied : Bool
deriving DecidableEq

inductive UserRefreshRevision
  | none
  | advanceTo (target : UInt64)
  | fence (base target : UInt64)
deriving DecidableEq

def UserRefreshRevision.target : UserRefreshRevision → UInt64
  | .none => 0
  | .advanceTo target => target
  | .fence _ target => target

structure UserRefreshRequest where
  nodeId : String
  users : List UserCredential
  expectedCurrent : Option (List UserCredential)
  revision : UserRefreshRevision

inductive ReloadOutcome
  | succeeded
  | failedUnchanged
  | failedRolledBack
  | failedStopped
deriving DecidableEq

inductive ReloadStage
  | pullConfiguration
  | pullUsers
  | buildConfiguration
  | configurePortHopping
  | startInstance
  | rollback
  | completed
deriving DecidableEq

structure TopologyReloadResult where
  outcome : ReloadOutcome
  stage : ReloadStage
  message : String
  topologyRevision : UInt64
  configSha256 : String
  loadedUserCount : Nat
deriving DecidableEq

/-- A failed reload reports no revision, no digest and no users. -/
def failedReload (outcome : ReloadOutcome) (stage : ReloadStage) (message : String) : TopologyReloadResult :=
  ⟨outcome,stage,message,0,"",0⟩

def reloadFailure (stage : ReloadStage) (error : TopologyError) : TopologyReloadResult :=
  let failing := if error.rollbackStage then .rollback else stage
  if error.rolledBack then failedReload .failedRolledBack .rollback error.message
  else if error.running then failedReload .failedUnchanged failing error.message
  else failedReload .failedStopped failing error.message

/-! ### Comparing users -/

/-- `index_node_users`, for lists with distinct, non-empty user IDs. -/
def indexNodeUsers (users : List UserCredential) (source : String) : Except TopologyError (Map String UserCredential) :=
  users.foldlM (fun indexed user =>
    if user.userId = "" then .error (.ofKind .invalidMutation (source ++ " user list contains an empty user_id"))
    else if indexed.contains user.userId then
      .error (.ofKind .invalidMutation (source ++ " user list contains duplicate user_id " ++ user.userId))
    else .ok (indexed.insert user.userId user)) ∅

def compareIndexed (current desired : Map String UserCredential) : UserRefreshChanges :=
  { added := desired.toList.countP (fun entry => current[entry.1]?.isNone)
    updated := desired.toList.countP (fun entry => current[entry.1]?.any (· ≠ entry.2))
    deleted := current.toList.countP (fun entry => !desired.contains entry.1)
    applied := false }

def compareNodeUsers (current desired : List UserCredential) : Except TopologyError UserRefreshChanges := do
  let current ← indexNodeUsers current "current"
  let desired ← indexNodeUsers desired "desired"
  return compareIndexed current desired

/-- Nothing added, updated or deleted. -/
def UserRefreshChanges.none (changes : UserRefreshChanges) : Bool :=
  changes.added = 0 ∧ changes.updated = 0 ∧ changes.deleted = 0

def staleCredentialUserIds (current desired : List UserCredential) : List String :=
  let active (user : UserCredential) : Bool := user.userId ≠ "" ∧ user.status ≠ "disabled"
  let desiredActive : Map String UserCredential :=
    (desired.filter active).foldl (fun held user => held.insert user.userId user) ∅
  ((current.filter active).filter (fun user =>
    desiredActive[user.userId]?.all (fun desired => desired.credential ≠ user.credential))).map UserCredential.userId

variable {sc : Sections}

/-- The users to disconnect, by node. -/
def staleCredentialTopologyUsers (current desired : MachineTopology sc) : Map String (List String) :=
  let desiredByNode : Map String (List UserCredential) :=
    desired.nodes.foldl (fun held node => held.insert node.nodeId node.users) ∅
  current.nodes.foldl (fun held node =>
    let stale := staleCredentialUserIds node.users (desiredByNode[node.nodeId]?.getD [])
    if stale = [] then held else held.insert node.nodeId stale) ∅

def topologyAuthorizesUser (topology : MachineTopology sc) (nodeId userId : String) : Bool :=
  (topology.nodes.find? (fun node => node.nodeId = nodeId)).any (fun node =>
    node.users.any (fun user => user.userId = userId ∧ user.status ≠ "disabled"))

def topologyUserCount (topology : MachineTopology sc) : Nat := (topology.nodes.map (fun node => node.users.length)).sum

def appendWarningSummary (message : String) (warnings : List String) : String :=
  if warnings = [] then message else message ++ "; warnings: " ++ " | ".intercalate warnings

/-! ### The published topology -/

/-- A publication puts another topology in place, or advances the revision of the one there. -/
inductive Publication (sc : Sections)
  | replaced (topology : MachineTopology sc)
  | advanced (revision : UInt64)

structure Published (sc : Sections) where
  topology : MachineTopology sc
  generation : UInt64
  /-- Every publication since the start, the latest last; the program does not keep it. -/
  history : List (Publication sc)

/-- `PublishedTopology::default()`. -/
def Published.default : Published sc := ⟨MachineTopology.default,0,[]⟩

def Published.publish (published : Published sc) (topology : MachineTopology sc) : Published sc :=
  ⟨topology,published.generation + 1,published.history ++ [.replaced topology]⟩

/-- The revision of a topology whose users were found unchanged. -/
def Published.advance (published : Published sc) (revision : UInt64) : Published sc :=
  ⟨published.topology.atRevision revision,published.generation + 1,published.history ++ [.advanced revision]⟩

structure Manager (sc : Sections) (ρ : Type) where
  machineId : String
  published : Published sc
  /-- `operations_cancel` was cancelled. -/
  operationsCancelled : Bool
  closeResult : Option (Except TopologyError Unit)
  runtime : ρ

variable {ρ C ε α : Type}

/-- `TopologyManager::new`. -/
def Manager.initial (machineId : String) (runtime : ρ) : Manager sc ρ := ⟨machineId,Published.default,false,none,runtime⟩

/-- A call of the runtime. -/
def onRuntime (p : Op ρ ε α) : Op (Manager sc ρ) ε α := fun m => ((p m.runtime).1,{ m with runtime := (p m.runtime).2 })

/-! ### Guards -/

/-- `sessionCancelled` is the state of the session token that the caller's handle is bound to. -/
def beginOperation (sessionCancelled : Bool) : Op (Manager sc ρ) TopologyError Unit := do
  let m ← look
  if m.operationsCancelled then fail (.runtime "topology operations are stopped" false)
  else if sessionCancelled then fail (.runtime "control command execution canceled" false)
  else pure ()

def guardRevision (incoming : UInt64) : Op (Manager sc ρ) TopologyError Unit := do
  let m ← look
  let current := m.published.topology.revision
  if incoming = 0 then fail (.ofKind .revisionMismatch "topology revision mismatch: incoming revision is zero")
  else if incoming < current then
    fail (.ofKind .staleRevision s!"stale revision: incoming={incoming} current={current}")
  else pure ()

def guardAuthoritativeRevision (incoming : UInt64) : Op (Manager sc ρ) TopologyError Unit := do
  let m ← look
  let current := m.published.topology
  if current.machineId = "" ∨ current.revision = 0 ∨ current.revision ≤ incoming then pure ()
  else fail (.ofKind .staleRevision s!"stale authoritative topology: incoming={incoming} current={current.revision}")

def guardRevisionFence (base target : UInt64) : Op (Manager sc ρ) TopologyError Unit := do
  let m ← look
  let current := m.published.topology.revision
  if base = 0 ∨ target = 0 then
    fail (.ofKind .revisionMismatch s!"topology revision mismatch: base={base} target={target}")
  else if base ≠ current then
    fail (.ofKind .revisionMismatch s!"topology revision mismatch: base={base} current={current} target={target}")
  else if target < base then
    fail (.ofKind .staleRevision s!"stale revision: incoming={target} current={current}")
  else pure ()

/-! ### Publication -/

/-- `publish_and_close_stale_users`. -/
def publishAndCloseStaleUsers (rt : TopologyRuntime sc ρ C) (topology : MachineTopology sc) : Op (Manager sc ρ) ε Unit := do
  let m ← look
  let stale := staleCredentialTopologyUsers m.published.topology topology
  change (fun m => { m with published := m.published.publish topology })
  forEach stale.toList (fun entry =>
    forEach entry.2 (fun userId => change (fun m => { m with runtime := rt.closeUserConnections entry.1 userId m.runtime })))

/-- `close_explicitly_requested_users`. -/
def closeExplicitlyRequestedUsers (rt : TopologyRuntime sc ρ C) (mutations : List Pb.UserMutation) :
    Op (Manager sc ρ) ε Unit :=
  forEach mutations (fun mutation => change (fun m => match mutation.user with
    | none => m
    | some user =>
      if mutation.kickExistingConnections ∧ mutation.nodeId ≠ "" ∧ user.userId ≠ "" ∧
          topologyAuthorizesUser m.published.topology mutation.nodeId user.userId then
        { m with runtime := rt.closeUserConnections mutation.nodeId user.userId m.runtime }
      else m))

/-- `TopologyManager::apply`. -/
def apply (rt : TopologyRuntime sc ρ C) (topology : MachineTopology sc) : Op (Manager sc ρ) TopologyError String := do
  let m ← look
  let topology := topology.withDefaultId m.machineId
  onRuntime (rt.apply topology)
  let revision := topology.revision
  let nodes := topology.nodes.length
  let users := topologyUserCount topology
  publishAndCloseStaleUsers rt topology
  let m ← look
  pure (appendWarningSummary s!"shoes configuration applied: topology revision={revision}, nodes={nodes}, users={users}"
    (rt.warnings m.runtime))

/-! ### Operations -/

variable (rt : TopologyRuntime sc ρ C) (sessionCancelled : Bool)

def applyInitial (topology : MachineTopology sc) : Op (Manager sc ρ) TopologyError String := do
  beginOperation sessionCancelled
  guardAuthoritativeRevision topology.revision
  apply rt topology

def applyAuthoritativeIfUnchanged (topology : MachineTopology sc) (expected : UInt64) :
    Op (Manager sc ρ) TopologyError String := do
  beginOperation sessionCancelled
  guardAuthoritativeRevision topology.revision
  let m ← look
  let current := m.published.generation
  if current ≠ expected then
    fail (.ofKind .staleRevision
      s!"authoritative topology changed during fetch: expected_generation={expected} current_generation={current}")
  else apply rt topology

/-- The three steps of a forced reload, with the stage that each failure is reported at. -/
def TopologyRuntime.reload (candidate : MachineTopology sc) : Op ρ TopologyReloadResult ReloadStatus := do
  let prepared ← orFail (rt.prepareReload candidate) (reloadFailure .buildConfiguration)
  orFail (rt.configureReload candidate) (reloadFailure .configurePortHopping)
  orFail (rt.reloadPrepared candidate prepared) (reloadFailure .startInstance)

/-- The first part of `reload_from_owned`: the token that is read before the fetch. -/
def beginReload : Op (Manager sc ρ) TopologyReloadResult UInt64 := do
  let m ← look
  if m.operationsCancelled then
    fail (reloadFailure .pullConfiguration (.runtime "topology operations are stopped" false))
  else pure m.published.generation

/-- What the fetch closure answered; `none` when the operations were stopped first. -/
def receiveReload (stage : ReloadStage) :
    Option (Except FetchError (MachineTopology sc)) → Op (Manager sc ρ) TopologyReloadResult (MachineTopology sc)
  | none => fail (reloadFailure stage (.runtime "topology operations are stopped" false))
  | some (.error error) => fail (failedReload .failedUnchanged stage ("reload data from panel: " ++ error.message))
  | some (.ok candidate) => do
    let m ← look
    pure (candidate.withDefaultId m.machineId)

/-- The rest of `reload_from_owned`. A failure is a result like a success. -/
def reloadFrom (baseline : UInt64) (stage : ReloadStage) (fetched : Option (Except FetchError (MachineTopology sc))) :
    Op (Manager sc ρ) TopologyReloadResult TopologyReloadResult := do
  let candidate ← receiveReload stage fetched
  orFail (beginOperation sessionCancelled) (reloadFailure .buildConfiguration)
  let m ← look
  if baseline ≠ m.published.generation then
    fail (reloadFailure .buildConfiguration
      (.ofKind .staleRevision "topology changed while fetching reload configuration; retry reload"))
  else do
    orFail (guardAuthoritativeRevision candidate.revision) (reloadFailure .buildConfiguration)
    let status ← onRuntime (rt.reload candidate)
    if status.running = false then
      fail (failedReload .failedStopped .startInstance "forced reload completed without a running shoes instance")
    else do
      publishAndCloseStaleUsers rt candidate
      let m ← look
      pure ⟨.succeeded,.completed,
        appendWarningSummary "shoes reloaded with fresh panel configuration and users" (rt.warnings m.runtime),
        candidate.revision,rt.configSha256 m.runtime,topologyUserCount candidate⟩

def applySnapshot (snapshot : Option (Pb.TopologySnapshot sc)) : Op (Manager sc ρ) TopologyError String := do
  beginOperation sessionCancelled
  match snapshot with
  | none => fail (.ofKind .invalidMutation "topology_snapshot payload is required")
  | some snapshot => do
    guardRevision snapshot.revision
    let m ← look
    apply rt (fromSnapshot m.machineId (some snapshot))

def applyDelta (delta : Option Pb.TopologyDelta) : Op (Manager sc ρ) TopologyError String := do
  beginOperation sessionCancelled
  match delta with
  | none => fail (.ofKind .invalidMutation "topology_delta payload is required")
  | some delta => do
    guardRevisionFence delta.baseRevision delta.targetRevision
    let m ← look
    match deltaCandidate m.machineId m.published.topology delta with
    | .error error => fail error
    | .ok next => do
      let message ← apply rt next
      closeExplicitlyRequestedUsers rt delta.userMutations
      pure message

def applyRoutePatch (patch : Option (Pb.TopologyRoutePatch sc)) (baseRevision : UInt64) :
    Op (Manager sc ρ) TopologyError String := do
  beginOperation sessionCancelled
  match patch with
  | none => fail (.ofKind .invalidMutation "topology_route_patch payload is required")
  | some patch => do
    guardRevisionFence baseRevision patch.revision
    let m ← look
    apply rt (routePatchCandidate m.machineId m.published.topology patch)

/-- `TopologyManager::apply_user_mutation`. -/
def applyOneUserMutation (mutation : Option Pb.UserMutation) (baseRevision : UInt64) :
    Op (Manager sc ρ) TopologyError String := do
  beginOperation sessionCancelled
  match mutation with
  | none => fail (.ofKind .invalidMutation "user_mutation payload is required")
  | some mutation => do
    guardRevisionFence baseRevision mutation.revision
    let m ← look
    match userMutationCandidate m.machineId m.published.topology mutation with
    | .error error => fail error
    | .ok next => do
      let message ← apply rt next
      closeExplicitlyRequestedUsers rt [mutation]
      pure message

/-- The fence of a refresh, when it has one. -/
def guardRefresh : UserRefreshRevision → Op (Manager sc ρ) TopologyError Unit
  | .fence base target => guardRevisionFence base target
  | _ => pure ()

/-- The users that the caller expects to be loaded are. -/
def expectUsers (nodeId : String) (expected : Option (List UserCredential)) (current : List UserCredential) :
    Except TopologyError Unit :=
  match expected with
  | none => .ok ()
  | some expected => do
    let changes ← compareNodeUsers expected current
    if changes.none then .ok ()
    else .error (.ofKind .usersChangedDuringRefresh ("node users changed during refresh: node=" ++ nodeId))

/-- The users of the node at `index`. -/
def usersAt (topology : MachineTopology sc) (index : Nat) : List UserCredential :=
  (topology.nodes[index]?.map NodeInstance.users).getD []

/-- The place of the node in the published topology, and the changes the refresh makes to its users. -/
def planRefresh (topology : MachineTopology sc) (request : UserRefreshRequest) :
    Except TopologyError (Nat × UserRefreshChanges) :=
  match topology.nodes.findIdx? (fun node => node.nodeId = request.nodeId) with
  | none => .error (.ofKind .invalidMutation ("node " ++ request.nodeId ++ " not found for user refresh"))
  | some index => do
    expectUsers request.nodeId request.expectedCurrent (usersAt topology index)
    let changes ← compareNodeUsers (usersAt topology index) request.users
    return (index,changes)

/-- `refresh_owned`. -/
def refresh (request : UserRefreshRequest) : Op (Manager sc ρ) TopologyError UserRefreshChanges := do
  beginOperation sessionCancelled
  if request.nodeId = "" then fail (.ofKind .invalidMutation "user refresh requires node_id")
  else do
    guardRefresh request.revision
    let m ← look
    let target := request.revision.target
    match planRefresh m.published.topology request with
    | .error error => fail error
    | .ok (index,changes) =>
      if changes.none then do
        change (fun m => if 0 < target ∧ m.published.topology.revision < target then
          { m with published := m.published.advance target } else m)
        pure changes
      else do
        let next := refreshCandidate m.published.topology request.nodeId index request.users target
        let _ ← orFail (apply rt next) (fun error =>
          { error with message := "apply refreshed users for node " ++ request.nodeId ++ ": " ++ error.message })
        pure { changes with applied := true }

def refreshNodeUsers (nodeId : String) (users : List UserCredential) : Op (Manager sc ρ) TopologyError UserRefreshChanges :=
  refresh rt sessionCancelled ⟨nodeId,users,none,.none⟩

def refreshNodeUsersIfCurrentAtRevision (nodeId : String) (users expectedCurrent : List UserCredential)
    (targetRevision : UInt64) : Op (Manager sc ρ) TopologyError UserRefreshChanges :=
  refresh rt sessionCancelled ⟨nodeId,users,some expectedCurrent,.advanceTo targetRevision⟩

def refreshNodeUsersIfCurrentAtRevisionFence (nodeId : String) (users expectedCurrent : List UserCredential)
    (baseRevision targetRevision : UInt64) : Op (Manager sc ρ) TopologyError UserRefreshChanges :=
  refresh rt sessionCancelled ⟨nodeId,users,some expectedCurrent,.fence baseRevision targetRevision⟩

/-- `loaded_users`: a read of the published topology, which does not wait for the operation lock. -/
def loadedUsers (nodeId : String) : Op (Manager sc ρ) TopologyError (List UserCredential) := do
  let m ← look
  if m.operationsCancelled then fail (.runtime "topology operations are stopped" false)
  else match m.published.topology.nodes.find? (fun node => node.nodeId = nodeId) with
    | none => fail (.ofKind .invalidMutation ("node " ++ nodeId ++ " not found in loaded topology"))
    | some node => pure node.users

def reconcileCurrent : Op (Manager sc ρ) TopologyError Unit := do
  beginOperation sessionCancelled
  let m ← look
  if m.published.topology.machineId = "" then pure ()
  else onRuntime (rt.reconcileCurrent m.published.topology)

def stopOperations : Op (Manager sc ρ) ε Unit :=
  change (fun m => { m with operationsCancelled := true, runtime := rt.beginClose m.runtime })

/-- `TopologyManager::close`: the first call closes the runtime, every other one returns its result. -/
def close : Op (Manager sc ρ) TopologyError Unit := do
  stopOperations rt
  let m ← look
  match m.closeResult with
  | some (.ok _) => pure ()
  | some (.error error) => fail error
  | none => do
    match ← attempt (onRuntime rt.close) with
    | .ok _ => change (fun m => { m with closeResult := some (.ok ()) })
    | .error error => do
      change (fun m => { m with closeResult := some (.error error) })
      fail error

end NodeAgent.Topology
