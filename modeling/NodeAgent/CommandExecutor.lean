import NodeAgent.PublishedTopology

/-!
The execution of a control command by `TopologyCommandExecutor`: the direct application, the
resync after a revision mismatch with the rebased replay, and the refresh of a node's users
with its own recovery. Between two interactions with the topology manager an execution waits
for the panel, and other operations run; each interaction is one step here.
-/
namespace NodeAgent.Control
open NodeAgent.Topology NodeAgent.Fallible NodeAgent.Transition

variable {sc : Sections} {ρ C : Type}

/-! ### Commands -/

inductive ControlCommandType
  | unspecified
  | topologySnapshot
  | topologyDelta
  | maintenance
  | diagnostics
  | upgrade
  | userMutation
  | routePatch
  | userRefresh
deriving DecidableEq

/-- `ControlCommandType::try_from`. -/
def ControlCommandType.tryFrom (value : Int32) : Option ControlCommandType :=
  if value = 0 then some .unspecified else if value = 1 then some .topologySnapshot
  else if value = 2 then some .topologyDelta else if value = 5 then some .maintenance
  else if value = 6 then some .diagnostics else if value = 7 then some .upgrade
  else if value = 8 then some .userMutation else if value = 9 then some .routePatch
  else if value = 10 then some .userRefresh else none

/-- The payloads of topology commands; the policy looks at the others. -/
inductive Payload (sc : Sections)
  | topologySnapshot (snapshot : Pb.TopologySnapshot sc)
  | topologyDelta (delta : Pb.TopologyDelta)
  | topologyRoutePatch (patch : Pb.TopologyRoutePatch sc)
  | userMutation (mutation : Pb.UserMutation)
  | other

structure ControlCommand (sc : Sections) where
  commandId : String
  operationId : String
  machineId : String
  nodeId : String
  revision : UInt64
  baseRevision : UInt64
  idempotencyKey : String
  type : Int32
  payload : Option (Payload sc)

/-- `revision_fenced_command`. -/
def revisionFencedCommand (type : Int32) : Bool :=
  match ControlCommandType.tryFrom type with
  | some .topologyDelta | some .routePatch | some .userMutation | some .userRefresh => true
  | _ => false

/-- `rebase_control_command`. -/
def rebaseControlCommand (command : ControlCommand sc) (baseRevision : UInt64) : ControlCommand sc :=
  { command with
    baseRevision := baseRevision
    payload := command.payload.map (fun payload => match payload with
      | .topologyDelta delta => .topologyDelta { delta with baseRevision := baseRevision }
      | payload => payload) }

inductive AckStatus
  | accepted
  | applied
  | failed
  | rolledBack
deriving DecidableEq

structure TerminalResult where
  status : AckStatus
  message : String
deriving DecidableEq

structure ApplyFailure where
  message : String
  revisionRecovery : Bool
  rolledBack : Bool

def ApplyFailure.plain (message : String) : ApplyFailure := ⟨message,false,false⟩

def ApplyFailure.revision (message : String) : ApplyFailure := ⟨message,true,false⟩

def ApplyFailure.ofTopologyError (error : TopologyError) : ApplyFailure :=
  ⟨error.message,error.revisionRecoveryRequired,error.rolledBack⟩

/-- `ensure_active` found the session cancelled. -/
def ApplyFailure.canceled : ApplyFailure := .plain "control command execution canceled"

def maxUserRefreshAttempts : Nat := 3

/-- `dash_if_empty`. -/
def dashIfEmpty (value : String) : String := if value = "" then "-" else value

/-! ### Executions -/

/-- Whether a command is applied as it came, or rebased on the revision a resync has loaded. -/
inductive Attempt
  | first
  | replay (resyncMessage : String) (base : UInt64)

/-- Where an execution stands between two interactions with the manager or the panel. -/
inductive Phase (sc : Sections)
  /-- `apply_command`. -/
  | apply (attempt : Attempt)
  /-- The loop of `execute_refresh`, with the attempts that are left. -/
  | loadUsers (attempt : Attempt) (left : Nat)
  | fetchUsers (attempt : Attempt) (left : Nat) (current : List UserCredential)
  | refreshUsers (attempt : Attempt) (left : Nat) (current desired : List UserCredential)
  /-- `recover_refresh_revision`. -/
  | recover (attempt : Attempt) (cause : TopologyError)
  | recoverFetch (attempt : Attempt) (cause : TopologyError) (token : UInt64)
  | recoverApply (attempt : Attempt) (cause : TopologyError) (token : UInt64) (topology : MachineTopology sc)
  | recoverRead (attempt : Attempt) (cause : TopologyError) (message : String)
  /-- `resync` in `apply_with_recovery`. -/
  | resync (cause : String)
  | resyncFetch (cause : String) (token : UInt64)
  | resyncApply (cause : String) (token : UInt64) (topology : MachineTopology sc)
  | resyncRead (cause : String) (message : String)
  | answered (result : TerminalResult)

structure Execution (sc : Sections) where
  command : ControlCommand sc
  phase : Phase sc
  /-- The published revisions that the command's own mutation was applied to. -/
  mutated : List UInt64

def Execution.start (command : ControlCommand sc) : Execution sc := ⟨command,.apply .first,[]⟩

/-- The command as an attempt applies it. -/
def Attempt.command (attempt : Attempt) (command : ControlCommand sc) : ControlCommand sc :=
  match attempt with
  | .first => command
  | .replay _ base => rebaseControlCommand command base

/-- `execute_regular` turns a failure into the answer. -/
def failedAnswer (failure : ApplyFailure) : TerminalResult :=
  ⟨if failure.rolledBack then .rolledBack else .failed,failure.message⟩

/-- What `apply_with_recovery` does with the result of `apply_command`. -/
def Execution.finish (x : Execution sc) (attempt : Attempt) (result : Except ApplyFailure String) : Execution sc :=
  match attempt, result with
  | .first, .ok message => { x with phase := .answered ⟨.applied,message⟩ }
  | .first, .error failure =>
    if failure.revisionRecovery then { x with phase := .resync failure.message }
    else { x with phase := .answered (failedAnswer failure) }
  | .replay resyncMessage _, .ok message =>
    { x with phase := .answered ⟨.applied,"revision mismatch, " ++ resyncMessage ++ "; replayed: " ++ message⟩ }
  | .replay _ base, .error failure =>
    let target := x.command.revision
    { x with phase := .answered (failedAnswer { failure with
        message := s!"revision resync replay from base {base} to target {target}: " ++ failure.message }) }

/-- What the panel and the session give to a step of an execution. -/
structure Input (sc : Sections) where
  /-- What `ensure_active` finds. -/
  cancelled : Bool
  /-- The session token as the manager finds it. -/
  sessionCancelled : Bool
  policy : Except String String
  topology : Except FetchError (MachineTopology sc)
  users : Except FetchError (List UserCredential)

/-- A mutation of the command's own, applied to what is published. -/
def Execution.mutate (x : Execution sc) (attempt : Attempt) (m : Manager sc ρ)
    (call : Except TopologyError String × Manager sc ρ) : Execution sc × Manager sc ρ :=
  match call with
  | (.ok message,m') =>
    ({ x with mutated := x.mutated ++ [m.published.topology.revision] }.finish attempt (.ok message),m')
  | (.error error,m') => (x.finish attempt (.error (.ofTopologyError error)),m')

variable (rt : TopologyRuntime sc ρ C)

/-- `apply_command`; a refresh goes on in steps of its own. -/
def applyCommand (x : Execution sc) (attempt : Attempt) (input : Input sc) (m : Manager sc ρ) :
    Execution sc × Manager sc ρ :=
  let command := attempt.command x.command
  let mismatch (message : String) : Execution sc × Manager sc ρ := (x.finish attempt (.error (.revision message)),m)
  let revision := command.revision
  let base := command.baseRevision
  if input.cancelled then (x.finish attempt (.error .canceled),m)
  else match ControlCommandType.tryFrom command.type with
    | none => (x.finish attempt (.error (.plain ("unsupported control command type " ++ toString command.type))),m)
    | some .topologySnapshot => match command.payload with
      | some (.topologySnapshot snapshot) =>
        if revision ≠ snapshot.revision then
          mismatch (s!"topology revision mismatch: command revision={revision} snapshot revision=" ++ toString snapshot.revision)
        else
          let call := applySnapshot rt input.sessionCancelled (some snapshot) m
          (x.finish attempt (call.1.mapError .ofTopologyError),call.2)
      | _ => mismatch s!"topology revision mismatch: command revision={revision} snapshot revision=0"
    | some .topologyDelta => match command.payload with
      | some (.topologyDelta delta) =>
        if base ≠ delta.baseRevision ∨ revision ≠ delta.targetRevision then
          mismatch (s!"topology revision mismatch: command base={base} target={revision} delta base=" ++
            toString delta.baseRevision ++ " target=" ++ toString delta.targetRevision)
        else x.mutate attempt m (applyDelta rt input.sessionCancelled (some delta) m)
      | _ => mismatch s!"topology revision mismatch: command base={base} target={revision} delta base=0 target=0"
    | some .routePatch => match command.payload with
      | some (.topologyRoutePatch patch) =>
        if revision ≠ patch.revision then
          mismatch (s!"topology revision mismatch: command revision={revision} route patch revision=" ++ toString patch.revision)
        else x.mutate attempt m (applyRoutePatch rt input.sessionCancelled (some patch) base m)
      | _ => mismatch s!"topology revision mismatch: command revision={revision} route patch revision=0"
    | some .userMutation => match command.payload with
      | some (.userMutation mutation) =>
        if revision ≠ mutation.revision then
          mismatch (s!"topology revision mismatch: command revision={revision} user mutation revision=" ++
            toString mutation.revision)
        else x.mutate attempt m (applyOneUserMutation rt input.sessionCancelled (some mutation) base m)
      | _ => mismatch s!"topology revision mismatch: command revision={revision} user mutation revision=0"
    | some .userRefresh => match (guardRevisionFence base revision m).1 with
      | .error error =>
        if error.revisionRecoveryRequired then ({ x with phase := .recover attempt error },m)
        else (x.finish attempt (.error (.ofTopologyError error)),m)
      | .ok _ => ({ x with phase := .loadUsers attempt maxUserRefreshAttempts },m)
    | some _ => (x.finish attempt (input.policy.mapError .plain),m)

/-- `current_revision`, with zero for no revision. -/
def currentRevision (m : Manager sc ρ) : Option UInt64 :=
  if m.published.topology.machineId = "" ∨ m.published.topology.revision = 0 then none
  else some m.published.topology.revision

/-- The text of a failed refresh. -/
def refreshFailed (command : ControlCommand sc) (message : String) : String :=
  "user refresh failed: command_id=" ++ command.commandId ++ " node=" ++ dashIfEmpty command.nodeId ++ ": " ++ message

/-- One step of an execution. -/
def advance (x : Execution sc) (input : Input sc) (m : Manager sc ρ) : Execution sc × Manager sc ρ :=
  match x.phase with
  | .apply attempt => applyCommand rt x attempt input m
  | .loadUsers attempt 0 =>
    (x.finish attempt (.error (.plain ("refresh users for node " ++ x.command.nodeId ++ " did not stabilize after " ++
      toString maxUserRefreshAttempts ++ " attempts: node users changed during refresh"))),m)
  | .loadUsers attempt (left + 1) => match (loadedUsers x.command.nodeId m).1 with
    | .error error => (x.finish attempt (.error (.ofTopologyError error)),m)
    | .ok current => ({ x with phase := .fetchUsers attempt left current },m)
  | .fetchUsers attempt left current => match input.users with
    | .error error => (x.finish attempt (.error (.plain (refreshFailed x.command ("fetch users: " ++ error.message)))),m)
    | .ok desired =>
      if input.cancelled then (x.finish attempt (.error .canceled),m)
      else ({ x with phase := .refreshUsers attempt left current desired },m)
  | .refreshUsers attempt left current desired =>
    let command := attempt.command x.command
    match refreshNodeUsersIfCurrentAtRevisionFence rt input.sessionCancelled command.nodeId desired current
        command.baseRevision command.revision m with
    | (.ok changes,m') =>
      ({ x with mutated := x.mutated ++ [m.published.topology.revision] }.finish attempt
        (.ok (s!"user refresh applied: added=" ++ toString changes.added ++ " updated=" ++ toString changes.updated ++
          " deleted=" ++ toString changes.deleted ++ " applied=" ++ toString changes.applied)),m')
    | (.error error,m') =>
      if error.kind = .usersChangedDuringRefresh then ({ x with phase := .loadUsers attempt left },m')
      else if error.revisionRecoveryRequired then ({ x with phase := .recover attempt error },m')
      else (x.finish attempt (.error ⟨refreshFailed x.command error.message,false,error.rolledBack⟩),m')
  | .recover attempt cause => ({ x with phase := .recoverFetch attempt cause m.published.generation },m)
  | .recoverFetch attempt cause token => match input.topology with
    | .error error => (x.finish attempt (.error (.plain ("user refresh revision resync failed after " ++ cause.message ++
        ": revision resync fetch: " ++ error.message))),m)
    | .ok topology =>
      if input.cancelled then (x.finish attempt (.error (.plain ("user refresh revision resync failed after " ++
        cause.message ++ ": " ++ ApplyFailure.canceled.message))),m)
      else if topology.revision < x.command.revision then
        (x.finish attempt (.error (.plain
          ("user refresh cannot be replayed from an older authoritative snapshot: snapshot=" ++ toString topology.revision ++
            " target=" ++ toString x.command.revision))),m)
      else ({ x with phase := .recoverApply attempt cause token topology },m)
  | .recoverApply attempt cause token topology =>
    match applyAuthoritativeIfUnchanged rt input.sessionCancelled topology token m with
    | (.error error,m') => (x.finish attempt (.error (.plain ("user refresh revision resync failed after " ++ cause.message ++
        ": revision resync apply: " ++ error.message))),m')
    | (.ok message,m') => ({ x with phase := .recoverRead attempt cause message },m')
  | .recoverRead attempt cause message => match currentRevision m with
    | none => (x.finish attempt (.error (.plain ("user refresh revision resync failed after " ++ cause.message ++
        ": revision resync returned an unversioned topology"))),m)
    | some _ => (x.finish attempt (.ok ("user refresh revision mismatch, resynced: " ++ message)),m)
  | .resync cause => ({ x with phase := .resyncFetch cause m.published.generation },m)
  | .resyncFetch cause token => match input.topology with
    | .error error => ({ x with phase := .answered (failedAnswer (.plain
        ("revision resync failed after " ++ cause ++ ": revision resync fetch: " ++ error.message))) },m)
    | .ok topology =>
      if input.cancelled then ({ x with phase := .answered (failedAnswer (.plain
        ("revision resync failed after " ++ cause ++ ": " ++ ApplyFailure.canceled.message))) },m)
      else ({ x with phase := .resyncApply cause token topology },m)
  | .resyncApply cause token topology =>
    match applyAuthoritativeIfUnchanged rt input.sessionCancelled topology token m with
    | (.error error,m') => ({ x with phase := .answered (failedAnswer (.plain
        ("revision resync failed after " ++ cause ++ ": revision resync apply: " ++ error.message))) },m')
    | (.ok message,m') => ({ x with phase := .resyncRead cause message },m')
  | .resyncRead cause message => match currentRevision m with
    | none => ({ x with phase := .answered (failedAnswer (.plain
        ("revision resync failed after " ++ cause ++ ": revision resync returned an unversioned topology"))) },m)
    | some revision =>
      let resyncMessage := "resynced: " ++ message
      if revisionFencedCommand x.command.type = false ∨ x.command.revision < revision then
        ({ x with phase := .answered ⟨.applied,"revision mismatch, " ++ resyncMessage⟩ },m)
      else if input.cancelled then ({ x with phase := .answered (failedAnswer .canceled) },m)
      else ({ x with phase := .apply (.replay resyncMessage revision) },m)
  | .answered _ => (x,m)

/-! ### Interleavings -/

/-- One execution beside everything else that uses the manager. -/
structure System (sc : Sections) (ρ : Type) where
  manager : Manager sc ρ
  execution : Execution sc

inductive SystemEvent (sc : Sections)
  /-- An operation of someone else. -/
  | other (call : Call sc)
  | advance (input : Input sc)

def systemStep (s : System sc ρ) : SystemEvent sc → Option (System sc ρ)
  | .other call => some { s with manager := (operate rt call s.manager).2 }
  | .advance input =>
    let (execution,manager) := advance rt s.execution input s.manager
    some ⟨manager,execution⟩

end NodeAgent.Control
