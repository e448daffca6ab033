import NodeAgent.Transition
import Mathlib.Data.List.Basic
import Mathlib.Data.Int.Notation

/-!
The controller of remote operations. It outlives the streams of the panel: a reload or a pull of
users is finished by the task that began it, while tasks of newer streams, changes of the setting
and requests act on the same state. Every time the state is locked is one step.
-/
namespace NodeAgent.RemoteController
open NodeAgent.Transition

def u32Max : ℕ := 4294967295
def i64Max : ℕ := 9223372036854775807

inductive ReloadProgressStage
  | pullConfiguration
  | pullUsers
  | buildConfiguration
  | configurePortHopping
  | startInstance
deriving DecidableEq

def RELOAD_STAGE_PULL_CONFIGURATION : String := "pull_configuration"

def ReloadProgressStage.asStr : ReloadProgressStage → String
  | .pullConfiguration => RELOAD_STAGE_PULL_CONFIGURATION
  | .pullUsers => "pull_users"
  | .buildConfiguration => "build_configuration"
  | .configurePortHopping => "configure_port_hopping"
  | .startInstance => "start_instance"

inductive ReloadSingBoxOutcome
  | succeeded
  | failedUnchanged
  | failedRolledBack
  | failedStopped
  | rejectedBusy
deriving DecidableEq

structure RemoteReloadResult where
  outcome : ReloadSingBoxOutcome
  stage : String
  message : String
  topologyRevision : ℕ
  configSha256 : String
  loadedUserCount : ℕ
deriving DecidableEq

structure ReloadSingBoxResult where
  operationId : String
  outcome : ReloadSingBoxOutcome
  stage : String
  message : String
  topologyRevision : ℕ
  configSha256 : String
  loadedUserCount : ℕ
  durationMillis : ℤ
  completedAtUnixMilli : ℤ
deriving DecidableEq

/-! ### State -/

/-- Times in nanoseconds since 1970, durations in nanoseconds; a token is the number of its
    attempt. -/
structure ControllerState where
  reloadInProgress : Bool
  reloadOperation : String
  reloadStage : String
  lastReload : Option ReloadSingBoxResult
  periodicEnabled : Bool
  periodicInterval : ℕ
  periodicLastAttempt : Option ℤ
  periodicLastSuccess : Option ℤ
  periodicNextAttempt : Option ℤ
  periodicLastError : String
  periodicAttempt : Option ℕ
deriving DecidableEq

def ControllerState.default : ControllerState := ⟨false,"","",none,false,0,none,none,none,"",none⟩

structure RemoteControlState where
  reloadInProgress : Bool
  reloadOperationId : String
  reloadStage : String
  lastReload : Option ReloadSingBoxResult
  periodicUserPullEnabled : Bool
  periodicUserPullIntervalMinutes : ℕ
  periodicUserPullLastAttemptAtUnixMilli : ℤ
  periodicUserPullLastSuccessAtUnixMilli : ℤ
  periodicUserPullNextAttemptAtUnixMilli : ℤ
  periodicUserPullLastError : String
deriving DecidableEq

def durationMinutes (duration : ℕ) : ℕ := min u32Max (duration / 1000000000 / 60)

def unixMillis : Option ℤ → ℤ
  | none => 0
  | some value => if 0 ≤ value then (min i64Max (value.toNat / 1000000) : ℕ) else -((min i64Max ((-value).toNat / 1000000) : ℕ) : ℤ)

def snapshotState (state : ControllerState) : RemoteControlState where
  reloadInProgress := state.reloadInProgress
  reloadOperationId := state.reloadOperation
  reloadStage := state.reloadStage
  lastReload := state.lastReload
  periodicUserPullEnabled := state.periodicEnabled
  periodicUserPullIntervalMinutes := durationMinutes state.periodicInterval
  periodicUserPullLastAttemptAtUnixMilli := unixMillis state.periodicLastAttempt
  periodicUserPullLastSuccessAtUnixMilli := unixMillis state.periodicLastSuccess
  periodicUserPullNextAttemptAtUnixMilli := unixMillis state.periodicNextAttempt
  periodicUserPullLastError := state.periodicLastError

/-! ### What is done to it -/

/-- The second half of `begin_reload`, under the gate. -/
def ControllerState.beginReload (state : ControllerState) (operationId : String) : ControllerState :=
  { state with reloadInProgress := true, reloadOperation := operationId, reloadStage := RELOAD_STAGE_PULL_CONFIGURATION }

def ControllerState.setReloadStage (state : ControllerState) (stage : String) : ControllerState := { state with reloadStage := stage }

/-- What the end of a lease does to the state; a lease that is dropped has no result. -/
def ControllerState.endReload (state : ControllerState) (result : Option ReloadSingBoxResult) : ControllerState :=
  { state with
    reloadInProgress := false
    reloadOperation := ""
    reloadStage := ""
    lastReload := result <|> state.lastReload }

def ControllerState.setPeriodic (state : ControllerState) (enabled : Bool) (interval : ℕ) (now : ℤ) : ControllerState :=
  if enabled then
    { state with periodicEnabled := true, periodicInterval := interval, periodicNextAttempt := some now, periodicLastError := "" }
  else { state with periodicEnabled := false, periodicInterval := 0, periodicNextAttempt := none }

structure PeriodicSchedule where
  enabled : Bool
  next : Option ℤ
deriving DecidableEq

def ControllerState.periodicSchedule (state : ControllerState) : PeriodicSchedule := ⟨state.periodicEnabled,state.periodicNextAttempt⟩

/-- The attempt is registered under its number, if it may begin. -/
def ControllerState.beginPeriodicAttempt (state : ControllerState) (attempt : ℕ) (now : ℤ) : Option ControllerState :=
  if state.periodicEnabled = false ∨ state.periodicAttempt.isSome then none
  else some { state with periodicAttempt := some attempt, periodicLastAttempt := some now, periodicNextAttempt := none }

def ControllerState.finishPeriodicAttempt (state : ControllerState) (error : Option String) (wasCancelled : Bool) (now : ℤ) : ControllerState :=
  let state : ControllerState := { state with periodicAttempt := none }
  let state : ControllerState :=
    match error with
    | none => { state with periodicLastSuccess := some now, periodicLastError := "" }
    | some error => if state.periodicEnabled = false ∨ wasCancelled then { state with periodicLastError := "" } else { state with periodicLastError := error }
  if state.periodicEnabled ∧ state.periodicNextAttempt.isNone then { state with periodicNextAttempt := some (now + state.periodicInterval) }
  else state

def deadlineResult (result : Except String RemoteReloadResult) : Except String RemoteReloadResult :=
  match result with
  | .error error => if error = "context canceled" then .error "context deadline exceeded" else .error error
  | result => result

/-- The result that is reported, with the stage of the controller if there is none of the backend. -/
def reloadResult (operationId stage : String) (backend : Except String RemoteReloadResult) (durationMillis : ℤ) (completedAt : ℤ) : ReloadSingBoxResult :=
  let backend : RemoteReloadResult :=
    match backend with
    | .ok result => result
    | .error error => ⟨.failedUnchanged,stage,error,0,"",0⟩
  ⟨operationId,backend.outcome,backend.stage,backend.message,backend.topologyRevision,backend.configSha256,backend.loadedUserCount % 4294967296,
    durationMillis,unixMillis (some completedAt)⟩

/-! ### Tasks -/

inductive LeasePhase
  /-- The gate is taken, and the state is not changed yet. -/
  | taken
  | running
  | ready (result : ReloadSingBoxResult)
  /-- The state is changed back, and the gate is not released yet. -/
  | updated
deriving DecidableEq

structure ReloadLease where
  operationId : String
  phase : LeasePhase
deriving DecidableEq

structure PeriodicAttempt where
  stream : ℕ
  cancelled : Bool
  finished : Bool
deriving DecidableEq

/-- Where the loop of a stream is. -/
inductive LoopPhase
  | top
  | listening
  | scheduled (schedule : PeriodicSchedule)
  /-- It waits for a wake only, since the pull is disabled or an attempt could not begin. -/
  | waiting
  | sleeping
  | due
  | pulling (attempt : ℕ)
  | pulled (attempt : ℕ) (error : Option String) (cancelled : Bool)
  | stopped
deriving DecidableEq

/-- `run_periodic_user_pull` on one stream. -/
structure Loop where
  streamCancelled : Bool
  woken : Bool
  phase : LoopPhase
deriving DecidableEq

/-- The controller, its gate and all tasks. `pendingWakes` counts the tasks that have changed the
    state and are about to notify; `results` keeps the results of all finished leases, and is never read. -/
structure World where
  state : ControllerState
  gate : Bool
  leases : List ReloadLease
  attempts : List PeriodicAttempt
  loops : List Loop
  pendingWakes : ℕ
  results : List ReloadSingBoxResult

def initial : World := ⟨ControllerState.default,false,[],[],[],0,[]⟩

inductive Action
  | beginReload (operationId : String)
  | enterReload (lease : ℕ)
  | setReloadStage (lease : ℕ) (stage : ReloadProgressStage)
  /-- The backend is done, in time or after the deadline. -/
  | reloaded (lease : ℕ) (late : Bool) (backend : Except String RemoteReloadResult) (durationMillis completedAt : ℤ)
  | finishReload (lease : ℕ)
  | dropReload (lease : ℕ)
  | releaseGate (lease : ℕ)
  | setPeriodic (enabled : Bool) (interval : ℕ) (now : ℤ)
  /-- A pending `notify_waiters`. -/
  | notify
  | openStream
  | cancelStream (stream : ℕ)
  | listen (stream : ℕ)
  | readSchedule (stream : ℕ)
  | decide (stream : ℕ) (now : ℤ)
  | elapse (stream : ℕ)
  | wake (stream : ℕ)
  | stop (stream : ℕ)
  | beginAttempt (stream : ℕ) (now : ℤ)
  | pulled (stream : ℕ) (error : Option String)
  | finishAttempt (stream : ℕ) (now : ℤ)
  | dropAttempt (stream : ℕ) (now : ℤ)

def World.setLease (w : World) (id : ℕ) (lease : ReloadLease) : World := { w with leases := w.leases.set id lease }

def World.setLoop (w : World) (id : ℕ) (loop : Loop) : World := { w with loops := w.loops.set id loop }

/-- The token of an attempt is a child of the token of its stream. -/
def World.isCancelled (w : World) (attempt : ℕ) : Bool :=
  w.attempts[attempt]?.any (fun a => a.cancelled || w.loops[a.stream]?.any Loop.streamCancelled)

def World.cancelAttempt (w : World) : Option ℕ → World
  | none => w
  | some id => { w with attempts := w.attempts.modify id (fun a => { a with cancelled := true }) }

def World.finishAttempt (w : World) (id : ℕ) (error : Option String) (wasCancelled : Bool) (now : ℤ) : World :=
  { w with
    state := w.state.finishPeriodicAttempt error wasCancelled now
    attempts := w.attempts.modify id (fun a => { a with finished := true })
    pendingWakes := w.pendingWakes + 1 }

/-- The steps of the task that holds a lease. -/
def leaseStep (w : World) (id : ℕ) (lease : ReloadLease) : Action → Option World
  | .enterReload _ =>
    if lease.phase = .taken then some { w.setLease id { lease with phase := .running } with state := w.state.beginReload lease.operationId } else none
  | .setReloadStage _ stage => if lease.phase = .running then some { w with state := w.state.setReloadStage stage.asStr } else none
  | .reloaded _ late backend durationMillis completedAt =>
    if lease.phase = .running then
      let backend := if late then deadlineResult backend else backend
      some (w.setLease id { lease with phase := .ready (reloadResult lease.operationId w.state.reloadStage backend durationMillis completedAt) })
    else none
  | .finishReload _ =>
    match lease.phase with
    | .ready result =>
      some { w.setLease id { lease with phase := .updated } with state := w.state.endReload (some result), results := w.results ++ [result] }
    | _ => none
  | .dropReload _ =>
    match lease.phase with
    | .running | .ready _ => some { w.setLease id { lease with phase := .updated } with state := w.state.endReload none }
    | _ => none
  | .releaseGate _ => if lease.phase = .updated then some { w with leases := w.leases.eraseIdx id, gate := false } else none
  | _ => none

/-- The steps of the loop of a stream. -/
def loopStep (w : World) (id : ℕ) (loop : Loop) : Action → Option World
  | .cancelStream _ => some (w.setLoop id { loop with streamCancelled := true })
  | .listen _ =>
    if loop.phase = .top then
      some (w.setLoop id (if loop.streamCancelled then { loop with phase := .stopped } else { loop with woken := false, phase := .listening }))
    else none
  | .readSchedule _ => if loop.phase = .listening then some (w.setLoop id { loop with phase := .scheduled w.state.periodicSchedule }) else none
  | .decide _ now =>
    match loop.phase with
    | .scheduled schedule =>
      let phase : LoopPhase := if schedule.enabled = false then .waiting else if schedule.next.any (fun next => now < next) then .sleeping else .due
      some (w.setLoop id { loop with phase := phase })
    | _ => none
  | .elapse _ => if loop.phase = .sleeping then some (w.setLoop id { loop with phase := .due }) else none
  | .wake _ => if loop.woken ∧ (loop.phase = .waiting ∨ loop.phase = .sleeping) then some (w.setLoop id { loop with phase := .top }) else none
  | .stop _ =>
    if loop.streamCancelled ∧ (loop.phase = .waiting ∨ loop.phase = .sleeping) then some (w.setLoop id { loop with phase := .stopped }) else none
  | .beginAttempt _ now =>
    if loop.phase = .due then
      match w.state.beginPeriodicAttempt w.attempts.length now with
      | none => some (w.setLoop id { loop with phase := .waiting })
      | some state => some { w.setLoop id { loop with phase := .pulling w.attempts.length } with state := state, attempts := w.attempts ++ [⟨id,false,false⟩] }
    else none
  | .pulled _ error =>
    match loop.phase with
    | .pulling attempt => some (w.setLoop id { loop with phase := .pulled attempt error (w.isCancelled attempt) })
    | _ => none
  | .finishAttempt _ now =>
    match loop.phase with
    | .pulled attempt error cancelled => some ((w.setLoop id { loop with phase := .top }).finishAttempt attempt error cancelled now)
    | _ => none
  | .dropAttempt _ now =>
    match loop.phase with
    | .pulling attempt | .pulled attempt _ _ =>
      some (((w.setLoop id { loop with phase := .stopped }).cancelAttempt (some attempt)).finishAttempt attempt (some "periodic user pull task stopped") true now)
    | _ => none
  | _ => none

def step (w : World) (action : Action) : Option World :=
  match action with
  /- A reload that finds the gate taken is answered as busy and changes nothing. -/
  | .beginReload operationId => if w.gate then some w else some { w with gate := true, leases := w.leases ++ [⟨operationId,.taken⟩] }
  | .setPeriodic enabled interval now =>
    some { w.cancelAttempt w.state.periodicAttempt with state := w.state.setPeriodic enabled interval now, pendingWakes := w.pendingWakes + 1 }
  | .notify =>
    if w.pendingWakes = 0 then none
    else some { w with loops := w.loops.map (fun loop => { loop with woken := true }), pendingWakes := w.pendingWakes - 1 }
  | .openStream => some { w with loops := w.loops ++ [⟨false,false,.top⟩] }
  | .enterReload id | .setReloadStage id _ | .reloaded id _ _ _ _ | .finishReload id | .dropReload id | .releaseGate id =>
    w.leases[id]?.bind (fun lease => leaseStep w id lease action)
  | .cancelStream id | .listen id | .readSchedule id | .decide id _ | .elapse id | .wake id | .stop id | .beginAttempt id _ | .pulled id _
  | .finishAttempt id _ | .dropAttempt id _ => w.loops[id]?.bind (fun loop => loopStep w id loop action)

end NodeAgent.RemoteController
