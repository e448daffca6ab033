import NodeAgent.TopologyRuns
import NodeAgent.Transaction

/-!
The adapter between the topology manager and the data plane. It compiles a topology,
reconciles the forwarding plan with the port router and hands the configuration to the node
runtime; a failure in the middle is rolled back as far as the outcomes allow. Router and
runtime are known by what their results promise: their outcomes come from a script, and what
they really left behind is kept beside the adapter's own state.
-/
namespace NodeAgent.Topology
open NodeAgent.Fallible
open NodeAgent.Transaction (RuntimeError)

/-! ### What the adapter is built on -/

structure Compiled (C : Type) where
  runtime : C
  warnings : List String

/-- `compile_with_local_overrides` under the process's analysis policy, and `build_plan`, which reads the nodes only.
    Plans are of type `P`, runtime configurations of type `C`. -/
structure Compiler (sc : Sections) (P C : Type) where
  compile : MachineTopology sc → Except String (Compiled C)
  buildPlan : List NodeInstance → Except String P
  /-- `Plan::default()`. -/
  emptyPlan : P
  buildPlan_nil : buildPlan [] = .ok emptyPlan

/-- How a router call ends. Only an uncertain error leaves a plan of its own behind. -/
inductive RouterOutcome (P : Type)
  | pass
  | ordinary (message : String)
  | uncertain (message : String) (left : P)

/-- How `apply_config` ends. An error that is neither `rolled_back` nor `state_unchanged` leaves any configuration. -/
inductive ApplyOutcome (C : Type)
  | pass
  | error (error : RuntimeError) (left : Option C)

/-- How `reload_config` ends. A status that is not `running` leaves any configuration. -/
inductive ReloadCall (C : Type)
  | done (status : ReloadStatus) (left : Option C)
  | error (error : RuntimeError) (left : Option C)

structure RuntimeHealth where
  running : Bool
  failure : Option String

/-- The outcomes of the calls to come. A list that has run out passes every call, with no health report. -/
structure Script (P C : Type) where
  ports : List (RouterOutcome P)
  applies : List (ApplyOutcome C)
  reloads : List (ReloadCall C)
  health : List (Option RuntimeHealth)
  /-- For each time the closing flag is read, whether a close was requested before it. -/
  closings : List Bool
  closePorts : List (Option (String × P))
  closeRuntime : List (Option (RuntimeError × Option C))

structure PreparedReload (sc : Sections) (P C : Type) where
  candidate : MachineTopology sc
  desiredPlan : P
  previousPlan : P
  previousConfig : Option C
  previousHadTopology : Bool
  warnings : List String
  configured : Bool

structure Adapter (sc : Sections) (P C : Type) where
  activeTopology : MachineTopology sc
  activePlan : P
  activeWarnings : List String
  pendingReload : Option (PreparedReload sc P C)
  closing : Bool
  /-- The forwarding plan that the router has in place. -/
  committed : P
  /-- The configuration that the node runtime runs. -/
  running : Option C
  script : Script P C

variable {sc : Sections} {P C ε α : Type}

/-- `NodeRuntimeTopologyAdapter::with_router`, before the router and the runtime did anything. -/
def Adapter.initial (deps : Compiler sc P C) (script : Script P C) : Adapter sc P C :=
  ⟨MachineTopology.default,deps.emptyPlan,[],none,false,deps.emptyPlan,none,script⟩

/-! ### Calls of the router and of the runtime -/

structure PortRouterError where
  message : String
  /-- `is_state_uncertain`. -/
  uncertain : Bool

def reconcilePorts (plan : P) : Op (Adapter sc P C) PortRouterError Unit := fun a =>
  let rest := { a with script := { a.script with ports := a.script.ports.tail } }
  match a.script.ports.head? with
  | some (.ordinary message) => (.error ⟨message,false⟩,rest)
  | some (.uncertain message left) => (.error ⟨message,true⟩,{ rest with committed := left })
  | _ => (.ok (),{ rest with committed := plan })

/-- What runs after an error. -/
def leftRunning (error : RuntimeError) (before left : Option C) : Option C :=
  if error.rolledBack ∨ error.stateUnchanged then before else left

def applyConfig (config : C) : Op (Adapter sc P C) RuntimeError Unit := fun a =>
  let rest := { a with script := { a.script with applies := a.script.applies.tail } }
  match a.script.applies.head? with
  | some (.error error left) => (.error error,{ rest with running := leftRunning error a.running left })
  | _ => (.ok (),{ rest with running := some config })

def reloadConfig (config : C) : Op (Adapter sc P C) RuntimeError ReloadStatus := fun a =>
  let rest := { a with script := { a.script with reloads := a.script.reloads.tail } }
  match a.script.reloads.head? with
  | some (.error error left) => (.error error,{ rest with running := leftRunning error a.running left })
  | some (.done status left) => (.ok status,{ rest with running := if status.running then some config else left })
  | none => (.ok ⟨true,false⟩,{ rest with running := some config })

def runtimeHealthSnapshot : Op (Adapter sc P C) ε (Option RuntimeHealth) := fun a =>
  (.ok (a.script.health.head?.getD none),{ a with script := { a.script with health := a.script.health.tail } })

/-- `inner.closing.load(..)`. -/
def loadClosing : Op (Adapter sc P C) ε Bool := fun a =>
  let closing := a.closing || a.script.closings.head?.getD false
  (.ok closing,{ a with closing := closing, script := { a.script with closings := a.script.closings.tail } })

/-- The text of a runtime error. -/
def displayError (error : RuntimeError) : String :=
  error.operation ++ match error.rollback with
    | some rollback => "; rollback failed: " ++ rollback
    | none => if error.rolledBack then "; previous runtime state restored" else ""

/-! ### Failures -/

inductive RuntimeFailureMode
  | ordinaryApply
  | forcedReload
deriving DecidableEq

structure RuntimeFailureState where
  operation : String
  rolledBack : Bool
  unchanged : Bool
  running : Bool

def RuntimeFailureState.ofError (error : RuntimeError) : RuntimeFailureState :=
  ⟨displayError error,error.rolledBack,error.stateUnchanged,error.running⟩

/-- A reload that ended without a running instance. -/
def RuntimeFailureState.stopped : RuntimeFailureState :=
  ⟨"forced reload completed without a running shoes instance",false,false,false⟩

/-- What a transaction goes back to. -/
structure RollbackTarget (P C : Type) where
  portHopping : P
  config : Option C
  hadTopology : Bool

/-- `port_configuration_failure`; it always ends in the error it builds. -/
def portConfigurationFailure (error : PortRouterError) (previousPlan : P) (previousHadTopology : Bool) :
    Op (Adapter sc P C) TopologyError α := do
  let message := "configure port hopping forwarding: " ++ error.message
  if error.uncertain = false then fail (.runtime message false)
  else do
    match ← attempt (reconcilePorts previousPlan) with
    | .ok _ =>
      if previousHadTopology then fail (.runtimeState (message ++ "; previous forwarding state restored") true true)
      else fail (.runtime message false)
    | .error rollback => fail (TopologyError.runtimeState (message ++
        "; rollback incomplete: restore previous port hopping forwarding state: " ++ rollback.message) false true).withRollbackStage

/-- `prepared_reload_protocol_failure`. -/
def preparedReloadProtocolFailure (message : String) (pending : PreparedReload sc P C) : Op (Adapter sc P C) TopologyError α := do
  if pending.configured = false then fail (.runtime message false)
  else do
    match ← attempt (reconcilePorts pending.previousPlan) with
    | .ok _ =>
      if pending.previousHadTopology then fail (.runtimeState (message ++ "; previous forwarding state restored") true true)
      else fail (.runtime message false)
    | .error error => fail (TopologyError.runtimeState (message ++
        "; rollback incomplete: restore previous port hopping forwarding state: " ++ error.message) false true).withRollbackStage

/-- What is said of a router call whose failure does not end the transaction. -/
def portFailures (context : String) : Except PortRouterError Unit → List String
  | .ok _ => []
  | .error error => [context ++ error.message]

/-- The error that ends a runtime transaction, from what its rollback could do. -/
def transactionError (failure : RuntimeFailureState) (hadTopology : Bool) (mode : RuntimeFailureMode)
    (rollbackErrors : List String) (restoredRuntime running : Bool) : TopologyError :=
  let runtimeRestored := restoredRuntime || failure.rolledBack || (mode = .ordinaryApply && failure.unchanged)
  let restored := rollbackErrors.isEmpty && hadTopology && running && runtimeRestored
  let ending := if !rollbackErrors.isEmpty then "; rollback incomplete: " ++ "; ".intercalate rollbackErrors
    else if restored then "; previous topology restored" else ""
  let error := TopologyError.runtimeState ("start/apply shoes runtime: " ++ failure.operation ++ ending) restored running
  if !rollbackErrors.isEmpty || restored then error.withRollbackStage else error

/-- The configuration to start again, when the rollback has to. -/
def restoreConfig (failure : RuntimeFailureState) (previous : RollbackTarget P C) (mode : RuntimeFailureMode)
    (closing : Bool) : Option C :=
  let closingWithIntactRuntime := closing && (failure.unchanged || failure.rolledBack)
  let wanted := match mode with
    | .ordinaryApply => true
    | .forcedReload => !(failure.rolledBack || failure.unchanged)
  if !closingWithIntactRuntime && wanted then previous.config else none

/-- `runtime_transaction_failure_parts`. -/
def runtimeTransactionFailure (failure : RuntimeFailureState) (previous : RollbackTarget P C) (mode : RuntimeFailureMode) :
    Op (Adapter sc P C) TopologyError α := do
  let ports ← attempt (reconcilePorts previous.portHopping)
  let portErrors := portFailures "restore previous port hopping forwarding state: " ports
  let closing ← loadClosing
  match restoreConfig failure previous mode closing with
  | none => fail (transactionError failure previous.hadTopology mode portErrors false failure.running)
  | some config => do
    match ← attempt (applyConfig config) with
    | .ok _ => fail (transactionError failure previous.hadTopology mode portErrors true true)
    | .error error => fail (transactionError failure previous.hadTopology mode
        (portErrors ++ ["restore previous shoes configuration: " ++ displayError error]) false false)

/-! ### Ordinary operations -/

variable (deps : Compiler sc P C)

def compileOrFail (context : String) (topology : MachineTopology sc) : Op (Adapter sc P C) TopologyError (Compiled C) :=
  match deps.compile topology with
  | .ok output => pure output
  | .error error => fail (.runtime (context ++ error) false)

def planOrFail (context : String) (topology : MachineTopology sc) : Op (Adapter sc P C) TopologyError P :=
  match deps.buildPlan topology.nodes with
  | .ok plan => pure plan
  | .error error => fail (.runtime (context ++ error) false)

/-- The plan and the configuration of the active topology, for a rollback. -/
def previousState : Op (Adapter sc P C) TopologyError (RollbackTarget P C) := do
  let a ← look
  let plan ← planOrFail deps "build previous port hopping forwarding configuration: " a.activeTopology
  if a.activeTopology.machineId = "" then pure ⟨plan,none,false⟩
  else do
    let output ← compileOrFail deps "compile previous shoes configuration for rollback: " a.activeTopology
    pure ⟨plan,some output.runtime,true⟩

/-- `NodeRuntimeTopologyAdapter::apply`. -/
def adapterApply (candidate : MachineTopology sc) : Op (Adapter sc P C) TopologyError Unit := do
  let output ← compileOrFail deps "compile topology: " candidate
  let desiredPlan ← planOrFail deps "build port hopping forwarding configuration: " candidate
  let previous ← previousState deps
  match ← attempt (reconcilePorts desiredPlan) with
  | .error error => portConfigurationFailure error previous.portHopping previous.hadTopology
  | .ok _ => do
    match ← attempt (applyConfig output.runtime) with
    | .error error => runtimeTransactionFailure (.ofError error) previous .ordinaryApply
    | .ok _ => change (fun a => { a with
        activeTopology := candidate, activePlan := desiredPlan, activeWarnings := output.warnings, pendingReload := none })

/-- The forced reload of a listener that has failed, with the failures that remain. -/
def recoverListener (current : MachineTopology sc) : Op (Adapter sc P C) TopologyError (List String) := do
  let health ← runtimeHealthSnapshot
  match health.bind RuntimeHealth.failure with
  | none => pure []
  | some failure => do
    let recovery ← compileOrFail deps ("compile current topology to recover " ++ failure ++ ": ") current
    match ← attempt (reloadConfig recovery.runtime) with
    | .error error => pure ["recover stopped shoes listener (" ++ failure ++ "): " ++ displayError error]
    | .ok _ => do
      match ← runtimeHealthSnapshot with
      | none => pure ["runtime health unavailable after recovery of " ++ failure]
      | some after =>
        if after.failure.isSome ∨ after.running = false then
          pure ["runtime still unhealthy after recovery of " ++ failure ++ ": " ++ reprStr after.failure]
        else pure []

/-- `NodeRuntimeTopologyAdapter::reconcile_current`. -/
def adapterReconcile (current : MachineTopology sc) : Op (Adapter sc P C) TopologyError Unit := do
  let plan ← planOrFail deps "build current port hopping forwarding state: " current
  let ports ← attempt (reconcilePorts plan)
  let recovery ← recoverListener deps current
  let failures := portFailures "reconcile current port hopping forwarding state: " ports ++ recovery
  if failures = [] then change (fun a => { a with activeTopology := current, activePlan := plan })
  else do
    let health ← runtimeHealthSnapshot
    fail (.runtimeState ("; ".intercalate failures) false (health.any RuntimeHealth.running))

/-- `NodeRuntimeTopologyAdapter::close`. -/
def adapterClose : Op (Adapter sc P C) TopologyError Unit := fun a =>
  let ports := a.script.closePorts.head?.getD none
  let runtime := a.script.closeRuntime.head?.getD none
  let script := { a.script with closePorts := a.script.closePorts.tail, closeRuntime := a.script.closeRuntime.tail }
  let closed := match ports with
    | none => { a with
        closing := true, script := script, committed := deps.emptyPlan, activePlan := deps.emptyPlan, pendingReload := none }
    | some (_,left) => { a with closing := true, script := script, committed := left }
  let stopped := match runtime with
    | none => { closed with running := none }
    | some (_,left) => { closed with running := left }
  let messages := (ports.map (fun failure => "close port hopping forwarding: " ++ failure.1)).toList ++
    (runtime.map (fun failure => "close shoes runtime: " ++ displayError failure.1)).toList
  if messages = [] then (.ok (),stopped)
  else (.error (.runtimeState ("; ".intercalate messages) false (runtime.any (fun failure => failure.1.running))),stopped)

/-! ### Forced reload -/

/-- `NodeRuntimeTopologyAdapter::prepare_reload`. -/
def adapterPrepareReload (topology : MachineTopology sc) : Op (Adapter sc P C) TopologyError C := do
  let output ← compileOrFail deps "compile topology: " topology
  let desiredPlan ← planOrFail deps "build port hopping forwarding configuration: " topology
  let a ← look
  if a.pendingReload.any PreparedReload.configured then
    fail (.runtime "a configured forced reload transaction is already pending" false)
  else do
    change (fun a => { a with pendingReload := none })
    let previous ← previousState deps
    change (fun a => { a with
      pendingReload := some ⟨topology,desiredPlan,previous.portHopping,previous.config,previous.hadTopology,output.warnings,false⟩ })
    pure output.runtime

/-- `NodeRuntimeTopologyAdapter::configure_reload`. -/
def adapterConfigureReload (candidate : MachineTopology sc) : Op (Adapter sc P C) TopologyError Unit := do
  let a ← look
  match a.pendingReload with
  | none => fail (.runtime "forced reload has no prepared transaction" false)
  | some pending =>
    if pending.candidate ≠ candidate then do
      change (fun a => { a with pendingReload := none })
      fail (.runtime "forced reload candidate changed after preparation" false)
    else do
      match ← attempt (reconcilePorts pending.desiredPlan) with
      | .error error => do
        change (fun a => { a with pendingReload := none })
        portConfigurationFailure error pending.previousPlan pending.previousHadTopology
      | .ok _ => do
        let a ← look
        match a.pendingReload with
        | none => fail (.runtime "forced reload transaction disappeared" false)
        | some pending => change (fun a => { a with pendingReload := some { pending with configured := true } })

/-- `NodeRuntimeTopologyAdapter::reload_prepared`. -/
def adapterReloadPrepared (candidate : MachineTopology sc) (prepared : C) : Op (Adapter sc P C) TopologyError ReloadStatus := do
  let a ← look
  match a.pendingReload with
  | none => fail (.runtime "forced reload has no prepared transaction" false)
  | some pending => do
    change (fun a => { a with pendingReload := none })
    if pending.candidate ≠ candidate then
      preparedReloadProtocolFailure "forced reload candidate changed after port configuration" pending
    else if pending.configured = false then fail (.runtime "forced reload port hopping was not configured" false)
    else do
      let target : RollbackTarget P C := ⟨pending.previousPlan,pending.previousConfig,pending.previousHadTopology⟩
      match ← attempt (reloadConfig prepared) with
      | .error error => runtimeTransactionFailure (.ofError error) target .forcedReload
      | .ok status =>
        if status.running then do
          change (fun a => { a with
            activeTopology := candidate, activePlan := pending.desiredPlan, activeWarnings := pending.warnings })
          pure status
        else runtimeTransactionFailure .stopped target .forcedReload

/-- The adapter as the runtime of a topology manager; `sha256` digests the configuration that runs. -/
def adapterRuntime (sha256 : Option C → String) : TopologyRuntime sc (Adapter sc P C) C :=
  { apply := adapterApply deps
    closeUserConnections := fun _ _ a => a
    warnings := Adapter.activeWarnings
    configSha256 := fun a => sha256 a.running
    reconcileCurrent := adapterReconcile deps
    beginClose := fun a => { a with closing := true }
    close := adapterClose deps
    prepareReload := adapterPrepareReload deps
    configureReload := adapterConfigureReload
    reloadPrepared := adapterReloadPrepared }

end NodeAgent.Topology
