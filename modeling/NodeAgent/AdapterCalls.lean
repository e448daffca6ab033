import NodeAgent.TopologyAdapter

/-!
What each step of the adapter does to its state: the calls of the router and of the runtime,
the two failure paths, an ordinary apply and the three steps of a forced reload. Every step
leaves the active topology alone until the transaction has succeeded.
-/
namespace NodeAgent.Topology
open NodeAgent.Fallible
open NodeAgent.Transaction (RuntimeError)

variable {sc : Sections} {P C ε α : Type} {deps : Compiler sc P C} {a : Adapter sc P C}

/-- The active topology with its plan and warnings. -/
structure SameActive (a a' : Adapter sc P C) : Prop where
  topology : a'.activeTopology = a.activeTopology
  plan : a'.activePlan = a.activePlan
  warnings : a'.activeWarnings = a.activeWarnings

/-- Nothing of the adapter's own state moves but the closing flag. -/
structure Outside (a a' : Adapter sc P C) : Prop extends SameActive a a' where
  pending : a'.pendingReload = a.pendingReload

theorem SameActive.refl (a : Adapter sc P C) : SameActive a a := ⟨rfl,rfl,rfl⟩

theorem SameActive.trans {a b c : Adapter sc P C} (first : SameActive a b) (second : SameActive b c) : SameActive a c :=
  ⟨second.topology.trans first.topology,second.plan.trans first.plan,second.warnings.trans first.warnings⟩

theorem Outside.refl (a : Adapter sc P C) : Outside a a := ⟨.refl a,rfl⟩

theorem Outside.trans {a b c : Adapter sc P C} (first : Outside a b) (second : Outside b c) : Outside a c :=
  ⟨first.toSameActive.trans second.toSameActive,second.pending.trans first.pending⟩

/-! ### Outcomes to come -/

def RouterOutcome.passes : RouterOutcome P → Bool
  | .pass => true
  | _ => false

def RouterOutcome.isUncertain : RouterOutcome P → Bool
  | .uncertain .. => true
  | _ => false

def ApplyOutcome.fails : ApplyOutcome C → Bool
  | .pass => false
  | .error .. => true

/-- A reload that ends without a running instance counts as failed. -/
def ReloadCall.fails : ReloadCall C → Bool
  | .done status _ => !status.running
  | .error .. => true

namespace Script
variable (script : Script P C)

/-- The next router call passes. -/
def portsPass : Bool := script.ports.head?.all RouterOutcome.passes

/-- The next router call fails and leaves any plan. -/
def portsUncertain : Bool := script.ports.head?.any RouterOutcome.isUncertain

def applyFails : Bool := script.applies.head?.any ApplyOutcome.fails

def reloadFails : Bool := script.reloads.head?.any ReloadCall.fails

/-- A transaction calls the router a second time, to restore the plan, when the first call has failed uncertainly, or has passed
    and the runtime then fails. The second call, if it is made, passes. -/
def restores (runtimeFails : Bool) : Bool :=
  let second := script.ports.tail.head?.all RouterOutcome.passes
  if script.portsUncertain then second else if script.portsPass && runtimeFails then second else true

variable {script} {runtimeFails : Bool}

theorem restores_uncertain (restores : script.restores runtimeFails = true) (uncertain : script.portsUncertain = true) :
    script.ports.tail.head?.all RouterOutcome.passes = true := by
  rwa [Script.restores,if_pos uncertain] at restores

theorem restores_failed (restores : script.restores runtimeFails = true) (passes : script.portsPass = true) (fails : runtimeFails = true) :
    script.ports.tail.head?.all RouterOutcome.passes = true := by
  rw [Script.restores,passes,fails] at restores
  simpa using restores

end Script

/-! ### Calls -/

/-- A router call leaves its plan in place, or, after an ordinary error, the plan that was there. -/
theorem ensures_reconcilePorts (plan : P) : Ensures (reconcilePorts plan) a (Outcome
    (fun _ a' => Outside a a' ∧ a'.running = a.running ∧ a'.committed = plan ∧ a.script.portsPass = true ∧
      a'.script = { a.script with ports := a.script.ports.tail })
    (fun error a' => Outside a a' ∧ a'.running = a.running ∧ (error.uncertain = false → a'.committed = a.committed) ∧
      (a.script.portsPass = false ∧ a.script.portsUncertain = error.uncertain) ∧
      a'.script = { a.script with ports := a.script.ports.tail })) := by
  unfold Ensures reconcilePorts Script.portsPass Script.portsUncertain
  rcases head : a.script.ports.head? with _ | (_ | message | ⟨message,left⟩)
  · exact ⟨⟨⟨rfl,rfl,rfl⟩,rfl⟩,rfl,rfl,rfl,rfl⟩
  · exact ⟨⟨⟨rfl,rfl,rfl⟩,rfl⟩,rfl,rfl,rfl,rfl⟩
  · exact ⟨⟨⟨rfl,rfl,rfl⟩,rfl⟩,rfl,fun _ => rfl,⟨rfl,rfl⟩,rfl⟩
  · exact ⟨⟨⟨rfl,rfl,rfl⟩,rfl⟩,rfl,nofun,⟨rfl,rfl⟩,rfl⟩

theorem ensures_applyConfig (config : C) : Ensures (applyConfig config) a (Outcome
    (fun _ a' => Outside a a' ∧ a'.committed = a.committed ∧ a'.running = some config)
    (fun error a' => Outside a a' ∧ a'.committed = a.committed ∧
      (error.rolledBack = true ∨ error.stateUnchanged = true → a'.running = a.running) ∧
      a'.script.ports = a.script.ports ∧ a.script.applyFails = true)) := by
  unfold Ensures applyConfig Script.applyFails
  rcases head : a.script.applies.head? with _ | (_ | ⟨error,left⟩)
  · exact ⟨⟨⟨rfl,rfl,rfl⟩,rfl⟩,rfl,rfl⟩
  · exact ⟨⟨⟨rfl,rfl,rfl⟩,rfl⟩,rfl,rfl⟩
  · refine ⟨⟨⟨rfl,rfl,rfl⟩,rfl⟩,rfl,?_,rfl,rfl⟩
    intro intact
    show leftRunning error a.running left = a.running
    simp [leftRunning,intact]

theorem ensures_reloadConfig (config : C) : Ensures (reloadConfig config) a (Outcome
    (fun status a' => Outside a a' ∧ a'.committed = a.committed ∧ (status.running = true → a'.running = some config) ∧
      a'.script.ports = a.script.ports ∧ (status.running = false → a.script.reloadFails = true))
    (fun error a' => Outside a a' ∧ a'.committed = a.committed ∧
      (error.rolledBack = true ∨ error.stateUnchanged = true → a'.running = a.running) ∧
      a'.script.ports = a.script.ports ∧ ∃ left, a.script.reloads.head? = some (.error error left))) := by
  unfold Ensures reloadConfig Script.reloadFails
  rcases head : a.script.reloads.head? with _ | (⟨status,left⟩ | ⟨error,left⟩)
  · exact ⟨⟨⟨rfl,rfl,rfl⟩,rfl⟩,rfl,fun _ => rfl,rfl,nofun⟩
  · refine ⟨⟨⟨rfl,rfl,rfl⟩,rfl⟩,rfl,?_,rfl,fun stopped => by simp [ReloadCall.fails,stopped]⟩
    intro running
    show (if status.running then some config else left) = some config
    rw [if_pos running]
  · refine ⟨⟨⟨rfl,rfl,rfl⟩,rfl⟩,rfl,?_,rfl,left,rfl⟩
    intro intact
    show leftRunning error a.running left = a.running
    simp [leftRunning,intact]

theorem ensures_loadClosing : Ensures (loadClosing (ε := ε)) a (Outcome
    (fun _ a' => Outside a a' ∧ a'.committed = a.committed ∧ a'.running = a.running) (fun _ _ => False)) :=
  ⟨⟨⟨rfl,rfl,rfl⟩,rfl⟩,rfl,rfl⟩

theorem ensures_runtimeHealthSnapshot : Ensures (runtimeHealthSnapshot (ε := ε)) a
    (Outcome (fun _ a' => Outside a a' ∧ a'.committed = a.committed) (fun _ _ => False)) :=
  ⟨⟨⟨rfl,rfl,rfl⟩,rfl⟩,rfl⟩

theorem ensures_compileOrFail (context : String) (topology : MachineTopology sc) :
    Ensures (compileOrFail deps context topology) a (Outcome
      (fun output a' => a' = a ∧ deps.compile topology = .ok output)
      (fun error a' => a' = a ∧ error.rolledBack = false)) := by
  unfold compileOrFail
  cases compiled : deps.compile topology with
  | ok output => exact Ensures.pure ⟨rfl,rfl⟩
  | error error => exact Ensures.fail ⟨rfl,rfl⟩

theorem ensures_planOrFail (context : String) (topology : MachineTopology sc) :
    Ensures (planOrFail deps context topology) a (Outcome
      (fun plan a' => a' = a ∧ deps.buildPlan topology.nodes = .ok plan)
      (fun error a' => a' = a ∧ error.rolledBack = false)) := by
  unfold planOrFail
  cases planned : deps.buildPlan topology.nodes with
  | ok plan => exact Ensures.pure ⟨rfl,rfl⟩
  | error error => exact Ensures.fail ⟨rfl,rfl⟩

/-- A rollback target is the plan and the configuration of the active topology. -/
structure TargetOf (deps : Compiler sc P C) (active : MachineTopology sc) (target : RollbackTarget P C) : Prop where
  plan : deps.buildPlan active.nodes = .ok target.portHopping
  hadTopology : target.hadTopology = true ↔ active.machineId ≠ ""
  config : target.hadTopology = true → ∃ output, deps.compile active = .ok output ∧ target.config = some output.runtime
  absent : target.hadTopology = false → target.config = none

theorem ensures_previousState : Ensures (previousState deps) a (Outcome
    (fun target a' => a' = a ∧ TargetOf deps a.activeTopology target)
    (fun error a' => a' = a ∧ error.rolledBack = false)) := by
  refine Ensures.look_bind ?_
  refine Ensures.bind (ensures_planOrFail _ _) ?_ (fun _ _ failed => failed)
  rintro plan a' ⟨same,planned⟩
  rw [same]
  by_cases unnamed : a.activeTopology.machineId = ""
  · rw [if_pos unnamed]
    exact Ensures.pure ⟨rfl,planned,by simp [unnamed],by simp,fun _ => rfl⟩
  · rw [if_neg unnamed]
    refine Ensures.bind (ensures_compileOrFail _ _) ?_ (fun _ _ failed => failed)
    rintro output a'' ⟨same',compiled⟩
    rw [same']
    exact Ensures.pure ⟨rfl,planned,by simp [unnamed],fun _ => ⟨output,compiled,rfl⟩,by simp⟩

/-! ### Failure paths -/

/-- What `port_configuration_failure` ends with. -/
theorem ensures_portConfigurationFailure (error : PortRouterError) (plan : P) (hadTopology : Bool) :
    Ensures (portConfigurationFailure (α := α) error plan hadTopology) a (Outcome (fun _ _ => False)
      (fun failure a' => Outside a a' ∧ a'.running = a.running ∧ failure.running = true ∧
        (failure.rolledBack = true → hadTopology = true ∧ a'.committed = plan) ∧
        ((error.uncertain = true → a.script.portsPass = true) →
          (error.uncertain = false ∧ a'.committed = a.committed) ∨ a'.committed = plan))) := by
  unfold portConfigurationFailure
  simp only
  split
  · next certain => exact Ensures.fail ⟨.refl a,rfl,rfl,nofun,fun _ => Or.inl ⟨certain,rfl⟩⟩
  · next uncertain =>
    refine Ensures.attempt_bind (ensures_reconcilePorts plan) ?_
    rintro (rollback | ⟨⟩) a' held
    · obtain ⟨outside,running,-,⟨failed,-⟩,-⟩ := held
      refine Ensures.fail ⟨outside,running,rfl,nofun,?_⟩
      intro passes
      exact absurd (passes (Bool.eq_true_of_not_eq_false uncertain)) (by rw [failed]; exact Bool.false_ne_true)
    · obtain ⟨outside,running,committed,-,-⟩ := held
      simp only
      split
      · next had => exact Ensures.fail ⟨outside,running,rfl,fun _ => ⟨had,committed⟩,fun _ => Or.inr committed⟩
      · exact Ensures.fail ⟨outside,running,rfl,nofun,fun _ => Or.inr committed⟩

theorem transactionError_running (failure : RuntimeFailureState) (hadTopology : Bool) (mode : RuntimeFailureMode)
    (errors : List String) (restored running : Bool) :
    (transactionError failure hadTopology mode errors restored running).running = running := by
  unfold transactionError
  simp only
  split <;> rfl

theorem transactionError_rolledBack (failure : RuntimeFailureState) (hadTopology : Bool) (mode : RuntimeFailureMode)
    (errors : List String) (restored running : Bool) :
    (transactionError failure hadTopology mode errors restored running).rolledBack =
      (errors.isEmpty && hadTopology && running &&
        (restored || failure.rolledBack || (decide (mode = .ordinaryApply) && failure.unchanged))) := by
  unfold transactionError
  simp only
  split <;> rfl

/-- A rollback starts nothing again only if the old configuration is intact, or there is none. -/
theorem restoreConfig_none {failure : RuntimeFailureState} {previous : RollbackTarget P C} {mode : RuntimeFailureMode}
    {closing : Bool} (nothing : restoreConfig failure previous mode closing = none) :
    (failure.rolledBack = true ∨ failure.unchanged = true) ∨ previous.config = none := by
  by_cases intact : failure.rolledBack = true ∨ failure.unchanged = true
  · exact Or.inl intact
  · right
    rw [not_or,Bool.not_eq_true,Bool.not_eq_true] at intact
    obtain ⟨kept,changed⟩ := intact
    cases mode <;> simpa [restoreConfig,kept,changed] using nothing

theorem restoreConfig_some {failure : RuntimeFailureState} {previous : RollbackTarget P C} {mode : RuntimeFailureMode}
    {closing : Bool} {config : C} (wanted : restoreConfig failure previous mode closing = some config) :
    previous.config = some config := by
  unfold restoreConfig at wanted
  cases mode <;>
  · simp only at wanted
    split at wanted
    · exact wanted
    · cases wanted

/-- What a failed runtime transaction leaves, and what it says about it. -/
structure TransactionEnded (failure : RuntimeFailureState) (previous : RollbackTarget P C) (a : Adapter sc P C)
    (error : TopologyError) (a' : Adapter sc P C) : Prop where
  outside : Outside a a'
  /-- A claim of a rollback is backed by the plan and by a configuration that was started again or never left. -/
  rolledBack : error.rolledBack = true → previous.hadTopology = true ∧ error.running = true ∧
    a'.committed = previous.portHopping ∧ ((∃ config, previous.config = some config ∧ a'.running = some config) ∨
      ((failure.rolledBack = true ∨ failure.unchanged = true) ∧ a'.running = a.running))
  /-- The forwarding plan is restored unless the router fails. -/
  restored : a.script.portsPass = true → a'.committed = previous.portHopping
  /-- With the forwarding plan restored, an error that claims neither a rollback nor a stop has left the runtime alone. -/
  unclaimed : a.script.portsPass = true → (previous.hadTopology = false → previous.config = none) → (∀ config, previous.config = some config → previous.hadTopology = true) →
    error.rolledBack = false → error.running = true → a'.running = a.running ∧ failure.running = true ∧ ((failure.rolledBack = true ∨ failure.unchanged = true) ∨ previous.config = none)

theorem ensures_runtimeTransactionFailure (failure : RuntimeFailureState) (previous : RollbackTarget P C)
    (mode : RuntimeFailureMode) : Ensures (runtimeTransactionFailure (α := α) failure previous mode) a
      (Outcome (fun _ _ => False) (TransactionEnded failure previous a)) := by
  unfold runtimeTransactionFailure
  refine Ensures.attempt_bind (ensures_reconcilePorts previous.portHopping) ?_
  intro ports a₁ held₁
  -- Either way the router was called once, and nothing else has moved.
  have outside₁ : Outside a a₁ ∧ a₁.running = a.running := by
    cases ports with
    | ok _ => exact ⟨held₁.1,held₁.2.1⟩
    | error _ => exact ⟨held₁.1,held₁.2.1⟩
  simp only
  generalize listed : portFailures "restore previous port hopping forwarding state: " ports = portErrors
  have portsFact : (portErrors = [] ∧ a₁.committed = previous.portHopping) ∨
      (portErrors ≠ [] ∧ a.script.portsPass = false) := by
    cases ports with
    | ok _ => exact Or.inl ⟨listed.symm,held₁.2.2.1⟩
    | error error =>
      refine Or.inr ⟨?_,held₁.2.2.2.1.1⟩
      rw [← listed]
      exact List.cons_ne_nil _ _
  refine Ensures.bind ensures_loadClosing ?_ (fun _ _ no => no.elim)
  rintro closing a₂ ⟨outside₂,committed₂,running₂⟩
  have outside := outside₁.1.trans outside₂
  have running := running₂.trans outside₁.2
  have restored (passes : a.script.portsPass = true) : portErrors = [] ∧ a₂.committed = previous.portHopping := by
    rcases portsFact with ⟨empty,committed₁⟩ | ⟨-,failed⟩
    · exact ⟨empty,committed₂.trans committed₁⟩
    · cases passes.symm.trans failed
  cases wanted : restoreConfig failure previous mode closing with
  | none =>
    refine Ensures.fail ⟨outside,?_,fun passes => (restored passes).2,?_⟩
    · rw [transactionError_rolledBack,transactionError_running]
      intro claimed
      simp only [Bool.and_eq_true,List.isEmpty_iff,Bool.or_eq_true,Bool.false_or,decide_eq_true_eq] at claimed
      obtain ⟨⟨⟨empty,had⟩,alive⟩,restored⟩ := claimed
      rcases portsFact with ⟨_,committed₁⟩ | ⟨failed,_⟩
      · refine ⟨had,alive,committed₂.trans committed₁,Or.inr ⟨?_,running⟩⟩
        exact restored.imp id And.right
      · exact absurd empty failed
    · intro _ _ _ _ alive
      rw [transactionError_running] at alive
      exact ⟨running,alive,restoreConfig_none wanted⟩
  | some config =>
    have stored := restoreConfig_some wanted
    refine Ensures.attempt_bind (ensures_applyConfig config) ?_
    rintro (error | ⟨⟩) a₃ held₃
    · -- The restore failed: the error says that nothing runs.
      obtain ⟨outside₃,committed₃,-⟩ := held₃
      refine Ensures.fail ⟨outside.trans outside₃,?_,fun passes => committed₃.trans (restored passes).2,?_⟩
      · rw [transactionError_rolledBack]
        intro claimed
        simp at claimed
      · intro _ _ _ _ alive
        rw [transactionError_running] at alive
        cases alive
    · obtain ⟨outside₃,committed₃,running₃⟩ := held₃
      refine Ensures.fail ⟨outside.trans outside₃,?_,fun passes => committed₃.trans (restored passes).2,?_⟩
      · rw [transactionError_rolledBack,transactionError_running]
        intro claimed
        simp only [Bool.and_eq_true,List.isEmpty_iff,Bool.true_or,Bool.and_true] at claimed
        obtain ⟨empty,had⟩ := claimed
        rcases portsFact with ⟨_,committed₁⟩ | ⟨failed,_⟩
        · exact ⟨had,rfl,committed₃.trans (committed₂.trans committed₁),Or.inl ⟨config,stored,running₃⟩⟩
        · exact absurd empty failed
      · intro passes _ hasTopology unclaimed _
        rw [transactionError_rolledBack,(restored passes).1,hasTopology config stored] at unclaimed
        simp at unclaimed

/-! ### Apply -/

/-- What a claim of a rollback rests on: the plan of the active topology is in place, and its configuration was
    started again, unless what ran before still runs. -/
def BackedClaim (deps : Compiler sc P C) (a : Adapter sc P C) (error : TopologyError) (a' : Adapter sc P C) : Prop :=
  error.rolledBack = true → ∃ target, TargetOf deps a.activeTopology target ∧ target.hadTopology = true ∧
    error.running = true ∧ a'.committed = target.portHopping ∧
    ((∃ config, target.config = some config ∧ a'.running = some config) ∨ a'.running = a.running)

theorem backedClaim_of_unclaimed {error : TopologyError} {a' : Adapter sc P C} (unclaimed : error.rolledBack = false) :
    BackedClaim deps a error a' := by
  intro claimed
  rw [unclaimed] at claimed
  cases claimed

/-- The forwarding plan in place is that of the active topology. -/
def Placed (deps : Compiler sc P C) (a : Adapter sc P C) : Prop := deps.buildPlan a.activeTopology.nodes = .ok a.committed

theorem Placed.restored {a' : Adapter sc P C} {target : RollbackTarget P C} (placed : Placed deps a) (targeted : TargetOf deps a.activeTopology target)
    (restored : a'.committed = target.portHopping) : a'.committed = a.committed := by
  have planned := targeted.plan
  rw [placed] at planned
  exact restored.trans (Except.ok.inj planned).symm

theorem ensures_adapterApply (candidate : MachineTopology sc) : Ensures (adapterApply deps candidate) a (Outcome
    (fun _ a' => a'.activeTopology = candidate ∧ deps.buildPlan candidate.nodes = .ok a'.activePlan ∧ a'.pendingReload = none ∧
      a'.committed = a'.activePlan)
    (fun error a' => Outside a a' ∧ BackedClaim deps a error a' ∧
      (a.script.restores a.script.applyFails = true → Placed deps a → a'.committed = a.committed))) := by
  refine Ensures.bind (ensures_compileOrFail _ _) ?_ ?_
  · rintro output a' ⟨same,compiled⟩
    rw [same]
    refine Ensures.bind (ensures_planOrFail _ _) ?_ ?_
    · rintro desired a' ⟨same,planned⟩
      rw [same]
      refine Ensures.bind ensures_previousState ?_ ?_
      · rintro target a' ⟨same,targeted⟩
        rw [same]
        refine Ensures.attempt_bind (ensures_reconcilePorts desired) ?_
        rintro (portError | ⟨⟩) a₁ held₁
        · obtain ⟨outside₁,running₁,certain,⟨-,uncertain⟩,script₁⟩ := held₁
          refine Ensures.mono (ensures_portConfigurationFailure portError target.portHopping target.hadTopology) ?_
          rintro (error | ⟨⟩) a₂ held₂
          · obtain ⟨outside₂,running₂,alive,claims,left⟩ := held₂
            refine ⟨outside₁.trans outside₂,?_,?_⟩
            · intro claimed
              obtain ⟨had,committed⟩ := claims claimed
              exact ⟨target,targeted,had,alive,committed,Or.inr (running₂.trans running₁)⟩
            · intro restores placed
              rcases left (fun lost => by rw [script₁]; exact Script.restores_uncertain restores (uncertain.trans lost)) with ⟨ordinary,kept⟩ | restored
              · exact kept.trans (certain ordinary)
              · exact placed.restored targeted restored
          · exact held₂.elim
        · obtain ⟨outside₁,running₁,committed₁,passes,script₁⟩ := held₁
          refine Ensures.attempt_bind (ensures_applyConfig output.runtime) ?_
          rintro (runtimeError | ⟨⟩) a₂ held₂
          · obtain ⟨outside₂,-,intact,ports₂,fails⟩ := held₂
            refine Ensures.mono (ensures_runtimeTransactionFailure (.ofError runtimeError) target .ordinaryApply) ?_
            rintro (error | ⟨⟩) a₃ held₃
            · refine ⟨(outside₁.trans outside₂).trans held₃.outside,?_,?_⟩
              · intro claimed
                obtain ⟨had,alive,committed,restored | ⟨survived,running₃⟩⟩ := held₃.rolledBack claimed
                · exact ⟨target,targeted,had,alive,committed,Or.inl restored⟩
                · exact ⟨target,targeted,had,alive,committed,Or.inr (running₃.trans ((intact survived).trans running₁))⟩
              · intro restores placed
                rw [script₁] at fails
                refine placed.restored targeted (held₃.restored ?_)
                rw [Script.portsPass,ports₂,script₁]
                exact Script.restores_failed restores passes fails
            · exact held₃.elim
          · exact Ensures.change ⟨rfl,planned,rfl,held₂.2.1.trans committed₁⟩
      · rintro error a' ⟨same,unclaimed⟩
        rw [same]
        exact ⟨.refl a,backedClaim_of_unclaimed unclaimed,fun _ _ => rfl⟩
    · rintro error a' ⟨same,unclaimed⟩
      rw [same]
      exact ⟨.refl a,backedClaim_of_unclaimed unclaimed,fun _ _ => rfl⟩
  · rintro error a' ⟨same,unclaimed⟩
    rw [same]
    exact ⟨.refl a,backedClaim_of_unclaimed unclaimed,fun _ _ => rfl⟩

/-! ### Reload -/

/-- The three steps of a forced reload. -/
def adapterReload (deps : Compiler sc P C) (candidate : MachineTopology sc) : Op (Adapter sc P C) TopologyError ReloadStatus := do
  let prepared ← adapterPrepareReload deps candidate
  adapterConfigureReload candidate
  adapterReloadPrepared candidate prepared

/-- A prepared reload of a candidate, with the rollback target of the active topology. -/
structure PreparedFor (deps : Compiler sc P C) (active candidate : MachineTopology sc) (pending : PreparedReload sc P C) : Prop where
  same : pending.candidate = candidate
  plan : deps.buildPlan candidate.nodes = .ok pending.desiredPlan
  target : TargetOf deps active ⟨pending.previousPlan,pending.previousConfig,pending.previousHadTopology⟩

theorem ensures_adapterPrepareReload (candidate : MachineTopology sc) : Ensures (adapterPrepareReload deps candidate) a (Outcome
    (fun _ a' => ∃ pending, a' = { a with pendingReload := some pending } ∧ PreparedFor deps a.activeTopology candidate pending)
    (fun error a' => (a' = a ∨ a' = { a with pendingReload := none }) ∧ error.rolledBack = false)) := by
  refine Ensures.bind (ensures_compileOrFail _ _) ?_ (fun _ _ failed => ⟨Or.inl failed.1,failed.2⟩)
  rintro output a' ⟨same,compiled⟩
  rw [same]
  refine Ensures.bind (ensures_planOrFail _ _) ?_ (fun _ _ failed => ⟨Or.inl failed.1,failed.2⟩)
  rintro desired a' ⟨same,planned⟩
  rw [same]
  refine Ensures.look_bind ?_
  split
  · exact Ensures.fail ⟨Or.inl rfl,rfl⟩
  · refine Ensures.change_bind ?_
    refine Ensures.bind ensures_previousState ?_ (fun _ _ failed => ⟨Or.inr failed.1,failed.2⟩)
    rintro target a' ⟨same,targeted⟩
    rw [same]
    exact Ensures.change_bind (Ensures.pure ⟨_,rfl,rfl,planned,targeted⟩)

/-- The router's part of a reload, once it is prepared. -/
theorem ensures_adapterConfigureReload {candidate : MachineTopology sc} {pending : PreparedReload sc P C}
    (prepared : a.pendingReload = some pending) (same : candidate = pending.candidate) :
    Ensures (adapterConfigureReload candidate) a (Outcome
      (fun _ a' => SameActive a a' ∧ a'.running = a.running ∧ a'.pendingReload = some { pending with configured := true } ∧
        a'.committed = pending.desiredPlan ∧ a.script.portsPass = true ∧ a'.script = { a.script with ports := a.script.ports.tail })
      (fun error a' => SameActive a a' ∧ a'.running = a.running ∧ a'.pendingReload = none ∧ error.running = true ∧
        (error.rolledBack = true → pending.previousHadTopology = true ∧ a'.committed = pending.previousPlan) ∧
        (a.script.restores a.script.reloadFails = true → a'.committed = a.committed ∨ a'.committed = pending.previousPlan))) := by
  refine Ensures.look_bind ?_
  rw [prepared,same]
  simp only [ne_eq,not_true_eq_false,if_false]
  refine Ensures.attempt_bind (ensures_reconcilePorts pending.desiredPlan) ?_
  rintro (portError | ⟨⟩) a₁ held₁
  · obtain ⟨outside₁,running₁,certain,⟨-,uncertain⟩,script₁⟩ := held₁
    refine Ensures.change_bind ?_
    refine Ensures.mono (ensures_portConfigurationFailure portError pending.previousPlan pending.previousHadTopology) ?_
    rintro (error | ⟨⟩) a₂ held₂
    · obtain ⟨outside₂,running₂,alive,claims,left⟩ := held₂
      refine ⟨outside₁.toSameActive.trans ⟨outside₂.topology,outside₂.plan,outside₂.warnings⟩,running₂.trans running₁,outside₂.pending,
        alive,claims,?_⟩
      intro restores
      rcases left (fun lost => by rw [script₁]; exact Script.restores_uncertain restores (uncertain.trans lost)) with ⟨ordinary,kept⟩ | restored
      · exact Or.inl (kept.trans (certain ordinary))
      · exact Or.inr restored
    · exact held₂.elim
  · obtain ⟨outside₁,running₁,committed₁,passes,script₁⟩ := held₁
    refine Ensures.look_bind ?_
    rw [outside₁.pending,prepared]
    exact Ensures.change ⟨⟨outside₁.topology,outside₁.plan,outside₁.warnings⟩,running₁,rfl,committed₁,passes,script₁⟩

/-- The runtime's part of a reload, once the ports are configured. -/
theorem ensures_adapterReloadPrepared {candidate : MachineTopology sc} {pending : PreparedReload sc P C} (config : C)
    (prepared : a.pendingReload = some pending) (same : pending.candidate = candidate) (configured : pending.configured = true) :
    Ensures (adapterReloadPrepared candidate config) a (Outcome
      (fun status a' => status.running = true ∧ a'.activeTopology = candidate ∧ a'.activePlan = pending.desiredPlan ∧
        a'.pendingReload = none ∧ a'.committed = a.committed)
      (fun error a' => SameActive a a' ∧ a'.pendingReload = none ∧ ∃ failure a₁,
        TransactionEnded failure ⟨pending.previousPlan,pending.previousConfig,pending.previousHadTopology⟩ a₁ error a' ∧
        a₁.script.ports = a.script.ports ∧ a.script.reloadFails = true ∧
        (failure.rolledBack = true ∨ failure.unchanged = true → a₁.running = a.running) ∧
        (failure.running = true → ∃ runtimeError left, failure = .ofError runtimeError ∧
          a.script.reloads.head? = some (.error runtimeError left)))) := by
  refine Ensures.look_bind ?_
  rw [prepared]
  refine Ensures.change_bind ?_
  simp only [same,configured,ne_eq,not_true_eq_false,if_false,Bool.true_eq_false]
  refine Ensures.attempt_bind (ensures_reloadConfig config) ?_
  rintro (runtimeError | status) a₁ held₁
  · obtain ⟨outside₁,-,intact,ports₁,left,head⟩ := held₁
    have fails : a.script.reloadFails = true := by
      have found : a.script.reloads.head?.any ReloadCall.fails = true := by
        rw [show a.script.reloads.head? = some (.error runtimeError left) from head]
        rfl
      exact found
    refine Ensures.mono (ensures_runtimeTransactionFailure (.ofError runtimeError) _ .forcedReload) ?_
    rintro (error | ⟨⟩) a₂ held₂
    · refine ⟨⟨?_,?_,?_⟩,?_,_,a₁,held₂,ports₁,fails,intact,?_⟩
      · exact held₂.outside.topology.trans outside₁.topology
      · exact held₂.outside.plan.trans outside₁.plan
      · exact held₂.outside.warnings.trans outside₁.warnings
      · exact held₂.outside.pending.trans outside₁.pending
      · exact fun _ => ⟨runtimeError,left,rfl,head⟩
    · exact held₂.elim
  · obtain ⟨outside₁,committed₁,-,ports₁,fails⟩ := held₁
    simp only
    split
    · next running => exact Ensures.change_bind (Ensures.pure ⟨running,rfl,rfl,outside₁.pending,committed₁⟩)
    · next stopped =>
      refine Ensures.mono (ensures_runtimeTransactionFailure .stopped _ .forcedReload) ?_
      rintro (error | ⟨⟩) a₂ held₂
      · refine ⟨⟨?_,?_,?_⟩,?_,_,a₁,held₂,ports₁,fails (Bool.eq_false_of_not_eq_true stopped),?_,nofun⟩
        · exact held₂.outside.topology.trans outside₁.topology
        · exact held₂.outside.plan.trans outside₁.plan
        · exact held₂.outside.warnings.trans outside₁.warnings
        · exact held₂.outside.pending.trans outside₁.pending
        · rintro (no | no) <;> cases no
      · exact held₂.elim

/-- The forwarding plan is restored if a reload has to restore it, and, with no topology active, a failed runtime reload has changed
    nothing or says that nothing runs. -/
structure ReloadHolds (a : Adapter sc P C) : Prop where
  restores : a.script.restores a.script.reloadFails = true
  first : a.activeTopology.machineId = "" → a.script.portsPass = true → ∀ error left, a.script.reloads.head? = some (.error error left) →
    error.rolledBack = true ∨ error.stateUnchanged = true ∨ error.running = false

/-- A failed reload: what it leaves, and what its error says. -/
structure ReloadFailed (deps : Compiler sc P C) (a : Adapter sc P C) (error : TopologyError) (a' : Adapter sc P C) : Prop where
  active : SameActive a a'
  pending : a'.pendingReload = a.pendingReload ∨ a'.pendingReload = none
  backed : BackedClaim deps a error a'
  restored : a.script.restores a.script.reloadFails = true → Placed deps a → a'.committed = a.committed
  unclaimed : ReloadHolds a → error.rolledBack = false → error.running = true → a'.running = a.running

theorem ensures_adapterReload (candidate : MachineTopology sc) : Ensures (adapterReload deps candidate) a (Outcome
    (fun status a' => status.running = true ∧ a'.activeTopology = candidate ∧
      deps.buildPlan candidate.nodes = .ok a'.activePlan ∧ a'.pendingReload = none ∧ a'.committed = a'.activePlan)
    (ReloadFailed deps a)) := by
  refine Ensures.bind (ensures_adapterPrepareReload candidate) ?_ ?_
  · rintro config a₁ ⟨pending,rfl,prepared⟩
    refine Ensures.bind (ensures_adapterConfigureReload rfl prepared.same.symm) ?_ ?_
    · rintro ⟨⟩ a₂ ⟨active₂,running₂,pending₂,committed₂,passes,script₂⟩
      refine Ensures.mono (ensures_adapterReloadPrepared config pending₂ prepared.same rfl) ?_
      rintro (error | status) a₃ held₃
      · obtain ⟨active₃,pending₃,failure,a₄,ended,ports₄,fails,intact,reported⟩ := held₃
        rw [script₂] at ports₄ fails reported
        have second (restores : a.script.restores a.script.reloadFails = true) : a₄.script.portsPass = true := by
          rw [Script.portsPass,ports₄]
          exact Script.restores_failed restores passes fails
        refine ⟨⟨active₃.topology.trans active₂.topology,active₃.plan.trans active₂.plan,active₃.warnings.trans active₂.warnings⟩,
          Or.inr pending₃,?_,?_,?_⟩
        · intro claimed
          obtain ⟨had,alive,committed,restored | ⟨survived,running₃⟩⟩ := ended.rolledBack claimed
          · exact ⟨_,prepared.target,had,alive,committed,Or.inl restored⟩
          · exact ⟨_,prepared.target,had,alive,committed,Or.inr (running₃.trans ((intact survived).trans running₂))⟩
        · -- What was restored is the plan of the active topology, which was in place before.
          intro restores placed
          exact placed.restored prepared.target (ended.restored (second restores))
        · intro holds unclaimed alive
          have present : ∀ config, pending.previousConfig = some config → pending.previousHadTopology = true := by
            intro config stored
            by_contra absent
            have missing : pending.previousConfig = none := prepared.target.absent (Bool.eq_false_of_not_eq_true absent)
            rw [missing] at stored
            cases stored
          obtain ⟨running₃,ran,left⟩ := ended.unclaimed (second holds.restores) prepared.target.absent present unclaimed alive
          have survived : failure.rolledBack = true ∨ failure.unchanged = true := by
            rcases left with survived | absent
            · exact survived
            · have unnamed : a.activeTopology.machineId = "" := by
                by_contra named
                obtain ⟨output,-,stored⟩ := prepared.target.config (prepared.target.hadTopology.mpr named)
                rw [absent] at stored
                cases stored
              obtain ⟨runtimeError,leftover,rfl,head⟩ := reported ran
              rcases holds.first unnamed passes runtimeError leftover head with rolled | same | stopped
              · exact Or.inl rolled
              · exact Or.inr same
              · rw [show (RuntimeFailureState.ofError runtimeError).running = runtimeError.running from rfl,stopped] at ran
                cases ran
          exact running₃.trans ((intact survived).trans running₂)
      · obtain ⟨running,active₃,plan₃,pending₃,committed₃⟩ := held₃
        exact ⟨running,active₃,by rw [plan₃]; exact prepared.plan,pending₃,by rw [committed₃,committed₂,plan₃]⟩
    · rintro error a₂ ⟨active₂,running₂,pending₂,alive,claims,left⟩
      refine ⟨⟨active₂.topology,active₂.plan,active₂.warnings⟩,Or.inr pending₂,?_,?_,fun _ _ _ => running₂⟩
      · intro claimed
        obtain ⟨had,committed⟩ := claims claimed
        exact ⟨_,prepared.target,had,alive,committed,Or.inr running₂⟩
      · intro restores placed
        rcases left restores with kept | restored
        · exact kept
        · exact placed.restored prepared.target restored
  · rintro error a₁ ⟨rfl | rfl,unclaimed⟩
    · exact ⟨.refl _,Or.inl rfl,backedClaim_of_unclaimed unclaimed,fun _ _ => rfl,fun _ _ _ => rfl⟩
    · exact ⟨⟨rfl,rfl,rfl⟩,Or.inr rfl,backedClaim_of_unclaimed unclaimed,fun _ _ => rfl,fun _ _ _ => rfl⟩

end NodeAgent.Topology
