import NodeAgent.AdapterCalls
import NodeAgent.PublishedTopology

/-!
The topology manager over its adapter. Both hold a copy of the active topology, and update it
at different points of an operation; between operations the copies agree up to the revision,
and no reload is left half done.
-/
namespace NodeAgent.Topology
open NodeAgent.Fallible NodeAgent.Transition

variable {sc : Sections} {P C ε α ρ : Type} {deps : Compiler sc P C} {a : Adapter sc P C} {sha256 : Option C → String}

/-! ### Reconciliation -/

theorem ensures_recoverListener (current : MachineTopology sc) : Ensures (recoverListener deps current) a
    (fun _ a' => Outside a a' ∧ a'.committed = a.committed) := by
  refine Ensures.bind ensures_runtimeHealthSnapshot ?_ (fun _ _ no => no.elim)
  rintro health a₁ ⟨outside₁,committed₁⟩
  cases health.bind RuntimeHealth.failure with
  | none => exact Ensures.pure ⟨outside₁,committed₁⟩
  | some failure =>
    refine Ensures.bind (ensures_compileOrFail _ current) ?_ ?_
    · rintro recovery a' ⟨same,_⟩
      rw [same]
      refine Ensures.attempt_bind (ensures_reloadConfig recovery.runtime) ?_
      rintro (error | status) a₂ held₂
      · exact Ensures.pure ⟨outside₁.trans held₂.1,held₂.2.1.trans committed₁⟩
      · refine Ensures.bind ensures_runtimeHealthSnapshot ?_ (fun _ _ no => no.elim)
        rintro after a₃ ⟨outside₃,committed₃⟩
        have kept : Outside a a₃ ∧ a₃.committed = a.committed :=
          ⟨(outside₁.trans held₂.1).trans outside₃,committed₃.trans (held₂.2.1.trans committed₁)⟩
        cases after with
        | none => exact Ensures.pure kept
        | some after =>
          simp only
          split
          · exact Ensures.pure kept
          · exact Ensures.pure kept
    · rintro error a' ⟨same,_⟩
      rw [same]
      exact ⟨outside₁,committed₁⟩

/-- A reconciliation puts the plan of the published topology in place, unless the router fails. -/
theorem ensures_adapterReconcile (current : MachineTopology sc) : Ensures (adapterReconcile deps current) a (Outcome
    (fun _ a' => a'.activeTopology = current ∧ deps.buildPlan current.nodes = .ok a'.activePlan ∧ a'.pendingReload = a.pendingReload ∧
      a'.committed = a'.activePlan)
    (fun _ a' => Outside a a' ∧
      (a.script.portsUncertain = false → a'.committed = a.committed ∨ deps.buildPlan current.nodes = .ok a'.committed))) := by
  refine Ensures.bind (ensures_planOrFail _ current) ?_ (fun _ a' failed => by rw [failed.1]; exact ⟨.refl a,fun _ => .inl rfl⟩)
  rintro plan a' ⟨same,planned⟩
  rw [same]
  refine Ensures.attempt_bind (ensures_reconcilePorts plan) ?_
  intro ports a₁ held₁
  have outside₁ : Outside a a₁ := by
    cases ports with
    | ok _ => exact held₁.1
    | error _ => exact held₁.1
  have left (certain : a.script.portsUncertain = false) : a₁.committed = a.committed ∨ deps.buildPlan current.nodes = .ok a₁.committed := by
    cases ports with
    | ok _ => exact .inr (by rw [held₁.2.2.1]; exact planned)
    | error _ => exact .inl (held₁.2.2.1 (held₁.2.2.2.1.2.symm.trans certain))
  refine Ensures.bind (ensures_recoverListener current) ?_ ?_
  · rintro recovery a₂ ⟨outside₂,committed₂⟩
    have outside := outside₁.trans outside₂
    simp only
    split
    · next clean =>
      refine Ensures.change ⟨rfl,planned,outside.pending,committed₂.trans ?_⟩
      cases ports with
      | ok _ => exact held₁.2.2.1
      | error _ => cases clean
    · refine Ensures.bind ensures_runtimeHealthSnapshot ?_ (fun _ _ no => no.elim)
      rintro health a₃ ⟨outside₃,committed₃⟩
      exact Ensures.fail ⟨outside.trans outside₃,fun certain => by rw [committed₃,committed₂]; exact left certain⟩
  · rintro _ a₂ ⟨outside₂,committed₂⟩
    exact ⟨outside₁.trans outside₂,fun certain => by rw [committed₂]; exact left certain⟩

/-! ### The reload as the manager calls it -/

/-- A forced reload reports each failure at the stage it came from, and does nothing else with it. -/
theorem reload_steps (rt : TopologyRuntime sc ρ C) (candidate : MachineTopology sc) (r : ρ) : ∃ stage,
    let steps : Op ρ TopologyError ReloadStatus := do
      let prepared ← rt.prepareReload candidate
      rt.configureReload candidate
      rt.reloadPrepared candidate prepared
    rt.reload candidate r = ((steps r).1.mapError (reloadFailure stage),(steps r).2) := by
  rcases first : rt.prepareReload candidate r with ⟨error | prepared,r₁⟩
  · exact ⟨.buildConfiguration,by simp [TopologyRuntime.reload,orFail,attempt,bind,fail,first,Except.mapError]⟩
  rcases second : rt.configureReload candidate r₁ with ⟨error | ⟨⟩,r₂⟩
  · exact ⟨.configurePortHopping,by
      simp [TopologyRuntime.reload,orFail,attempt,bind,fail,pure,first,second,Except.mapError]⟩
  rcases third : rt.reloadPrepared candidate prepared r₂ with ⟨error | status,r₃⟩
  · exact ⟨.startInstance,by
      simp [TopologyRuntime.reload,orFail,attempt,bind,fail,pure,first,second,third,Except.mapError]⟩
  · exact ⟨.startInstance,by
      simp [TopologyRuntime.reload,orFail,attempt,bind,pure,first,second,third,Except.mapError]⟩

theorem adapterRuntime_reload (deps : Compiler sc P C) (sha256 : Option C → String) (candidate : MachineTopology sc) (a : Adapter sc P C) : ∃ stage,
    (adapterRuntime deps sha256).reload candidate a =
      ((adapterReload deps candidate a).1.mapError (reloadFailure stage),(adapterReload deps candidate a).2) :=
  reload_steps (adapterRuntime deps sha256) candidate a

/-! ### In step -/

/-- Equal topologies but for their revisions and those of their snapshots. -/
def SameButRevision (left right : MachineTopology sc) : Prop := left.atRevision 0 = right.atRevision 0

/-- The adapter's copy is the published topology but for revisions, its plan is the one of that topology, and no
    configured reload is left behind. -/
structure InStep (deps : Compiler sc P C) (published : MachineTopology sc) (a : Adapter sc P C) : Prop where
  topology : SameButRevision a.activeTopology published
  plan : deps.buildPlan a.activeTopology.nodes = .ok a.activePlan
  pending : ∀ pending, a.pendingReload = some pending → pending.configured = false

theorem InStep.outside {published : MachineTopology sc} {a' : Adapter sc P C} (inStep : InStep deps published a)
    (outside : Outside a a') : InStep deps published a' :=
  ⟨by rw [outside.topology]; exact inStep.topology,by rw [outside.topology,outside.plan]; exact inStep.plan,
    by rw [outside.pending]; exact inStep.pending⟩

theorem atRevision_atRevision (topology : MachineTopology sc) (first second : UInt64) :
    (topology.atRevision first).atRevision second = topology.atRevision second := by
  unfold MachineTopology.atRevision setSnapshotRevision MachineTopology.onSnapshot
  cases topology.snapshot <;> rfl

theorem tracks_inStep (deps : Compiler sc P C) (sha256 : Option C → String) : Tracks (adapterRuntime deps sha256) (InStep deps) where
  apply := by
    intro t a inStep c
    refine Ensures.mono (ensures_adapterApply c) ?_
    rintro (error | ⟨⟩) a' held
    · exact inStep.outside held.1
    · obtain ⟨active,plan,pending,-⟩ := held
      exact ⟨by rw [active]; rfl,by rw [active]; exact plan,by rw [pending]; nofun⟩
  reload := by
    intro t a inStep c
    obtain ⟨stage,eq⟩ := adapterRuntime_reload deps sha256 c a
    have spec : Ensures (adapterReload deps c) a _ := ensures_adapterReload c
    unfold Ensures at spec ⊢
    rw [eq]
    rcases ended : adapterReload deps c a with ⟨error | status,a'⟩
    · rw [ended] at spec
      refine ⟨by rw [spec.active.topology]; exact inStep.topology,?_,?_⟩
      · rw [spec.active.topology,spec.active.plan]
        exact inStep.plan
      · rcases spec.pending with same | cleared
        · rw [same]
          exact inStep.pending
        · rw [cleared]
          nofun
    · rw [ended] at spec
      obtain ⟨running,active,plan,pending,-⟩ := spec
      show if status.running then InStep deps c a' else InStep deps t a'
      rw [if_pos running]
      exact ⟨by rw [active]; rfl,by rw [active]; exact plan,by rw [pending]; nofun⟩
  reconcileCurrent := by
    intro t a inStep
    refine Ensures.mono (ensures_adapterReconcile t) ?_
    rintro (error | ⟨⟩) a' held
    · exact inStep.outside held.1
    · obtain ⟨active,plan,pending,-⟩ := held
      exact ⟨by rw [active]; rfl,by rw [active]; exact plan,by rw [pending]; exact inStep.pending⟩
  closeUserConnections := by
    intro t a inStep _ _
    exact inStep
  beginClose := by
    intro t a inStep
    exact ⟨inStep.topology,inStep.plan,inStep.pending⟩
  atRevision := by
    intro t a inStep revision
    refine ⟨?_,inStep.plan,inStep.pending⟩
    unfold SameButRevision
    rw [atRevision_atRevision]
    exact inStep.topology

theorem inStep_initial (script : Script P C) : InStep deps MachineTopology.default (Adapter.initial deps script) :=
  ⟨rfl,deps.buildPlan_nil,nofun⟩

/-- Between the operations of a manager that is not closed, the adapter's topology is the published one but for
    revisions, its plan is the plan of that topology, and no configured reload is pending. -/
theorem adapter_in_step_with_manager {machineId : String} {script : Script P C} {calls : List (Call sc)}
    {m : Manager sc (Adapter sc P C)}
    (run : Run (step (adapterRuntime deps sha256)) (Manager.initial machineId (Adapter.initial deps script)) calls m)
    (opened : ∀ call ∈ calls, call.operation ≠ .close) : InStep deps m.published.topology m.runtime := by
  refine run.keeps (I := fun _ m => InStep deps m.published.topology m.runtime) (fun call => call.operation ≠ .close)
    (inStep_initial script) ?_ opened
  intro _ m call m' inStep remains taken
  cases taken
  have tracks := tracks_inStep deps sha256
  have settled := operate_settles tracks.toIdles inStep call (tracks.asks inStep _ (fun closes => absurd closes remains))
  split at settled
  · exact settled.runtime
  · obtain ⟨change,_,followed⟩ := settled
    exact followed.runtime

/-! ### The forwarding plan over runs -/

theorem SameButRevision.nodes {left right : MachineTopology sc} (same : SameButRevision left right) : left.nodes = right.nodes := by
  have fixed (topology : MachineTopology sc) : (topology.atRevision 0).nodes = topology.nodes := by
    unfold MachineTopology.atRevision setSnapshotRevision MachineTopology.onSnapshot
    cases topology.snapshot <;> rfl
  rw [← fixed left,← fixed right]
  exact congrArg MachineTopology.nodes same

/-- The adapter is in step, and the router has the plan of the active topology in place. -/
def InPlace (deps : Compiler sc P C) (published : MachineTopology sc) (a : Adapter sc P C) : Prop := InStep deps published a ∧ Placed deps a

/-- A call restores the forwarding plan wherever it has to, and a reconciliation does not lose it. -/
def restoresPlan (m : Manager sc (Adapter sc P C)) (call : Call sc) : Bool :=
  let script := m.runtime.script
  match call.operation with
  | .reloadFrom .. => script.restores script.reloadFails
  | .reconcileCurrent => !script.portsUncertain
  | .stopOperations => true
  | .close => false
  | _ => script.restores script.applyFails

theorem idles_inPlace (deps : Compiler sc P C) (sha256 : Option C → String) : Idles (adapterRuntime deps sha256) (InPlace deps) where
  closeUserConnections inPlace _ _ := inPlace
  beginClose inPlace := ⟨(tracks_inStep deps sha256).beginClose inPlace.1,inPlace.2⟩
  atRevision inPlace revision := ⟨(tracks_inStep deps sha256).atRevision inPlace.1 revision,inPlace.2⟩

theorem InPlace.applies {t : MachineTopology sc} (inPlace : InPlace deps t a) (restores : a.script.restores a.script.applyFails = true) :
    Applies (adapterRuntime deps sha256) (InPlace deps) t a := by
  intro c
  refine Ensures.mono (Ensures.and ((tracks_inStep deps sha256).apply inPlace.1 c) (ensures_adapterApply c)) ?_
  rintro (error | ⟨⟩) a' ⟨inStep,held⟩
  · refine ⟨inStep,?_⟩
    rw [Placed,held.1.topology,held.2.2 restores inPlace.2]
    exact inPlace.2
  · obtain ⟨active,plan,-,committed⟩ := held
    exact ⟨inStep,by rw [Placed,active,committed]; exact plan⟩

theorem InPlace.reloads {t : MachineTopology sc} (inPlace : InPlace deps t a) (restores : a.script.restores a.script.reloadFails = true) :
    Reloads (adapterRuntime deps sha256) (InPlace deps) t a := by
  intro c
  obtain ⟨stage,eq⟩ := adapterRuntime_reload deps sha256 c a
  have inStep := (tracks_inStep deps sha256).reload inPlace.1 c
  have spec : Ensures (adapterReload deps c) a _ := ensures_adapterReload c
  unfold Ensures at inStep spec ⊢
  rw [eq] at inStep ⊢
  rcases ended : adapterReload deps c a with ⟨error | status,a'⟩
  · rw [ended] at inStep spec
    refine ⟨inStep,?_⟩
    show Placed deps a'
    rw [Placed,spec.active.topology,spec.restored restores inPlace.2]
    exact inPlace.2
  · rw [ended] at inStep spec
    obtain ⟨running,active,plan,-,committed⟩ := spec
    change if status.running then InStep deps c a' else InStep deps t a' at inStep
    show if status.running then InPlace deps c a' else InPlace deps t a'
    rw [if_pos running] at inStep ⊢
    exact ⟨inStep,by rw [Placed,active,committed]; exact plan⟩

theorem InPlace.reconciles {t : MachineTopology sc} (inPlace : InPlace deps t a) (certain : a.script.portsUncertain = false) :
    Reconciles (adapterRuntime deps sha256) (InPlace deps) t a := by
  refine Ensures.mono (Ensures.and ((tracks_inStep deps sha256).reconcileCurrent inPlace.1) (ensures_adapterReconcile t)) ?_
  rintro (error | ⟨⟩) a' ⟨inStep,held⟩
  · refine ⟨inStep,?_⟩
    rw [Placed,held.1.topology]
    rcases held.2 certain with kept | planned
    · rw [kept]
      exact inPlace.2
    · rw [inPlace.1.topology.nodes]
      exact planned
  · obtain ⟨active,plan,-,committed⟩ := held
    exact ⟨inStep,by rw [Placed,active,committed]; exact plan⟩

/-- After calls that have restored the forwarding plan wherever they had to, it is that of the active topology. -/
theorem plan_in_place {machineId : String} {script : Script P C} {calls : List (Call sc)} {m : Manager sc (Adapter sc P C)}
    (run : Run (guarded restoresPlan (step (adapterRuntime deps sha256))) (Manager.initial machineId (Adapter.initial deps script)) calls m) :
    InPlace deps m.published.topology m.runtime := by
  have placed : Placed deps (Adapter.initial deps script) := deps.buildPlan_nil
  refine run.invariant (I := fun m => InPlace deps m.published.topology m.runtime) ⟨inStep_initial script,placed⟩ ?_
  intro m call m' inPlace taken
  obtain ⟨restores,taken⟩ := guarded_eq_some.mp taken
  cases taken
  have asks : Asks (adapterRuntime deps sha256) (InPlace deps) m.published.topology m.runtime call.operation := by
    obtain ⟨operation,session⟩ := call
    cases operation with
    | reloadFrom => exact inPlace.reloads restores
    | reconcileCurrent => exact inPlace.reconciles (by simpa [restoresPlan] using restores)
    | stopOperations => trivial
    | close => cases restores
    | _ => exact inPlace.applies restores
  have settled := operate_settles (idles_inPlace deps sha256) inPlace call asks
  split at settled
  · exact settled.runtime
  · obtain ⟨change,_,followed⟩ := settled
    exact followed.runtime

/-! A compiler that numbers its configurations by revision, and plans by the number of nodes. -/

def byRevision : Compiler finalTags Nat Nat :=
  { compile := fun topology => if topology.machineId = "" then .error "machine_id is required"
      else .ok ⟨topology.revision.toNat,[]⟩
    buildPlan := fun nodes => .ok nodes.length
    emptyPlan := 0
    buildPlan_nil := rfl }

/-- A topology without nodes. -/
def bare (revision : UInt64) : MachineTopology finalTags := { MachineTopology.default with machineId := "machine", revision := revision }

/-- The manager after the first topology, with the outcomes of what follows. -/
def started (script : Script Nat Nat) : Manager finalTags (Adapter finalTags Nat Nat) :=
  (operate (adapterRuntime byRevision (fun _ => "")) ⟨.applyInitial (bare 1),false⟩
    (Manager.initial "machine" (Adapter.initial byRevision script))).2

theorem started_run (script : Script Nat Nat) : Run (step (adapterRuntime byRevision (fun _ => "")))
    (Manager.initial "machine" (Adapter.initial byRevision script)) [⟨.applyInitial (bare 1),false⟩] (started script) :=
  Run.snoc .nil rfl

/-- A topology with a node that has no users. -/
def hosting (revision : UInt64) : MachineTopology finalTags := { bare revision with nodes := [⟨"node","provider",1,[],[]⟩] }

/-- The runtime refuses the reload and has changed nothing. -/
def refusedReload : Script Nat Nat := ⟨[],[],[.error ⟨"refused",none,false,true,true⟩ none],[],[],[],[]⟩

/-- A refused reload, and a refresh that changes no user and moves the published revision only. -/
def refreshedInPlace : List (Call finalTags) :=
  [⟨.applyInitial (hosting 1),false⟩,⟨.reloadFrom 1 .pullUsers (some (.ok (hosting 2))),false⟩,⟨.refresh ⟨"node",[],none,.advanceTo 3⟩,false⟩]

theorem refreshed_adapter_in_step : ∃ m,
    Run (step (adapterRuntime byRevision (fun _ => ""))) (Manager.initial "machine" (Adapter.initial byRevision refusedReload)) refreshedInPlace m ∧
    m.published.topology.revision = 3 ∧ m.runtime.activeTopology.revision = 1 ∧ InStep byRevision m.published.topology m.runtime := by
  obtain ⟨m,run,published,active⟩ : ∃ m,
      Run (step (adapterRuntime byRevision (fun _ => ""))) (Manager.initial "machine" (Adapter.initial byRevision refusedReload)) refreshedInPlace m ∧
      m.published.topology.revision = 3 ∧ m.runtime.activeTopology.revision = 1 := ⟨_,Run.of_follow rfl,rfl,rfl⟩
  exact ⟨m,run,published,active,adapter_in_step_with_manager run (by simp [refreshedInPlace])⟩

end NodeAgent.Topology
