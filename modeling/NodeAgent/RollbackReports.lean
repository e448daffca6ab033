import NodeAgent.AdapterInStep

/-!
What the adapter reports about a failed transaction. An error that claims a rollback speaks
of the forwarding plan and of the running configuration; the claim rests on what ran before
the call, and on the results of the rollback itself. A reload that is reported as unchanged
rests on the same.
-/
namespace NodeAgent.Topology
open NodeAgent.Fallible NodeAgent.Transition
open NodeAgent.Transaction (RuntimeError)

variable {sc : Sections} {P C : Type} (deps : Compiler sc P C) {a : Adapter sc P C}

/-! ### Claims of a rollback -/

/-- An error that claims a rollback is right: the plan and the configuration of the active topology are in place,
    the runtime is said to run, and the active topology is untouched. -/
def TruthfulRollback (a : Adapter sc P C) (error : TopologyError) (a' : Adapter sc P C) : Prop :=
  error.rolledBack = true →
    deps.buildPlan a.activeTopology.nodes = .ok a'.committed ∧
    (∃ output, deps.compile a.activeTopology = .ok output ∧ a'.running = some output.runtime) ∧
    error.running = true ∧ SameActive a a'

/-- Whatever the router and the runtime answer, an apply or a forced reload that fails is truthful about a rollback. -/
def RollbackReportsHold (a : Adapter sc P C) : Prop :=
  ∀ (script : Script P C) (candidate : MachineTopology sc) (error : TopologyError) (a' : Adapter sc P C),
    (adapterApply deps candidate { a with script := script } = (.error error,a') → TruthfulRollback deps a error a') ∧
    (adapterReload deps candidate { a with script := script } = (.error error,a') → TruthfulRollback deps a error a')

/-- The configuration that runs is that of the active topology, if there is one and it compiles. -/
def RunsActive (a : Adapter sc P C) : Prop :=
  a.activeTopology.machineId ≠ "" → ∀ plan output, deps.buildPlan a.activeTopology.nodes = .ok plan →
    deps.compile a.activeTopology = .ok output → a.running = some output.runtime

variable {deps}

/-- A claim that is backed is right when the active configuration ran before. -/
theorem truthful_of_backed {script : Script P C} {error : TopologyError} {a' : Adapter sc P C} (runs : RunsActive deps a)
    (active : SameActive { a with script := script } a') (backed : BackedClaim deps { a with script := script } error a') :
    TruthfulRollback deps a error a' := by
  intro claimed
  obtain ⟨target,targeted,had,alive,committed,running⟩ := backed claimed
  obtain ⟨output,compiled,stored⟩ := targeted.config had
  refine ⟨by rw [committed]; exact targeted.plan,⟨output,compiled,?_⟩,alive,active.topology,active.plan,active.warnings⟩
  rcases running with ⟨config,kept,running⟩ | same
  · rw [stored] at kept
    rw [running,← kept]
  · rw [same]
    exact runs (targeted.hadTopology.mp had) target.portHopping output targeted.plan compiled

/-- Reports of a rollback are right, for all outcomes of a call, exactly when the call starts from a runtime that runs
    the active topology. -/
theorem rollback_reports_hold_iff (deps : Compiler sc P C) (a : Adapter sc P C) :
    RollbackReportsHold deps a ↔ RunsActive deps a := by
  constructor
  · intro reports named plan output planned compiled
    -- The router fails uncertainly on the active topology itself and is restored; the runtime is never called.
    let script : Script P C := ⟨[.uncertain "" a.committed],[],[],[],[],[],[]⟩
    have failed : ∃ error a', adapterApply deps a.activeTopology { a with script := script } = (.error error,a') ∧
        error.rolledBack = true ∧ a'.running = a.running := by
      simp [adapterApply,compileOrFail,planOrFail,previousState,reconcilePorts,portConfigurationFailure,bind,attempt,look,
        pure,fail,compiled,planned,named,script,TopologyError.runtimeState]
    obtain ⟨error,a',applied,claimed,same⟩ := failed
    obtain ⟨-,⟨output',compiled',running⟩,-⟩ := (reports script a.activeTopology error a').1 applied claimed
    rw [compiled] at compiled'
    cases compiled'
    rw [← same,running]
  · intro runs script candidate error a'
    constructor
    · intro applied
      have spec : Ensures (adapterApply deps candidate) { a with script := script } _ := ensures_adapterApply candidate
      unfold Ensures at spec
      rw [applied] at spec
      exact truthful_of_backed runs spec.1.toSameActive spec.2.1
    · intro reloaded
      have spec : Ensures (adapterReload deps candidate) { a with script := script } _ := ensures_adapterReload candidate
      unfold Ensures at spec
      rw [reloaded] at spec
      exact truthful_of_backed runs spec.active spec.backed

/-- A runtime error that says nothing about what is left. -/
def lostRuntime : RuntimeError := ⟨"lost",none,false,false,true⟩

/-- The second apply fails and so does the restore, which leaves the configuration of revision 2. -/
def failedRestore : Script Nat Nat :=
  ⟨[.pass,.pass,.pass,.uncertain "busy" 7],[.pass,.error lostRuntime (some 2),.error lostRuntime (some 2)],[],[],[],[],[]⟩

/-- After a failed restore, an uncertain router error is reported as a rollback of everything while the configuration of
    a refused topology runs. -/
theorem failed_restore_then_rollback_reported :
    ∃ calls m, Run (step (adapterRuntime byRevision (fun _ => ""))) (Manager.initial "machine" (Adapter.initial byRevision failedRestore)) calls m ∧
      ¬RollbackReportsHold byRevision m.runtime := by
  let calls : List (Call finalTags) := [⟨.applyInitial (bare 1),false⟩,⟨.applyInitial (bare 2),false⟩]
  refine ⟨calls,_,Run.of_follow rfl,?_⟩
  intro reports
  have runs := (reports ⟨[.uncertain "busy" 7],[],[],[],[],[],[]⟩ (bare 3) _ _).1 rfl rfl
  obtain ⟨-,⟨output,compiled,running⟩,-⟩ := runs
  have first : output = ⟨1,[]⟩ := by
    have same : (Except.ok ⟨1,[]⟩ : Except String (Compiled Nat)) = .ok output := compiled
    cases same
    rfl
  rw [first] at running
  cases running

/-! ### Reloads reported as unchanged -/

section Unchanged
variable {m : Manager sc (Adapter sc P C)} {sha256 : Option C → String}

theorem reloadFailure_unchanged {stage : ReloadStage} {error : TopologyError}
    (unchanged : (reloadFailure stage error).outcome = .failedUnchanged) : error.rolledBack = false ∧ error.running = true := by
  unfold reloadFailure failedReload at unchanged
  cases rolled : error.rolledBack <;> cases running : error.running <;> simp_all

/-- The forwarding plan and the running configuration are as they were. -/
def KeepsDataPlane (a a' : Adapter sc P C) : Prop := a'.committed = a.committed ∧ a'.running = a.running

/-- A reload that the adapter reports as unchanged. -/
theorem ensures_reload_unchanged (candidate : MachineTopology sc)
    (holds : (∃ config a₁, adapterPrepareReload deps candidate a = (.ok config,a₁)) → Placed deps a ∧ ReloadHolds a) :
    Ensures ((adapterRuntime deps sha256).reload candidate) a (Outcome (fun status _ => status.running = true)
      (fun result a' => result.outcome = .failedUnchanged → KeepsDataPlane a a')) := by
  obtain ⟨stage,eq⟩ := adapterRuntime_reload deps sha256 candidate a
  have spec : Ensures (adapterReload deps candidate) a _ := ensures_adapterReload candidate
  unfold Ensures at spec ⊢
  rw [eq]
  rcases ended : adapterReload deps candidate a with ⟨error | status,a'⟩
  · rw [ended] at spec
    intro unchanged
    obtain ⟨unclaimed,running⟩ := reloadFailure_unchanged unchanged
    rcases prepared : adapterPrepareReload deps candidate a with ⟨failed | config,a₁⟩
    · -- Nothing was called.
      have kept : Ensures (adapterPrepareReload deps candidate) a _ := ensures_adapterPrepareReload candidate
      unfold Ensures at kept
      rw [prepared] at kept
      have same : a₁ = a' := by
        simp only [adapterReload,bind,prepared,Prod.mk.injEq] at ended
        exact ended.2
      rcases kept.1 with rfl | rfl
      · rw [← same]
        exact ⟨rfl,rfl⟩
      · rw [← same]
        exact ⟨rfl,rfl⟩
    · obtain ⟨placed,holds⟩ := holds ⟨config,a₁,prepared⟩
      exact ⟨spec.restored holds.restores placed,spec.unclaimed holds unclaimed running⟩
  · rw [ended] at spec
    exact spec.1

/-- A reload gets to the router: its candidate was fetched and is admitted, and the adapter can prepare it. -/
structure ReachesRouter (deps : Compiler sc P C) (m : Manager sc (Adapter sc P C)) (session : Bool) (baseline : UInt64)
    (fetched : Option (Except FetchError (MachineTopology sc))) (topology : MachineTopology sc) : Prop where
  fetched : fetched = some (.ok topology)
  opened : m.operationsCancelled = false
  lasts : session = false
  token : baseline = m.published.generation
  authoritative : Authoritative m.published.topology topology.revision
  prepared : ∃ config a, adapterPrepareReload deps (topology.withDefaultId m.machineId) m.runtime = (.ok config,a)

theorem ensures_reloadFrom_unchanged (session : Bool) (baseline : UInt64) (stage : ReloadStage)
    (fetched : Option (Except FetchError (MachineTopology sc)))
    (holds : ∀ topology, ReachesRouter deps m session baseline fetched topology → Placed deps m.runtime ∧ ReloadHolds m.runtime) :
    Ensures (reloadFrom (adapterRuntime deps sha256) session baseline stage fetched) m
      (Outcome (fun result _ => result.outcome = .succeeded)
        (fun result m' => result.outcome = .failedUnchanged → KeepsDataPlane m.runtime m'.runtime)) := by
  -- Before the runtime is called, its state does not move.
  let S : MachineTopology sc → Adapter sc P C → Prop := fun _ r => r = m.runtime
  have held : S m.published.topology m.runtime := rfl
  have untouched {m' : Manager sc (Adapter sc P C)} (followed : Follows S m none m') : KeepsDataPlane m.runtime m'.runtime := by
    have same : m'.runtime = m.runtime := followed.runtime
    rw [same]
    exact ⟨rfl,rfl⟩
  refine Ensures.bind (ensures_receiveReload held stage fetched) ?_ (fun _ _ failed _ => untouched failed.2)
  rintro candidate m' ⟨same,topology,rfl,rfl⟩
  rw [same]
  refine Ensures.bind (Q := Outcome (fun _ m' => m' = m ∧ m.operationsCancelled = false ∧ session = false) (fun _ m' => Follows S m none m'))
    ?_ ?_ (fun _ _ kept _ => untouched kept)
  · exact Ensures.orFail (ensures_beginOperation held session) (fun _ _ begun => begun) (fun _ _ kept => kept)
  rintro ⟨⟩ m' ⟨same,opened,lasts⟩
  rw [same]
  refine Ensures.look_bind ?_
  split
  · exact Ensures.fail (fun _ => ⟨rfl,rfl⟩)
  next token =>
  refine Ensures.bind (Q := Outcome (fun _ m' => m' = m ∧ Authoritative m.published.topology topology.revision)
    (fun _ m' => Follows S m none m')) ?_ ?_ (fun _ _ kept _ => untouched kept)
  · refine Ensures.orFail (ensures_guardAuthoritativeRevision held _) ?_ (fun _ _ kept => kept)
    rintro ⟨⟩ m' checked
    rwa [withDefaultId_revision] at checked
  rintro ⟨⟩ m' ⟨same,authoritative⟩
  rw [same]
  have called : Ensures ((adapterRuntime deps sha256).reload (topology.withDefaultId m.machineId)) m.runtime _ :=
    ensures_reload_unchanged _ (fun prepared => holds topology ⟨rfl,opened,lasts,not_not.mp token,authoritative,prepared⟩)
  refine Ensures.bind (ensures_onRuntime called) ?_ (fun _ _ failed => failed.1)
  rintro status m₁ ⟨running,-,-⟩
  rw [if_neg (by rw [show status.running = true from running]; decide)]
  refine Ensures.bind (ensures_publishAndCloseStaleUsers (Tracks.any _).toIdles trivial) ?_ (fun _ _ no => no.elim)
  intro _ m₂ _
  exact Ensures.look_bind (Ensures.pure rfl)

/-- Every call of a run restored the forwarding plan wherever it had to. -/
def RestoredSoFar (rt : TopologyRuntime sc (Adapter sc P C) C) (start : Manager sc (Adapter sc P C)) (calls : List (Call sc)) : Prop :=
  ∀ before call later m, calls = before ++ call :: later → Run (step rt) start before m → restoresPlan m call = true

/-- From every reachable state, a reload that is reported as unchanged has kept the forwarding plan and the running configuration,
    provided that, if it gets to the router, the plan in place is that of the active topology, as it is when every earlier call has
    restored the plan wherever it had to; that it restores the plan itself if it has to; and that, with no topology active, a failed
    runtime reload has changed nothing or says that nothing runs. -/
theorem unchanged_reload_keeps_data_plane {machineId : String} {script : Script P C} {calls : List (Call sc)}
    (run : Run (step (adapterRuntime deps sha256)) (Manager.initial machineId (Adapter.initial deps script)) calls m)
    {session : Bool} {baseline : UInt64} {stage : ReloadStage} {fetched : Option (Except FetchError (MachineTopology sc))}
    (holds : ∀ topology, ReachesRouter deps m session baseline fetched topology →
      (Placed deps m.runtime ∨ RestoredSoFar (adapterRuntime deps sha256) (Manager.initial machineId (Adapter.initial deps script)) calls) ∧
      ReloadHolds m.runtime)
    {result : TopologyReloadResult} {m' : Manager sc (Adapter sc P C)}
    (reloaded : operate (adapterRuntime deps sha256) ⟨.reloadFrom baseline stage fetched,session⟩ m = (.reloaded result,m'))
    (unchanged : result.outcome = .failedUnchanged) : KeepsDataPlane m.runtime m'.runtime := by
  have reaches (topology : MachineTopology sc) (reached : ReachesRouter deps m session baseline fetched topology) :
      Placed deps m.runtime ∧ ReloadHolds m.runtime := by
    obtain ⟨placed | restored,holds⟩ := holds topology reached
    · exact ⟨placed,holds⟩
    · exact ⟨(plan_in_place (run.guard restored)).2,holds⟩
  have spec : Ensures (reloadFrom (adapterRuntime deps sha256) session baseline stage fetched) m _ :=
    ensures_reloadFrom_unchanged session baseline stage fetched reaches
  unfold Ensures at spec
  have operated : operate (adapterRuntime deps sha256) ⟨.reloadFrom baseline stage fetched,session⟩ m =
      (reloadFrom (adapterRuntime deps sha256) session baseline stage fetched m).map
        (fun ended => .reloaded (ending ended)) id := rfl
  rw [operated] at reloaded
  rcases ended : reloadFrom (adapterRuntime deps sha256) session baseline stage fetched m with ⟨failed | succeeded,m₁⟩
  · rw [ended] at reloaded spec
    cases reloaded
    exact spec unchanged
  · rw [ended] at reloaded spec
    cases reloaded
    have success : succeeded.outcome = .succeeded := spec
    have clash : succeeded.outcome = .failedUnchanged := unchanged
    rw [success] at clash
    cases clash

end Unchanged

/-- A reload of revision 2. -/
def reloadSecond : Call finalTags := ⟨.reloadFrom 1 .pullUsers (some (.ok (bare 2))),false⟩

theorem refused_reload_keeps_data_plane :
    KeepsDataPlane (started refusedReload).runtime
      (operate (adapterRuntime byRevision (fun _ => "")) reloadSecond (started refusedReload)).2.runtime := by
  have restored : RestoredSoFar (adapterRuntime byRevision (fun _ => "")) (Manager.initial "machine" (Adapter.initial byRevision refusedReload))
      [⟨.applyInitial (bare 1),false⟩] := by
    intro before call later m same run
    cases before with
    | nil =>
      cases same
      rw [run.eq_of_nil]
      rfl
    | cons => simp at same
  have holds : ReloadHolds (started refusedReload).runtime := ⟨rfl,fun unnamed => absurd unnamed (by decide)⟩
  obtain ⟨result,m',reloaded,unchanged⟩ : ∃ result m', operate (adapterRuntime byRevision (fun _ => "")) reloadSecond
    (started refusedReload) = (.reloaded result,m') ∧ result.outcome = .failedUnchanged := ⟨_,_,rfl,rfl⟩
  have kept := unchanged_reload_keeps_data_plane (started_run refusedReload) (fun _ _ => ⟨.inr restored,holds⟩) reloaded unchanged
  rw [reloaded]
  exact kept

/-- The router fails uncertainly on the new plan, and the restoration of the old one fails too. -/
def lostForwarding : Script Nat Nat := ⟨[.pass,.uncertain "busy" 7,.ordinary "busy"],[],[],[],[],[],[]⟩

/-- A reload that has lost the forwarding plan is reported as unchanged. -/
theorem lost_forwarding_reported_unchanged : ∃ calls m result m',
    Run (step (adapterRuntime byRevision (fun _ => ""))) (Manager.initial "machine" (Adapter.initial byRevision lostForwarding)) calls m ∧
    operate (adapterRuntime byRevision (fun _ => "")) reloadSecond m = (.reloaded result,m') ∧
    result.outcome = .failedUnchanged ∧ ¬KeepsDataPlane m.runtime m'.runtime := by
  refine ⟨_,started lostForwarding,_,_,started_run lostForwarding,rfl,rfl,?_⟩
  rintro ⟨committed,-⟩
  cases committed

end NodeAgent.Topology
