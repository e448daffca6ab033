import NodeAgent.CommandExecutor

/-!
What the answer to a revision-fenced command says about the published topology. Over every
interleaving with other operations, an applied command has its target revision published, and
a mutation that was rebased after a resync starts from a revision that the panel returned.
-/
namespace NodeAgent.Control
open NodeAgent.Topology NodeAgent.Fallible NodeAgent.Transition

variable {sc : Sections} {ρ C : Type} {rt : TopologyRuntime sc ρ C} {machineId : String} {command : ControlCommand sc}

/-! ### Fenced operations -/

/-- The operations that a fence admits, with its base and its target. -/
inductive Targets : Operation sc → UInt64 → UInt64 → Prop
  | delta (delta : Pb.TopologyDelta) : Targets (.applyDelta (some delta)) delta.baseRevision delta.targetRevision
  | routePatch (patch : Pb.TopologyRoutePatch sc) (base : UInt64) : Targets (.applyRoutePatch (some patch) base) base patch.revision
  | userMutation (mutation : Pb.UserMutation) (base : UInt64) :
      Targets (.applyUserMutation (some mutation) base) base mutation.revision
  | refresh {request : UserRefreshRequest} {base target : UInt64} :
      request.revision = .fence base target → Targets (.refresh request) base target

theorem advanceTo_target (topology : MachineTopology sc) (target : UInt64) : target ≤ (topology.advanceTo target).revision := by
  unfold MachineTopology.advanceTo
  split
  · exact UInt64.le_refl _
  · next behind => exact UInt64.not_lt.mp behind

/-- What a fenced operation publishes has reached the target. -/
theorem admits_target {current : Published sc} {operation : Operation sc} {base target : UInt64}
    {change : Option (Publication sc)} (targets : Targets operation base target)
    (admits : Admits machineId current operation change) : target ≤ (current.after change).topology.revision := by
  cases admits with
  | @delta delta next fenced built =>
    cases targets
    obtain ⟨middle,-,rfl⟩ := deltaCandidate_ok (P := fun _ => True) (fun _ _ _ => trivial) (fun _ _ _ _ _ => trivial) trivial built
    show _ ≤ (MachineTopology.withDefaultId _ machineId).revision
    rw [withDefaultId_revision]
    exact UInt64.le_refl _
  | routePatch fenced =>
    cases targets
    show _ ≤ (MachineTopology.withDefaultId _ machineId).revision
    rw [withDefaultId_revision]
    exact UInt64.le_refl _
  | userMutation fenced built =>
    cases targets
    obtain ⟨middle,-,rfl⟩ := userMutationCandidate_ok built
    show _ ≤ (MachineTopology.withDefaultId _ machineId).revision
    rw [withDefaultId_revision]
    exact UInt64.le_refl _
  | refreshed _ _ =>
    cases targets with
    | refresh fence =>
      show _ ≤ (MachineTopology.withDefaultId _ machineId).revision
      rw [withDefaultId_revision,fence]
      exact advanceTo_target _ _
  | advanced _ _ _ =>
    cases targets with
    | refresh fence =>
      rw [fence]
      exact UInt64.le_refl _
  | unchanged _ reached =>
    cases targets with
    | refresh fence =>
      rw [fence] at reached
      exact reached
  | _ => cases targets

/-- A success of one operation, with what it has published. -/
theorem settled_ok {ε α : Type} {p : Op (Manager sc ρ) ε α} {m m' : Manager sc ρ} {Good : Option (Publication sc) → Prop} {a : α}
    (settled : Ensures p m (Settled (fun _ _ => True) m Good)) (returned : p m = (.ok a,m')) :
    ∃ change, Good change ∧ m'.published = m.published.after change := by
  unfold Ensures at settled
  rw [returned] at settled
  obtain ⟨change,good,followed⟩ := settled
  exact ⟨change,good,followed.published⟩

/-- Whatever comes after a check, a success has passed it. -/
theorem ensures_fact {σ ε α : Type} {Fact : Prop} (fact : Fact) (p : Op σ ε α) (s : σ) :
    Ensures p s (Outcome (fun _ _ => Fact) (fun _ _ => True)) := by
  unfold Ensures
  cases (p s).1 with
  | ok _ => exact fact
  | error _ => trivial

theorem refresh_fenced (rt : TopologyRuntime sc ρ C) (session : Bool) (request : UserRefreshRequest) (m : Manager sc ρ) :
    Ensures (refresh rt session request) m (Outcome (fun _ _ => ∀ base target, request.revision = .fence base target →
      Fenced m.published.topology base target) (fun _ _ => True)) := by
  refine Ensures.bind (ensures_beginOperation (S := fun _ _ => True) trivial session) ?_ (fun _ _ _ => trivial)
  rintro _ m' ⟨same,-⟩
  rw [same]
  split
  · exact Ensures.fail trivial
  refine Ensures.bind (ensures_guardRefresh (S := fun _ _ => True) trivial request.revision) ?_ (fun _ _ _ => trivial)
  rintro _ m' ⟨-,fenced⟩
  exact ensures_fact fenced _ _

/-- A fenced operation started from its base and has reached its target. -/
structure Lands (m m' : Manager sc ρ) (base target : UInt64) : Prop where
  base : m.published.topology.revision = base
  target : target ≤ m'.published.topology.revision

section Lands
variable {m m' : Manager sc ρ} {session : Bool} {message : String}

theorem applyDelta_lands {delta : Pb.TopologyDelta} (returned : applyDelta rt session (some delta) m = (.ok message,m')) :
    Lands m m' delta.baseRevision delta.targetRevision := by
  obtain ⟨change,admits,published⟩ := settled_ok (ensures_applyDelta (Tracks.any rt).toIdles trivial ((Tracks.any rt).apply trivial) session _) returned
  refine ⟨?_,by rw [published]; exact admits_target (.delta delta) admits⟩
  cases admits with
  | delta fenced _ => exact fenced.loaded.symm

theorem applyRoutePatch_lands {patch : Pb.TopologyRoutePatch sc} {base : UInt64}
    (returned : applyRoutePatch rt session (some patch) base m = (.ok message,m')) : Lands m m' base patch.revision := by
  obtain ⟨change,admits,published⟩ := settled_ok (ensures_applyRoutePatch (Tracks.any rt).toIdles trivial ((Tracks.any rt).apply trivial) session _ _) returned
  refine ⟨?_,by rw [published]; exact admits_target (.routePatch patch base) admits⟩
  cases admits with
  | routePatch fenced => exact fenced.loaded.symm

theorem applyOneUserMutation_lands {mutation : Pb.UserMutation} {base : UInt64}
    (returned : applyOneUserMutation rt session (some mutation) base m = (.ok message,m')) :
    Lands m m' base mutation.revision := by
  obtain ⟨change,admits,published⟩ := settled_ok (ensures_applyOneUserMutation (Tracks.any rt).toIdles trivial ((Tracks.any rt).apply trivial) session _ _) returned
  refine ⟨?_,by rw [published]; exact admits_target (.userMutation mutation base) admits⟩
  cases admits with
  | userMutation fenced _ => exact fenced.loaded.symm

theorem refresh_lands {request : UserRefreshRequest} {base target : UInt64} {changes : UserRefreshChanges}
    (fence : request.revision = .fence base target) (returned : refresh rt session request m = (.ok changes,m')) :
    Lands m m' base target := by
  obtain ⟨change,admits,published⟩ := settled_ok (ensures_refresh (Tracks.any rt).toIdles trivial ((Tracks.any rt).apply trivial) session _) returned
  have fenced := refresh_fenced rt session request m
  unfold Ensures at fenced
  rw [returned] at fenced
  exact ⟨(fenced base target fence).loaded.symm,by rw [published]; exact admits_target (.refresh fence) admits⟩

/-- An authoritative topology that was applied is the one published. -/
theorem applyAuthoritative_published {topology : MachineTopology sc} {token : UInt64}
    (returned : applyAuthoritativeIfUnchanged rt session topology token m = (.ok message,m')) :
    m'.published.topology.revision = topology.revision := by
  obtain ⟨change,admits,published⟩ := settled_ok (ensures_applyAuthoritativeIfUnchanged (Tracks.any rt).toIdles trivial ((Tracks.any rt).apply trivial) session _ _) returned
  rw [published]
  cases admits with
  | applyAuthoritative _ _ => exact withDefaultId_revision _ _

end Lands

/-! ### The invariant of an execution -/

/-- A replay is based on a revision that the panel returned, or a later one; `floor` is a lower bound of these. -/
def Loaded (floor : UInt64) : Attempt → Prop
  | .first => True
  | .replay _ base => floor ≤ base

/-- What an execution relies on between two of its steps; `current` is the published revision. -/
def Progress (target floor current : UInt64) : Phase sc → Prop
  | .apply attempt => Loaded floor attempt
  | .loadUsers attempt _ => Loaded floor attempt
  | .fetchUsers attempt _ _ => Loaded floor attempt
  | .refreshUsers attempt _ _ _ => Loaded floor attempt
  | .recover attempt _ => Loaded floor attempt
  | .recoverFetch attempt _ _ => Loaded floor attempt
  | .recoverApply attempt _ _ topology => Loaded floor attempt ∧ target ≤ topology.revision
  | .recoverRead attempt _ _ => Loaded floor attempt ∧ target ≤ current
  | .resync _ => True
  | .resyncFetch _ _ => True
  | .resyncApply _ _ topology => floor ≤ topology.revision
  | .resyncRead _ _ => floor ≤ current
  | .answered result => result.status = .applied → target ≤ current

/-- The published revision only grows under an execution. -/
theorem Progress.later {target floor current current' : UInt64} {phase : Phase sc}
    (held : Progress target floor current phase) (grown : current ≤ current') : Progress target floor current' phase := by
  cases phase with
  | recoverRead attempt cause message => exact ⟨held.1,UInt64.le_trans held.2 grown⟩
  | resyncRead cause message => exact UInt64.le_trans held grown
  | answered result => exact fun applied => UInt64.le_trans (held applied) grown
  | _ => exact held

structure Converging (machineId : String) (command : ControlCommand sc) (floor : UInt64) (s : System sc ρ) : Prop where
  manager : s.manager.machineId = machineId ∧ Named s.manager.published.topology
  same : s.execution.command = command
  progress : Progress command.revision floor s.manager.published.topology.revision s.execution.phase
  mutated : ∀ base ∈ s.execution.mutated, base = command.baseRevision ∨ floor ≤ base

/-! ### Steps of an execution -/

@[simp] theorem attempt_revision (attempt : Attempt) (command : ControlCommand sc) :
    (attempt.command command).revision = command.revision := by cases attempt <;> rfl

@[simp] theorem attempt_type (attempt : Attempt) (command : ControlCommand sc) :
    (attempt.command command).type = command.type := by cases attempt <;> rfl

theorem attempt_base {floor : UInt64} {attempt : Attempt} (loaded : Loaded floor attempt) (command : ControlCommand sc) :
    (attempt.command command).baseRevision = command.baseRevision ∨ floor ≤ (attempt.command command).baseRevision := by
  cases attempt with
  | first => exact Or.inl rfl
  | replay message base => exact Or.inr loaded

theorem failedAnswer_status (failure : ApplyFailure) : (failedAnswer failure).status ≠ .applied := by
  unfold failedAnswer
  simp only
  split <;> simp

/-- Ending an attempt moves the phase only. -/
theorem finish_same (x : Execution sc) (attempt : Attempt) (result : Except ApplyFailure String) :
    (x.finish attempt result).command = x.command ∧ (x.finish attempt result).mutated = x.mutated := by
  unfold Execution.finish
  cases attempt with
  | first =>
    cases result with
    | ok message => exact ⟨rfl,rfl⟩
    | error failure =>
      simp only
      split <;> exact ⟨rfl,rfl⟩
  | replay message base => cases result <;> exact ⟨rfl,rfl⟩

theorem finish_progress {target floor current : UInt64} (x : Execution sc) (attempt : Attempt)
    {result : Except ApplyFailure String} (reached : ∀ message, result = .ok message → target ≤ current) :
    Progress target floor current (x.finish attempt result).phase := by
  have failing (failure : ApplyFailure) : Progress target floor current (.answered (failedAnswer failure) : Phase sc) :=
    fun applied => absurd applied (failedAnswer_status failure)
  unfold Execution.finish
  cases attempt with
  | first =>
    cases result with
    | ok message => exact fun _ => reached message rfl
    | error failure =>
      simp only
      split
      · trivial
      · exact failing failure
  | replay message base =>
    cases result with
    | ok message => exact fun _ => reached message rfl
    | error failure => exact failing _

section Steps
variable {m m' : Manager sc ρ} {x : Execution sc} {attempt : Attempt} {floor : UInt64}

/-- Another phase is entered, after a call that may have published something. -/
theorem Converging.goes (held : Converging machineId command floor ⟨m,x⟩)
    (kept : m'.machineId = machineId ∧ Named m'.published.topology) {phase : Phase sc}
    (progress : Progress command.revision floor m'.published.topology.revision phase) :
    Converging machineId command floor ⟨m',{ x with phase := phase }⟩ :=
  ⟨kept,held.same,progress,held.mutated⟩

theorem Converging.ends (held : Converging machineId command floor ⟨m,x⟩)
    (kept : m'.machineId = machineId ∧ Named m'.published.topology) {result : Except ApplyFailure String}
    (reached : ∀ message, result = .ok message → command.revision ≤ m'.published.topology.revision) :
    Converging machineId command floor ⟨m',x.finish attempt result⟩ := by
  obtain ⟨command',mutated'⟩ := finish_same x attempt result
  refine ⟨kept,command'.trans held.same,finish_progress x attempt reached,?_⟩
  show ∀ base ∈ (x.finish attempt result).mutated, base = command.baseRevision ∨ floor ≤ base
  rw [mutated']
  exact held.mutated

/-- The attempt fails and nothing is published. -/
theorem Converging.fails (held : Converging machineId command floor ⟨m,x⟩) (attempt : Attempt) (failure : ApplyFailure) :
    Converging machineId command floor ⟨m,x.finish attempt (.error failure)⟩ :=
  held.ends held.manager (fun _ no => by cases no)

/-- The command's own mutation is applied to the base of the attempt. -/
theorem Converging.applies (held : Converging machineId command floor ⟨m,x⟩) (loaded : Loaded floor attempt)
    (kept : m'.machineId = machineId ∧ Named m'.published.topology)
    (lands : Lands m m' (attempt.command command).baseRevision command.revision) (message : String) :
    Converging machineId command floor
      ⟨m',{ x with mutated := x.mutated ++ [m.published.topology.revision] }.finish attempt (.ok message)⟩ := by
  have recorded : Converging machineId command floor ⟨m,{ x with mutated := x.mutated ++ [m.published.topology.revision] }⟩ := by
    refine ⟨held.manager,held.same,held.progress,?_⟩
    intro base member
    rcases List.mem_append.mp member with old | new
    · exact held.mutated base old
    · rw [List.mem_singleton.mp new,lands.base]
      exact attempt_base loaded command
  exact recorded.ends kept (fun _ _ => lands.target)

theorem Converging.mutates (held : Converging machineId command floor ⟨m,x⟩) (loaded : Loaded floor attempt)
    {call : Except TopologyError String × Manager sc ρ} (kept : call.2.machineId = machineId ∧ Named call.2.published.topology)
    (lands : ∀ message, call = (.ok message,call.2) → Lands m call.2 (attempt.command command).baseRevision command.revision) :
    Converging machineId command floor ⟨(x.mutate attempt m call).2,(x.mutate attempt m call).1⟩ := by
  obtain ⟨result,m'⟩ := call
  cases result with
  | ok message => exact held.applies loaded kept (lands message rfl) message
  | error error => exact held.ends kept (fun _ no => by cases no)

theorem applyCommand_converges (named : machineId ≠ "") (fenced : revisionFencedCommand command.type = true)
    (held : Converging machineId command floor ⟨m,x⟩) (loaded : Loaded floor attempt) (input : Input sc) :
    Converging machineId command floor ⟨(applyCommand rt x attempt input m).2,(applyCommand rt x attempt input m).1⟩ := by
  have same : x.command = command := held.same
  subst same
  have fails := held.fails attempt
  have kept (operation : Operation sc) : (operate rt ⟨operation,input.sessionCancelled⟩ m).2.machineId = machineId ∧
      Named (operate rt ⟨operation,input.sessionCancelled⟩ m).2.published.topology :=
    operate_named named held.manager ⟨operation,input.sessionCancelled⟩
  unfold applyCommand
  simp only [attempt_type,attempt_revision]
  unfold revisionFencedCommand at fenced
  split
  · exact fails _
  cases tried : ControlCommandType.tryFrom x.command.type with
  | none => exact fails _
  | some kind =>
    rw [tried] at fenced
    cases kind with
    | topologyDelta =>
      simp only
      split
      · next delta _ =>
        split
        · exact fails _
        · next agree =>
          obtain ⟨base,target⟩ := not_or.mp agree
          refine held.mutates loaded (kept (.applyDelta (some delta))) ?_
          intro message returned
          rw [not_not.mp base,not_not.mp target]
          exact applyDelta_lands returned
      · exact fails _
    | routePatch =>
      simp only
      split
      · next patch _ =>
        split
        · exact fails _
        · next agree =>
          refine held.mutates loaded (kept (.applyRoutePatch (some patch) _)) ?_
          intro message returned
          rw [not_not.mp agree]
          exact applyRoutePatch_lands returned
      · exact fails _
    | userMutation =>
      simp only
      split
      · next mutation _ =>
        split
        · exact fails _
        · next agree =>
          refine held.mutates loaded (kept (.applyUserMutation (some mutation) _)) ?_
          intro message returned
          rw [not_not.mp agree]
          exact applyOneUserMutation_lands returned
      · exact fails _
    | userRefresh =>
      simp only
      split
      · split
        · refine held.goes held.manager ?_
          exact loaded
        · exact fails _
      · refine held.goes held.manager ?_
        exact loaded
    | _ => cases fenced

/-- A resync that fails ends the execution. -/
theorem Converging.refuses (held : Converging machineId command floor ⟨m,x⟩)
    (kept : m'.machineId = machineId ∧ Named m'.published.topology) (failure : ApplyFailure) :
    Converging machineId command floor ⟨m',{ x with phase := .answered (failedAnswer failure) }⟩ :=
  held.goes kept (fun applied => absurd applied (failedAnswer_status failure))

theorem currentRevision_eq {revision : UInt64} (read : currentRevision m = some revision) :
    revision = m.published.topology.revision := by
  unfold currentRevision at read
  split at read
  · cases read
  · exact (Option.some.inj read).symm

theorem advance_converges (named : machineId ≠ "") (fenced : revisionFencedCommand command.type = true)
    (held : Converging machineId command floor ⟨m,x⟩) (input : Input sc)
    (returned : ∀ cause token topology, x.phase = .resyncFetch cause token → input.topology = .ok topology →
      floor ≤ topology.revision) :
    Converging machineId command floor ⟨(advance rt x input m).2,(advance rt x input m).1⟩ := by
  have same : x.command = command := held.same
  subst same
  have kept (operation : Operation sc) {α : Type} {call : Except TopologyError α × Manager sc ρ} {result : Except TopologyError α}
      {m' : Manager sc ρ} (returned : call = (result,m'))
      (operated : (operate rt ⟨operation,input.sessionCancelled⟩ m).2 = call.2) :
      m'.machineId = machineId ∧ Named m'.published.topology := by
    rw [returned] at operated
    rw [← show _ = m' from operated]
    exact operate_named named held.manager _
  have progress : Progress x.command.revision floor m.published.topology.revision x.phase := held.progress
  unfold advance
  cases at_phase : x.phase with
  | apply attempt =>
    rw [at_phase] at progress
    exact applyCommand_converges named fenced held progress input
  | loadUsers attempt left =>
    rw [at_phase] at progress
    cases left with
    | zero => exact held.fails _ _
    | succ left =>
      simp only
      split
      · exact held.fails _ _
      · refine held.goes held.manager ?_
        exact progress
  | fetchUsers attempt left current =>
    rw [at_phase] at progress
    simp only
    split
    · exact held.fails _ _
    · split
      · exact held.fails _ _
      · refine held.goes held.manager ?_
        exact progress
  | refreshUsers attempt left current desired =>
    rw [at_phase] at progress
    simp only [attempt_revision]
    let request : UserRefreshRequest := ⟨(attempt.command x.command).nodeId,desired,some current,
      .fence (attempt.command x.command).baseRevision x.command.revision⟩
    split
    · next changes m' returned =>
      have kept' := kept (.refresh request) returned rfl
      exact held.applies progress kept' (refresh_lands rfl returned) _
    · next error m' returned =>
      have kept' := kept (.refresh request) returned rfl
      split
      · refine held.goes kept' ?_
        exact progress
      · split
        · refine held.goes kept' ?_
          exact progress
        · exact held.ends kept' (fun _ no => by cases no)
  | recover attempt cause =>
    rw [at_phase] at progress
    refine held.goes held.manager ?_
    exact progress
  | recoverFetch attempt cause token =>
    rw [at_phase] at progress
    simp only
    split
    · exact held.fails _ _
    · split
      · exact held.fails _ _
      · split
        · exact held.fails _ _
        · next enough =>
          refine held.goes held.manager ?_
          exact ⟨progress,UInt64.not_lt.mp enough⟩
  | recoverApply attempt cause token topology =>
    rw [at_phase] at progress
    obtain ⟨loaded,enough⟩ := progress
    simp only
    split
    · next error m' returned =>
      have kept' := kept (.applyAuthoritativeIfUnchanged topology token) returned rfl
      exact held.ends kept' (fun _ no => by cases no)
    · next message m' returned =>
      have kept' := kept (.applyAuthoritativeIfUnchanged topology token) returned rfl
      refine held.goes kept' ⟨loaded,?_⟩
      rw [applyAuthoritative_published returned]
      exact enough
  | recoverRead attempt cause message =>
    rw [at_phase] at progress
    simp only
    split
    · exact held.fails _ _
    · exact held.ends held.manager (fun _ _ => progress.2)
  | resync cause =>
    refine held.goes held.manager ?_
    trivial
  | resyncFetch cause token =>
    simp only
    split
    · exact held.refuses held.manager _
    · next topology answer =>
      split
      · exact held.refuses held.manager _
      · refine held.goes held.manager ?_
        exact returned cause token topology at_phase answer
  | resyncApply cause token topology =>
    rw [at_phase] at progress
    simp only
    split
    · next error m' returned =>
      have kept' := kept (.applyAuthoritativeIfUnchanged topology token) returned rfl
      exact held.refuses kept' _
    · next message m' returned =>
      have kept' := kept (.applyAuthoritativeIfUnchanged topology token) returned rfl
      refine held.goes kept' ?_
      show floor ≤ m'.published.topology.revision
      rw [applyAuthoritative_published returned]
      exact progress
  | resyncRead cause message =>
    rw [at_phase] at progress
    simp only
    split
    · exact held.refuses held.manager _
    · next revision read =>
      have loaded := currentRevision_eq read
      split
      · next ended =>
        refine held.goes held.manager ?_
        rcases ended with unfenced | past
        · rw [fenced] at unfenced
          cases unfenced
        · intro _
          rw [← loaded]
          exact UInt64.le_of_lt past
      · split
        · exact held.refuses held.manager _
        · refine held.goes held.manager ?_
          show floor ≤ revision
          rw [loaded]
          exact progress
  | answered result => exact held

end Steps

/-! ### Runs -/

/-- The topology that the panel returns to the resync of a command is not older than the command's base. -/
def answersFromBase (s : System sc ρ) : SystemEvent sc → Bool
  | .other _ => true
  | .advance input => match s.execution.phase, input.topology with
    | .resyncFetch _ _, .ok topology => s.execution.command.baseRevision ≤ topology.revision
    | _, _ => true

/-- The status of the answer, once there is one. -/
def Phase.status : Phase sc → Option AckStatus
  | .answered result => some result.status
  | _ => none

/-- Before its first step, with nothing published. -/
def System.start (machineId : String) (runtime : ρ) (command : ControlCommand sc) : System sc ρ :=
  ⟨Manager.initial machineId runtime,Execution.start command⟩

section Runs
variable {runtime : ρ} {s s' : System sc ρ} {e : SystemEvent sc} {events : List (SystemEvent sc)} {floor : UInt64}

theorem converging_start : Converging machineId command floor (System.start machineId runtime command) :=
  ⟨⟨rfl,fun _ => rfl⟩,rfl,trivial,by simp [System.start,Execution.start]⟩

theorem systemStep_converges (named : machineId ≠ "") (fenced : revisionFencedCommand command.type = true)
    (held : Converging machineId command floor s) (taken : systemStep rt s e = some s')
    (returned : ∀ input, e = .advance input → ∀ cause token topology, s.execution.phase = .resyncFetch cause token →
      input.topology = .ok topology → floor ≤ topology.revision) : Converging machineId command floor s' := by
  cases e with
  | other call =>
    cases taken
    exact ⟨operate_named named held.manager call,held.same,held.progress.later (operate_revision held.manager.2 call),held.mutated⟩
  | advance input =>
    cases taken
    exact advance_converges named fenced held input (returned input rfl)

/-- An answer is final. -/
theorem status_later {status : AckStatus} (answered : s.execution.phase.status = some status) {later : List (SystemEvent sc)}
    (rest : Run (systemStep rt) s later s') : s'.execution.phase.status = some status := by
  refine rest.invariant (I := fun s => s.execution.phase.status = some status) answered ?_
  intro s e s' before taken
  cases e with
  | other call =>
    cases taken
    exact before
  | advance input =>
    cases taken
    show (advance rt s.execution input s.manager).1.phase.status = _
    unfold advance
    cases at_phase : s.execution.phase with
    | answered result => exact before
    | _ =>
      rw [at_phase] at before
      cases before

theorem Progress.applied {target floor current : UInt64} {phase : Phase sc} (held : Progress target floor current phase)
    (answered : phase.status = some .applied) : target ≤ current := by
  cases phase with
  | answered result => exact held (Option.some.inj answered)
  | _ => cases answered

/-- In every interleaving an applied command has its target published from then on. If what the panel returns to the resync
    is never older than the base of the command, the command's mutation is applied to no older topology either. -/
theorem applied_command_converges (rt : TopologyRuntime sc ρ C) (runtime : ρ) (named : machineId ≠ "") (fenced : revisionFencedCommand command.type = true) :
    (∀ events s, Run (systemStep rt) (System.start machineId runtime command) events s →
      s.execution.phase.status = some .applied → ∀ later s', Run (systemStep rt) s later s' →
        command.revision ≤ s'.manager.published.topology.revision) ∧
    (∀ events s, Run (guarded answersFromBase (systemStep rt)) (System.start machineId runtime command) events s →
      ∀ base ∈ s.execution.mutated, command.baseRevision ≤ base) := by
  constructor
  · intro events s run answered later s' rest
    have held : Converging machineId command 0 s' := by
      refine (run.append rest).invariant (I := Converging machineId command 0) converging_start ?_
      intro s e s' before taken
      exact systemStep_converges named fenced before taken (fun _ _ _ _ _ _ _ => UInt64.zero_le)
    exact held.progress.applied (status_later answered rest)
  · intro events s run
    have held : Converging machineId command command.baseRevision s := by
      refine run.invariant (I := Converging machineId command command.baseRevision) converging_start ?_
      intro s e s' before taken
      obtain ⟨proper,taken⟩ := guarded_eq_some.mp taken
      refine systemStep_converges named fenced before taken ?_
      rintro input rfl cause token topology waits answer
      simpa [answersFromBase,waits,answer,before.same] using proper
    intro base member
    rcases held.mutated base member with own | above
    · rw [own]
      exact UInt64.le_refl _
    · exact above

end Runs

/-! ### A resync behind the base -/

/-- A route patch from revision 5 to revision 6. -/
def patchFromFive : ControlCommand finalTags :=
  ⟨"command","operation","machine","",6,5,"key",9,some (.topologyRoutePatch ⟨"",6,[],some "proxy",none⟩)⟩

/-- Revision 3 is loaded, and the panel answers the resync of the patch with `revision`. -/
def patchResyncedAt (revision : UInt64) : List (SystemEvent finalTags) :=
  .other ⟨.applySnapshot (some { oneNode with revision := 3 }),false⟩ ::
    List.replicate 6 (.advance ⟨false,false,.ok "",.ok (fromSnapshot "machine" (some { oneNode with revision := revision })),.ok []⟩)

/-- Where these steps lead. -/
def afterResyncAt (revision : UInt64) : System finalTags Unit :=
  (follow (systemStep willing) (System.start "machine" () patchFromFive) (patchResyncedAt revision)).getD
    (System.start "machine" () patchFromFive)

theorem run_patchResyncedAt (revision : UInt64) :
    Run (systemStep willing) (System.start "machine" () patchFromFive) (patchResyncedAt revision) (afterResyncAt revision) :=
  Run.of_follow rfl

theorem patch_applied_at_its_base : (afterResyncAt 5).execution.mutated = [5] ∧
    (∀ base ∈ (afterResyncAt 5).execution.mutated, patchFromFive.baseRevision ≤ base) ∧
    patchFromFive.revision ≤ (afterResyncAt 5).manager.published.topology.revision := by
  have named : "machine" ≠ "" := by decide
  have fenced : revisionFencedCommand patchFromFive.type = true := by decide
  obtain ⟨converges,mutates⟩ := applied_command_converges willing () named fenced
  have proper : (follow (guarded answersFromBase (systemStep willing)) (System.start "machine" () patchFromFive)
      (patchResyncedAt 5)).isSome = true := by decide
  obtain ⟨s,followed⟩ := Option.isSome_iff_exists.mp proper
  have applied : (afterResyncAt 5).execution.phase.status = some .applied := by decide
  refine ⟨by decide,?_,converges _ _ (run_patchResyncedAt 5) applied [] _ .nil⟩
  have reached : afterResyncAt 5 = s := by
    unfold afterResyncAt
    rw [follow_of_guarded followed]
    rfl
  rw [reached]
  exact mutates _ s (Run.of_follow followed)

theorem patch_skips_updates_before_base :
    Run (systemStep willing) (System.start "machine" () patchFromFive) (patchResyncedAt 4) (afterResyncAt 4) ∧
    revisionFencedCommand patchFromFive.type = true ∧ (afterResyncAt 4).execution.phase.status = some .applied ∧
    (afterResyncAt 4).manager.published.topology.revision = 6 ∧
    ¬ ∀ base ∈ (afterResyncAt 4).execution.mutated, patchFromFive.baseRevision ≤ base := by
  refine ⟨run_patchResyncedAt 4,by decide,by decide,by decide,?_⟩
  intro all
  have mutated : (4 : UInt64) ∈ (afterResyncAt 4).execution.mutated := by decide
  exact absurd (all 4 mutated) (by decide)

end NodeAgent.Control
