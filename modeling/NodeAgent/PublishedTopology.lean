import NodeAgent.TopologyRuns

/-!
What holds of every published topology: its snapshot describes it, its revision never goes
back, and a failed operation leaves it as it was.
-/
namespace NodeAgent.Topology
open NodeAgent.Fallible NodeAgent.Transition

variable {sc : Sections} {ρ C : Type} {rt : TopologyRuntime sc ρ C} {m m' : Manager sc ρ} {machineId : String} {runtime : ρ}

/-! ### The snapshot describes the topology -/

/-- The topologies that callers hand to the manager: fetched from the panel, or built from a snapshot. -/
inductive Built (machineId : String) : MachineTopology sc → Prop
  | fetched {defaultId config answers topology} : defaultId = "" ∨ defaultId = machineId →
      (config.nodes.map Pb.NodeConfig.nodeId).Nodup →
      fetchConfiguredTopology defaultId config answers = .ok topology → Built machineId topology
  | snapshot {defaultId snapshot} : defaultId = "" ∨ defaultId = machineId → Built machineId (fromSnapshot defaultId snapshot)

/-- Full topologies are built as above; refreshed users come from the panel. -/
def FromBuilders (machineId : String) : Operation sc → Prop
  | .applyInitial topology => Built machineId topology
  | .applyAuthoritativeIfUnchanged topology _ => Built machineId topology
  | .reloadFrom _ _ fetched => ∀ topology, fetched = some (.ok topology) → Built machineId topology
  | .refresh request => ∀ user ∈ request.users, FromPanel user
  | _ => True

theorem Built.coherent {topology : MachineTopology sc} (built : Built machineId topology) :
    Coherent machineId (topology.withDefaultId machineId) := by
  cases built with
  | fetched known distinct fetched => exact (coherent_fetchConfiguredTopology distinct fetched).withDefaultId known
  | snapshot known => exact (coherent_fromSnapshot _).withDefaultId known

/-- A planned refresh has found its node, with the users that were expected there. -/
theorem planRefresh_ok {topology : MachineTopology sc} {request : UserRefreshRequest} {index : Nat}
    {changes : UserRefreshChanges} (planned : planRefresh topology request = .ok (index,changes)) :
    topology.nodes.findIdx? (fun node => node.nodeId = request.nodeId) = some index ∧
    expectUsers request.nodeId request.expectedCurrent (usersAt topology index) = .ok () ∧
    compareNodeUsers (usersAt topology index) request.users = .ok changes := by
  unfold planRefresh at planned
  cases found : topology.nodes.findIdx? (fun node => decide (node.nodeId = request.nodeId)) with
  | none =>
    rw [found] at planned
    cases planned
  | some place =>
    rw [found] at planned
    simp only at planned
    cases expected : expectUsers request.nodeId request.expectedCurrent (usersAt topology place) with
    | error error =>
      rw [expected] at planned
      cases planned
    | ok _ =>
      rw [expected] at planned
      cases compared : compareNodeUsers (usersAt topology place) request.users with
      | error error =>
        rw [compared] at planned
        cases planned
      | ok changes' =>
        rw [compared] at planned
        cases planned
        exact ⟨rfl,expected,compared⟩

/-- What an operation publishes is coherent when the topology it starts from is. -/
theorem admits_coherent {current : Published sc} {operation : Operation sc} {change : Option (Publication sc)}
    (coherent : Coherent machineId current.topology) (builders : FromBuilders machineId operation)
    (admits : Admits machineId current operation change) : Coherent machineId (current.after change).topology := by
  have known : machineId = "" ∨ machineId = machineId := Or.inr rfl
  cases admits with
  | applyInitial _ => exact builders.coherent
  | applyAuthoritative _ _ => exact builders.coherent
  | reload _ _ => exact (builders _ rfl).coherent
  | snapshot _ _ => exact (coherent_fromSnapshot _).withDefaultId known
  | delta _ built => exact (coherent.deltaCandidate built).withDefaultId known
  | routePatch _ => exact (coherent.routePatchCandidate _).withDefaultId known
  | userMutation _ built => exact (coherent.userMutationCandidate built).withDefaultId known
  | refreshed planned _ => exact (coherent.refreshCandidate (planRefresh_ok planned).1 builders).withDefaultId known
  | advanced _ _ _ => exact coherent.atRevision _
  | unchanged _ _ => exact coherent
  | reconcile => exact coherent
  | stop => exact coherent
  | close => exact coherent

/-- `current_digest`, for a digest function `sum` of snapshots. -/
def currentDigest (sum : Pb.TopologySnapshot sc → String) (m : Manager sc ρ) : Option String :=
  m.published.topology.snapshot.map sum

theorem run_coherent {calls : List (Call sc)} (run : Run (step rt) (Manager.initial machineId runtime) calls m)
    (builders : ∀ call ∈ calls, FromBuilders machineId call.operation) :
    m.machineId = machineId ∧ Coherent machineId m.published.topology := by
  refine run.keeps (I := fun _ m => m.machineId = machineId ∧ Coherent machineId m.published.topology)
    (fun call => FromBuilders machineId call.operation) ⟨rfl,coherent_default⟩ ?_ builders
  rintro _ m call m' ⟨same,coherent⟩ builders taken
  cases taken
  obtain ⟨id',⟨_,published'⟩ | ⟨_,change,admits,published'⟩⟩ := operate_published rt m call
  · exact ⟨id'.trans same,by rw [published']; exact coherent⟩
  · rw [same] at admits
    exact ⟨id'.trans same,by rw [published']; exact admits_coherent coherent builders admits⟩

/-- In every reachable state the snapshot describes the published topology, and so does the digest of the snapshot. -/
theorem published_snapshot_describes_topology (sum : Pb.TopologySnapshot sc → String) {calls : List (Call sc)}
    (run : Run (step rt) (Manager.initial machineId runtime) calls m)
    (builders : ∀ call ∈ calls, FromBuilders machineId call.operation) :
    (∀ snapshot, m.published.topology.snapshot = some snapshot → Describes machineId snapshot m.published.topology) ∧
    (∀ digest, currentDigest sum m = some digest →
      ∃ snapshot, digest = sum snapshot ∧ Describes machineId snapshot m.published.topology) := by
  have coherent := (run_coherent run builders).2
  refine ⟨coherent,?_⟩
  intro digest shown
  obtain ⟨snapshot,held,rfl⟩ := Option.map_eq_some_iff.mp shown
  exact ⟨snapshot,rfl,coherent snapshot held⟩

/-- Route and DNS sections of which only the final tag is kept. -/
def finalTags : Sections :=
  { RouteConfig := String, Route := String, DnsConfig := String, Dns := String, routeFrom := id, dnsFrom := id,
    decRouteConfig := inferInstance, decRoute := inferInstance, decDnsConfig := inferInstance, decDns := inferInstance }

/-- A runtime whose calls all succeed. -/
def willing : TopologyRuntime finalTags Unit Unit :=
  { apply := fun _ => pure (), closeUserConnections := fun _ _ r => r, warnings := fun _ => [], configSha256 := fun _ => "",
    reconcileCurrent := fun _ => pure (), beginClose := id, close := pure (), prepareReload := fun _ => pure (),
    configureReload := fun _ => pure (), reloadPrepared := fun _ _ => pure ⟨true,false⟩ }

def oneNode : Pb.TopologySnapshot finalTags := ⟨"",1,[⟨"node","provider",1,[],[],none⟩],[],some "direct",none⟩

def addUser : Pb.UserMutation := ⟨1,"","node",some ⟨"user","","secret",1,0,0⟩,2,false⟩

def oneUser : Pb.TopologySnapshot finalTags :=
  ⟨"",2,[⟨"node","provider",1,[],[⟨"user","","secret",1,0,0⟩],none⟩],[],some "direct",none⟩

/-- A snapshot and a mutation of one user of it. -/
def snapshotAndUser : List (Call finalTags) :=
  [⟨.applySnapshot (some oneNode),false⟩,⟨.applyUserMutation (some addUser) 1,false⟩]

/-- The manager after these two calls. -/
def withOneUser : Manager finalTags Unit :=
  (operate willing ⟨.applyUserMutation (some addUser) 1,false⟩
    (operate willing ⟨.applySnapshot (some oneNode),false⟩ (Manager.initial "machine" ())).2).2

theorem mutated_snapshot_describes_topology : withOneUser.published.topology.snapshot = some oneUser ∧
    Describes "machine" oneUser withOneUser.published.topology := by
  have run : Run (step willing) (Manager.initial "machine" ()) snapshotAndUser withOneUser := Run.of_follow rfl
  have held : withOneUser.published.topology.snapshot = some oneUser := by decide
  have builders : ∀ call ∈ snapshotAndUser, FromBuilders "machine" call.operation := by
    simp [snapshotAndUser,FromBuilders]
  exact ⟨held,(published_snapshot_describes_topology (fun _ => "") run builders).1 oneUser held⟩

/-! ### Revisions and generations -/

/-- Nothing was published yet, or the topology has a machine ID. -/
def Named (topology : MachineTopology sc) : Prop := topology.machineId = "" → topology = MachineTopology.default

theorem withDefaultId_named (named : machineId ≠ "") (topology : MachineTopology sc) :
    (topology.withDefaultId machineId).machineId ≠ "" := by
  unfold MachineTopology.withDefaultId
  split
  · exact named
  · assumption

theorem admits_named (named : machineId ≠ "") {current : Published sc} {operation : Operation sc}
    {change : Option (Publication sc)} (before : Named current.topology) (admits : Admits machineId current operation change) :
    Named (current.after change).topology := by
  have replaced (topology : MachineTopology sc) : Named (topology.withDefaultId machineId) :=
    fun unnamed => absurd unnamed (withDefaultId_named named topology)
  cases admits with
  | advanced planned _ _ =>
    intro unnamed
    -- A refresh has found a node, so the topology is not the initial one.
    have default : current.topology = MachineTopology.default := before unnamed
    have found := (planRefresh_ok planned).1
    rw [default] at found
    cases found
  | unchanged _ _ => exact before
  | reconcile => exact before
  | stop => exact before
  | close => exact before
  | _ => exact replaced _

theorem advanceTo_revision (topology : MachineTopology sc) (target : UInt64) :
    topology.revision ≤ (topology.advanceTo target).revision := by
  unfold MachineTopology.advanceTo
  split
  · next ahead => exact UInt64.le_of_lt ahead
  · exact UInt64.le_refl _

/-- What an operation publishes is not behind. -/
theorem admits_revision {current : Published sc} {operation : Operation sc} {change : Option (Publication sc)}
    (before : Named current.topology) (admits : Admits machineId current operation change) :
    current.topology.revision ≤ (current.after change).topology.revision := by
  have full {topology : MachineTopology sc} (authoritative : Authoritative current.topology topology.revision) :
      current.topology.revision ≤ (topology.withDefaultId machineId).revision := by
    rw [withDefaultId_revision]
    rcases authoritative with unnamed | zero | ahead
    · rw [before unnamed]
      exact UInt64.zero_le
    · rw [zero]
      exact UInt64.zero_le
    · exact ahead
  have fence {base target : UInt64} (fenced : Fenced current.topology base target) : current.topology.revision ≤ target := by
    rw [← fenced.loaded]
    exact fenced.ahead
  cases admits with
  | applyInitial authoritative => exact full authoritative
  | applyAuthoritative authoritative _ => exact full authoritative
  | reload authoritative _ => exact full authoritative
  | @snapshot snapshot _ ahead =>
    show _ ≤ ((fromSnapshot machineId (some snapshot)).withDefaultId machineId).revision
    rw [withDefaultId_revision,fromSnapshot,withDefaultId_revision]
    exact ahead
  | @delta delta next fenced built =>
    obtain ⟨middle,-,rfl⟩ := deltaCandidate_ok (P := fun _ => True) (fun _ _ _ => trivial) (fun _ _ _ _ _ => trivial) trivial built
    show _ ≤ (MachineTopology.withDefaultId _ machineId).revision
    rw [withDefaultId_revision]
    exact fence fenced
  | routePatch fenced =>
    show _ ≤ (MachineTopology.withDefaultId _ machineId).revision
    rw [withDefaultId_revision]
    exact fence fenced
  | userMutation fenced built =>
    obtain ⟨middle,-,rfl⟩ := userMutationCandidate_ok built
    show _ ≤ (MachineTopology.withDefaultId _ machineId).revision
    rw [withDefaultId_revision]
    exact fence fenced
  | refreshed _ _ =>
    show _ ≤ (MachineTopology.withDefaultId _ machineId).revision
    rw [withDefaultId_revision]
    exact advanceTo_revision _ _
  | advanced _ _ ahead => exact UInt64.le_of_lt ahead
  | unchanged _ _ => exact UInt64.le_refl _
  | reconcile => exact UInt64.le_refl _
  | stop => exact UInt64.le_refl _
  | close => exact UInt64.le_refl _

/-- The published value was replaced, once. -/
def Replaced (before after : Published sc) : Prop := after.history = before.history ++ [.replaced after.topology]

/-- One step of the published topology: nothing happens, or the generation advances with a replacement or a higher revision. -/
theorem admits_generation {current : Published sc} {operation : Operation sc} {change : Option (Publication sc)}
    (admits : Admits machineId current operation change) : change = none ∨
      ((current.after change).generation = current.generation + 1 ∧
        (Replaced current (current.after change) ∨ current.topology.revision < (current.after change).topology.revision)) := by
  cases admits with
  | advanced _ _ ahead => exact Or.inr ⟨rfl,Or.inr ahead⟩
  | unchanged _ _ => exact Or.inl rfl
  | reconcile => exact Or.inl rfl
  | stop => exact Or.inl rfl
  | close => exact Or.inl rfl
  | _ => exact Or.inr ⟨rfl,Or.inl rfl⟩

/-- What every operation keeps of a manager with an ID. -/
theorem operate_named (named : machineId ≠ "") (before : m.machineId = machineId ∧ Named m.published.topology)
    (call : Call sc) : (operate rt call m).2.machineId = machineId ∧ Named (operate rt call m).2.published.topology := by
  obtain ⟨same,before⟩ := before
  obtain ⟨id',⟨_,published'⟩ | ⟨_,change,admits,published'⟩⟩ := operate_published rt m call
  · exact ⟨id'.trans same,by rw [published']; exact before⟩
  · rw [same] at admits
    exact ⟨id'.trans same,by rw [published']; exact admits_named named before admits⟩

theorem run_named (named : machineId ≠ "") {calls : List (Call sc)}
    (run : Run (step rt) (Manager.initial machineId runtime) calls m) :
    m.machineId = machineId ∧ Named m.published.topology := by
  refine run.invariant (I := fun m => m.machineId = machineId ∧ Named m.published.topology) ⟨rfl,fun _ => rfl⟩ ?_
  intro m call m' before taken
  cases taken
  exact operate_named named before call

theorem operate_revision (before : Named m.published.topology) (call : Call sc) :
    m.published.topology.revision ≤ (operate rt call m).2.published.topology.revision := by
  obtain ⟨-,⟨_,published'⟩ | ⟨_,change,admits,published'⟩⟩ := operate_published rt m call
  · rw [published']
    exact UInt64.le_refl _
  · rw [published']
    exact admits_revision before admits

/-- The revision never goes back over the rest of a run. -/
theorem later_revision (named : machineId ≠ "") (before : m.machineId = machineId ∧ Named m.published.topology)
    {later : List (Call sc)} (rest : Run (step rt) m later m') :
    m.published.topology.revision ≤ m'.published.topology.revision := by
  have held := rest.invariant (I := fun m' => (m'.machineId = machineId ∧ Named m'.published.topology) ∧
    m.published.topology.revision ≤ m'.published.topology.revision) ⟨before,UInt64.le_refl _⟩ ?_
  · exact held.2
  · rintro m₁ call m₂ ⟨before₁,ahead⟩ taken
    cases taken
    exact ⟨operate_named named before₁ call,UInt64.le_trans ahead (operate_revision before₁.2 call)⟩

/-- The published value was replaced or its revision changed. -/
def Changed (before after : Published sc) : Prop :=
  Replaced before after ∨ after.topology.revision ≠ before.topology.revision

theorem not_changed_self (published : Published sc) : ¬Changed published published := by
  rintro (replaced | moved)
  · have lengths := congrArg List.length replaced
    simp at lengths
  · exact moved rfl

/-- The generation after an operation that changed what is published is the next one; after any other it is the same. -/
theorem operate_generation (rt : TopologyRuntime sc ρ C) (m : Manager sc ρ) (call : Call sc) :
    (Changed m.published (operate rt call m).2.published ∧
      (operate rt call m).2.published.generation = m.published.generation + 1) ∨
    (operate rt call m).2.published = m.published := by
  obtain ⟨-,⟨_,published'⟩ | ⟨_,change,admits,published'⟩⟩ := operate_published rt m call
  · exact Or.inr published'
  · rcases admits_generation admits with rfl | ⟨advanced,moved⟩
    · exact Or.inr published'
    · rw [published']
      refine Or.inl ⟨moved.imp id ?_,advanced⟩
      intro ahead same
      rw [same] at ahead
      exact UInt64.lt_irrefl _ ahead

/-- In every run the revision never goes back, the generation advances exactly with a replacement or a change of the
    revision, and a failed operation leaves the published topology as it was. -/
theorem publication_monotone_and_atomic (named : machineId ≠ "") {calls : List (Call sc)}
    (run : Run (step rt) (Manager.initial machineId runtime) calls m) :
    (∀ later m', Run (step rt) m later m' → m.published.topology.revision ≤ m'.published.topology.revision) ∧
    ∀ call response m', operate rt call m = (response,m') →
      (m'.published.generation ≠ m.published.generation ↔ Changed m.published m'.published) ∧
      (Changed m.published m'.published → m'.published.generation = m.published.generation + 1) ∧
      (response.failed = true → m'.published = m.published) := by
  refine ⟨fun _ _ rest => later_revision named (run_named named run) rest,?_⟩
  intro call response m' operated
  have responded : (operate rt call m).1 = response := by rw [operated]
  have reached : (operate rt call m).2 = m' := by rw [operated]
  have generation := operate_generation rt m call
  rw [reached] at generation
  refine ⟨?_,?_,?_⟩
  · rcases generation with ⟨changed,advanced⟩ | same
    · refine ⟨fun _ => changed,fun _ => ?_⟩
      rw [advanced]
      simp
    · rw [same]
      exact ⟨fun moved => absurd rfl moved,fun changed => absurd changed (not_changed_self _)⟩
  · intro changed
    rcases generation with ⟨_,advanced⟩ | same
    · exact advanced
    · rw [same] at changed
      exact absurd changed (not_changed_self _)
  · intro failed
    obtain ⟨-,⟨_,published'⟩ | ⟨succeeded,_⟩⟩ := operate_published rt m call
    · rw [← reached]
      exact published'
    · rw [responded,failed] at succeeded
      cases succeeded

theorem refused_delta_leaves_published : "machine" ≠ "" ∧
    (operate willing ⟨.applyDelta (some ⟨1,3,[],[]⟩),false⟩ withOneUser).2.published = withOneUser.published := by
  have run : Run (step willing) (Manager.initial "machine" ()) snapshotAndUser withOneUser := Run.of_follow rfl
  have facts := (publication_monotone_and_atomic (by decide) run).2 ⟨.applyDelta (some ⟨1,3,[],[]⟩),false⟩ _ _ rfl
  exact ⟨by decide,facts.2.2 (by decide)⟩

end NodeAgent.Topology
