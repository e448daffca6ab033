import NodeAgent.Topology

/-!
The mutations of the model, each beside its twin on the snapshot, and the candidates that
the topology manager builds with them. A topology is coherent when it is the image of its
snapshot; every candidate that is built from a coherent topology is coherent again.
-/
namespace NodeAgent.Topology

inductive TopologyErrorKind
  | staleRevision
  | revisionMismatch
  | usersChangedDuringRefresh
  | invalidMutation
  | runtime
deriving DecidableEq

structure TopologyError where
  kind : TopologyErrorKind
  message : String
  rolledBack : Bool
  running : Bool
  rollbackStage : Bool
deriving DecidableEq

/-- `TopologyError::new`. -/
def TopologyError.ofKind (kind : TopologyErrorKind) (message : String) : TopologyError := ⟨kind,message,false,true,false⟩

def TopologyError.runtime (message : String) (rolledBack : Bool) : TopologyError :=
  ⟨.runtime,message,rolledBack,true,rolledBack⟩

def TopologyError.runtimeState (message : String) (rolledBack running : Bool) : TopologyError :=
  ⟨.runtime,message,rolledBack,running,rolledBack⟩

def TopologyError.withRollbackStage (error : TopologyError) : TopologyError := { error with rollbackStage := true }

def TopologyError.revisionRecoveryRequired (error : TopologyError) : Bool :=
  error.kind = .staleRevision ∨ error.kind = .revisionMismatch

variable {sc : Sections}

/-! ### Mutations of the model -/

/-- The node that an upsert puts in. -/
def nodeReplacement (mutation : Pb.NodeMutation) : NodeInstance :=
  let node := (mutation.node.map NodeInstance.ofTopology).getD NodeInstance.default
  if node.nodeId = "" then { node with nodeId := mutation.target } else node

def applyNodeMutation (topology : MachineTopology sc) (mutation : Pb.NodeMutation) : MachineTopology sc :=
  if mutation.target = "" then topology
  else match Pb.MutationOperation.tryFrom mutation.operation with
    | .delete | .disable => { topology with nodes := topology.nodes.filter (fun node => node.nodeId ≠ mutation.target) }
    | .unspecified | .upsert =>
      { topology with
        nodes := replaceOrPush (fun node => node.nodeId = mutation.target) (nodeReplacement mutation) topology.nodes }

/-- The users of a node after a mutation of one of them. -/
def mutateUsers (mutation : Pb.UserMutation) (user : Pb.UserCredential) (users : List UserCredential) :
    List UserCredential :=
  let operation := Pb.MutationOperation.tryFrom mutation.operation
  let replacement := UserCredential.ofPb user
  if operation = .delete ∨ operation = .disable ∨ replacement.status = "disabled" then
    users.filter (fun candidate => candidate.userId ≠ user.userId)
  else replaceOrPush (fun candidate => candidate.userId = user.userId) replacement users

def applyUserMutation (topology : MachineTopology sc) (mutation : Pb.UserMutation) :
    Except TopologyError (MachineTopology sc) :=
  if mutation.nodeId = "" then .error (.ofKind .invalidMutation "user mutation requires node_id")
  else match mutation.user with
    | none => .error (.ofKind .invalidMutation "user mutation requires user.user_id")
    | some user =>
      if user.userId = "" then .error (.ofKind .invalidMutation "user mutation requires user.user_id")
      else match changeFirst (fun node => node.nodeId = mutation.nodeId)
          (fun node => { node with users := mutateUsers mutation user node.users }) topology.nodes with
        | none => .error (.ofKind .invalidMutation s!"node {mutation.nodeId} not found for user mutation")
        | some nodes => .ok { topology with nodes := nodes }

/-! ### Candidates -/

/-- One turn of the first loop of `apply_delta`. -/
def mutateNode (next : MachineTopology sc) (mutation : Pb.NodeMutation) : MachineTopology sc :=
  applyNodeMutationToSnapshot (applyNodeMutation next mutation) mutation

/-- One turn of the second loop of `apply_delta`. -/
def mutateUser (next : MachineTopology sc) (mutation : Pb.UserMutation) : Except TopologyError (MachineTopology sc) :=
  (applyUserMutation next mutation).map (applyUserMutationToSnapshot · mutation)

/-- A topology and its snapshot at another revision. -/
def MachineTopology.atRevision (topology : MachineTopology sc) (revision : UInt64) : MachineTopology sc :=
  setSnapshotRevision { topology with revision := revision } revision

def deltaCandidate (machineId : String) (current : MachineTopology sc) (delta : Pb.TopologyDelta) :
    Except TopologyError (MachineTopology sc) :=
  let next := delta.nodeMutations.foldl mutateNode (current.withDefaultId machineId)
  (delta.userMutations.foldlM mutateUser next).map (fun next => next.atRevision delta.targetRevision)

def routePatchCandidate (machineId : String) (current : MachineTopology sc) (patch : Pb.TopologyRoutePatch sc) :
    MachineTopology sc :=
  let next := current.withDefaultId machineId
  let next := { next with
    machineId := if patch.machineId ≠ "" then patch.machineId else next.machineId
    outbounds := patch.outbounds.map Outbound.ofConfig
    route := patch.route.map sc.routeFrom
    dns := patch.dns.map sc.dnsFrom }
  { applyRoutePatchToSnapshot next patch with revision := patch.revision }

def userMutationCandidate (machineId : String) (current : MachineTopology sc) (mutation : Pb.UserMutation) :
    Except TopologyError (MachineTopology sc) :=
  (mutateUser (current.withDefaultId machineId) mutation).map (fun next => next.atRevision mutation.revision)

/-- The topology with the users of the node at `index` replaced, on both sides. -/
def withNodeUsers (topology : MachineTopology sc) (nodeId : String) (index : Nat) (users : List UserCredential) :
    MachineTopology sc :=
  let next := replaceNodeUsers topology nodeId users
  { next with nodes := next.nodes.modify index (fun node => { node with users := users }) }

/-- A target of zero, or one that is not ahead, leaves the revision as it is. -/
def MachineTopology.advanceTo (topology : MachineTopology sc) (target : UInt64) : MachineTopology sc :=
  if topology.revision < target then topology.atRevision target else topology

def refreshCandidate (current : MachineTopology sc) (nodeId : String) (index : Nat) (users : List UserCredential)
    (target : UInt64) : MachineTopology sc := withNodeUsers (current.advanceTo target) nodeId index users

/-! ### Coherence -/

/-- The topology is the image of the snapshot. -/
structure Describes (defaultId : String) (snapshot : Pb.TopologySnapshot sc) (topology : MachineTopology sc) : Prop where
  revision : topology.revision = snapshot.revision
  nodes : topology.nodes = snapshot.nodes.map NodeInstance.ofTopology
  outbounds : topology.outbounds = snapshot.outbounds.map Outbound.ofConfig
  route : topology.route = snapshot.route.map sc.routeFrom
  dns : topology.dns = snapshot.dns.map sc.dnsFrom
  machineId : topology.machineId = if snapshot.machineId = "" then defaultId else snapshot.machineId

/-- The snapshot of a topology, when it has one, describes it. -/
def Coherent (defaultId : String) (topology : MachineTopology sc) : Prop :=
  ∀ snapshot, topology.snapshot = some snapshot → Describes defaultId snapshot topology

variable {defaultId : String} {topology next : MachineTopology sc}

/-- Twin changes of a topology and of its snapshot. -/
theorem Coherent.twin {f : Pb.TopologySnapshot sc → Pb.TopologySnapshot sc} (coherent : Coherent defaultId topology)
    (snapshots : next.snapshot = topology.snapshot.map f)
    (describes : ∀ snapshot, Describes defaultId snapshot topology → Describes defaultId (f snapshot) next) :
    Coherent defaultId next := by
  intro after held
  rw [snapshots] at held
  obtain ⟨before,stored,rfl⟩ := Option.map_eq_some_iff.mp held
  exact describes before (coherent before stored)

theorem coherent_default : Coherent defaultId (MachineTopology.default : MachineTopology sc) := by
  intro snapshot held
  cases held

/-- A topology that was built without a default ID, or with the right one, is coherent once the ID is filled in. -/
theorem Coherent.withDefaultId {built : String} (coherent : Coherent built topology)
    (known : built = "" ∨ built = defaultId) : Coherent defaultId (topology.withDefaultId defaultId) := by
  intro snapshot held
  unfold MachineTopology.withDefaultId at held ⊢
  by_cases unnamed : topology.machineId = ""
  · rw [if_pos unnamed] at held ⊢
    have described := coherent snapshot held
    refine ⟨described.revision,described.nodes,described.outbounds,described.route,described.dns,?_⟩
    have same := described.machineId
    show defaultId = _
    by_cases empty : snapshot.machineId = ""
    · rw [if_pos empty]
    · rw [if_neg empty,unnamed] at same
      exact absurd same.symm empty
  · rw [if_neg unnamed] at held ⊢
    have described := coherent snapshot held
    refine ⟨described.revision,described.nodes,described.outbounds,described.route,described.dns,?_⟩
    rw [described.machineId]
    by_cases empty : snapshot.machineId = ""
    · have same := described.machineId
      rw [if_pos empty] at same
      rcases known with rfl | rfl
      · exact absurd same unnamed
      · rfl
    · rw [if_neg empty,if_neg empty]

theorem coherent_fromSnapshot (snapshot : Option (Pb.TopologySnapshot sc)) :
    Coherent defaultId (fromSnapshot defaultId snapshot) := by
  cases snapshot with
  | none =>
    intro snapshot held
    cases held
  | some snapshot =>
    suffices plain : Coherent "" _ from plain.withDefaultId (Or.inl rfl)
    intro held same
    cases same
    refine ⟨rfl,rfl,rfl,rfl,rfl,?_⟩
    split
    · assumption
    · rfl

theorem coherent_fromMachineConfig (config : Option (Pb.MachineConfig sc)) :
    Coherent defaultId (fromMachineConfig defaultId config) := by
  cases config with
  | none =>
    intro snapshot held
    cases held
  | some config =>
    suffices plain : Coherent "" _ from plain.withDefaultId (Or.inl rfl)
    intro held same
    cases same
    refine ⟨rfl,?_,rfl,rfl,rfl,?_⟩
    · simp only [List.map_map]
      rfl
    · show config.machineId = _
      split
      · assumption
      · rfl

/-! ### Twins -/

@[simp] theorem ofTopology_nodeId (node : Pb.NodeTopology) : (NodeInstance.ofTopology node).nodeId = node.nodeId := rfl

@[simp] theorem ofPb_userId (user : Pb.UserCredential) : (UserCredential.ofPb user).userId = user.userId := rfl

/-- The replacement on the model side is the image of the one on the snapshot side. -/
theorem nodeReplacement_eq (mutation : Pb.NodeMutation) :
    nodeReplacement mutation = NodeInstance.ofTopology mutation.replacement := by
  unfold nodeReplacement Pb.NodeMutation.replacement
  cases mutation.node with
  | none =>
    show NodeInstance.ofTopology { Pb.NodeTopology.default with nodeId := mutation.target } = _
    simp only [Option.getD_none]
    split <;> rfl
  | some node =>
    show (if node.nodeId = "" then { NodeInstance.ofTopology node with nodeId := mutation.target }
      else NodeInstance.ofTopology node) =
      NodeInstance.ofTopology (if node.nodeId = "" then { node with nodeId := mutation.target } else node)
    split <;> rfl

/-- Whatever else a mutation of the nodes leaves alone. -/
theorem Describes.nodes_changed {before : Pb.TopologySnapshot sc} (after : Pb.TopologySnapshot sc)
    {nodes : List NodeInstance} (described : Describes defaultId before topology) (images : nodes = after.nodes.map NodeInstance.ofTopology)
    (rest : after = { before with nodes := after.nodes }) : Describes defaultId after { topology with nodes := nodes } := by
  rw [rest]
  exact ⟨described.revision,images,described.outbounds,described.route,described.dns,described.machineId⟩

/-- The snapshot a topology carries is not part of what is described. -/
theorem Describes.carrying {snapshot : Pb.TopologySnapshot sc} (described : Describes defaultId snapshot topology)
    (carried : Option (Pb.TopologySnapshot sc)) : Describes defaultId snapshot { topology with snapshot := carried } :=
  ⟨described.revision,described.nodes,described.outbounds,described.route,described.dns,described.machineId⟩

theorem Describes.mutateNode {snapshot : Pb.TopologySnapshot sc} (described : Describes defaultId snapshot topology)
    (mutation : Pb.NodeMutation) :
    Describes defaultId (snapshot.mutateNode mutation) (applyNodeMutation topology mutation) := by
  have named (node : Pb.NodeTopology) : decide ((NodeInstance.ofTopology node).nodeId = mutation.target) =
      decide (node.nodeId = mutation.target) := rfl
  have unnamed (node : Pb.NodeTopology) : decide ((NodeInstance.ofTopology node).nodeId ≠ mutation.target) =
      decide (node.nodeId ≠ mutation.target) := rfl
  unfold Pb.TopologySnapshot.mutateNode applyNodeMutation
  split
  · exact described
  · cases Pb.MutationOperation.tryFrom mutation.operation with
    | delete =>
      refine described.nodes_changed _ ?_ rfl
      rw [described.nodes]
      exact filter_map_of_tests unnamed snapshot.nodes
    | disable =>
      refine described.nodes_changed _ ?_ rfl
      rw [described.nodes]
      exact filter_map_of_tests unnamed snapshot.nodes
    | unspecified =>
      refine described.nodes_changed _ ?_ rfl
      rw [described.nodes,nodeReplacement_eq]
      exact replaceOrPush_map named mutation.replacement snapshot.nodes
    | upsert =>
      refine described.nodes_changed _ ?_ rfl
      rw [described.nodes,nodeReplacement_eq]
      exact replaceOrPush_map named mutation.replacement snapshot.nodes

theorem Coherent.mutateNode (coherent : Coherent defaultId topology) (mutation : Pb.NodeMutation) :
    Coherent defaultId (mutateNode topology mutation) := by
  refine coherent.twin (f := fun snapshot => snapshot.mutateNode mutation) ?_ ?_
  · show (applyNodeMutation topology mutation).snapshot.map _ = _
    congr 1
    unfold applyNodeMutation
    split
    · rfl
    · cases Pb.MutationOperation.tryFrom mutation.operation <;> rfl
  · intro snapshot described
    exact (described.mutateNode mutation).carrying _

theorem status_disabled (user : Pb.UserCredential) :
    (UserCredential.ofPb user).status = "disabled" ↔ Pb.UserStatus.tryFrom user.status = .disabled := by
  unfold UserCredential.ofPb
  constructor
  · intro same
    by_contra enabled
    simp [enabled] at same
  · intro disabled
    simp [disabled]

theorem mutateUsers_map (mutation : Pb.UserMutation) (user : Pb.UserCredential) (users : List Pb.UserCredential) :
    mutateUsers mutation user (users.map UserCredential.ofPb) =
      (Pb.mutateUsers mutation user users).map UserCredential.ofPb := by
  have named (candidate : Pb.UserCredential) : decide ((UserCredential.ofPb candidate).userId = user.userId) =
      decide (candidate.userId = user.userId) := rfl
  have unnamed (candidate : Pb.UserCredential) : decide ((UserCredential.ofPb candidate).userId ≠ user.userId) =
      decide (candidate.userId ≠ user.userId) := rfl
  unfold mutateUsers Pb.mutateUsers
  simp only [status_disabled]
  split
  · exact filter_map_of_tests unnamed users
  · exact replaceOrPush_map named user users

theorem Coherent.mutateUser (coherent : Coherent defaultId topology) {mutation : Pb.UserMutation}
    (mutated : mutateUser topology mutation = .ok next) : Coherent defaultId next := by
  unfold Topology.mutateUser applyUserMutation at mutated
  by_cases anonymous : mutation.nodeId = ""
  · simp [anonymous,Except.map] at mutated
  rw [if_neg anonymous] at mutated
  cases given : mutation.user with
  | none => simp [given,Except.map] at mutated
  | some user =>
    simp only [given] at mutated
    by_cases unnamed : user.userId = ""
    · simp [unnamed,Except.map] at mutated
    rw [if_neg unnamed] at mutated
    cases found : changeFirst (fun node => decide (node.nodeId = mutation.nodeId))
        (fun node => { node with users := mutateUsers mutation user node.users }) topology.nodes with
    | none => simp [found,Except.map] at mutated
    | some nodes =>
      simp only [found,Except.map,Except.ok.injEq] at mutated
      subst mutated
      refine coherent.twin (f := fun snapshot => snapshot.mutateUser mutation) rfl ?_
      intro snapshot described
      -- The first node of that ID is at the same place on both sides.
      have twins := changeFirst_map (fun node : Pb.NodeTopology => decide (node.nodeId = mutation.nodeId))
        (fun node : NodeInstance => decide (node.nodeId = mutation.nodeId))
        (fun node => { node with users := Pb.mutateUsers mutation user node.users })
        (fun node => { node with users := mutateUsers mutation user node.users }) NodeInstance.ofTopology (fun _ => rfl)
        (fun node => by simp only [NodeInstance.ofTopology,mutateUsers_map]) snapshot.nodes
      rw [← described.nodes,found] at twins
      obtain ⟨changed,there,images⟩ := Option.map_eq_some_iff.mp twins.symm
      have after : snapshot.mutateUser mutation = { snapshot with nodes := changed } := by
        simp only [Pb.TopologySnapshot.mutateUser,given,Pb.TopologySnapshot.changeNode,there,Option.getD_some]
      show Describes defaultId (snapshot.mutateUser mutation) _
      rw [after]
      exact (described.nodes_changed { snapshot with nodes := changed } images.symm rfl).carrying _

theorem Coherent.atRevision (coherent : Coherent defaultId topology) (revision : UInt64) :
    Coherent defaultId (topology.atRevision revision) := by
  refine coherent.twin (f := fun snapshot => { snapshot with revision := revision }) rfl ?_
  intro snapshot described
  exact ⟨rfl,described.nodes,described.outbounds,described.route,described.dns,described.machineId⟩

theorem foldl_mutateNode {P : MachineTopology sc → Prop} (keep : ∀ topology mutation, P topology → P (mutateNode topology mutation))
    (mutations : List Pb.NodeMutation) (start : P topology) : P (mutations.foldl mutateNode topology) := by
  induction mutations generalizing topology with
  | nil => exact start
  | cons mutation rest ih => exact ih (keep topology mutation start)

theorem foldlM_mutateUser {P : MachineTopology sc → Prop}
    (keep : ∀ topology mutation next, P topology → mutateUser topology mutation = .ok next → P next)
    {mutations : List Pb.UserMutation} (start : P topology) (done : mutations.foldlM mutateUser topology = .ok next) : P next := by
  induction mutations generalizing topology with
  | nil =>
    cases done
    exact start
  | cons mutation rest ih =>
    rw [List.foldlM_cons] at done
    cases first : mutateUser topology mutation with
    | error e =>
      rw [first] at done
      cases done
    | ok middle =>
      rw [first] at done
      exact ih (keep topology mutation middle start first) done

/-- What every mutation keeps holds of a delta's candidate before it gets its revision. -/
theorem deltaCandidate_ok {P : MachineTopology sc → Prop} {machineId : String} {delta : Pb.TopologyDelta}
    (node : ∀ topology mutation, P topology → P (mutateNode topology mutation))
    (user : ∀ topology mutation next, P topology → mutateUser topology mutation = .ok next → P next)
    (start : P (topology.withDefaultId machineId)) (built : deltaCandidate machineId topology delta = .ok next) :
    ∃ middle, P middle ∧ next = middle.atRevision delta.targetRevision := by
  unfold deltaCandidate at built
  cases mutated : delta.userMutations.foldlM mutateUser
      (delta.nodeMutations.foldl mutateNode (topology.withDefaultId machineId)) with
  | error e => simp [mutated,Except.map] at built
  | ok middle =>
    simp only [mutated,Except.map,Except.ok.injEq] at built
    exact ⟨middle,foldlM_mutateUser user (foldl_mutateNode node _ start) mutated,built.symm⟩

theorem userMutationCandidate_ok {machineId : String} {mutation : Pb.UserMutation}
    (built : userMutationCandidate machineId topology mutation = .ok next) :
    ∃ middle, mutateUser (topology.withDefaultId machineId) mutation = .ok middle ∧ next = middle.atRevision mutation.revision := by
  unfold userMutationCandidate at built
  cases mutated : mutateUser (topology.withDefaultId machineId) mutation with
  | error e => simp [mutated,Except.map] at built
  | ok middle =>
    simp only [mutated,Except.map,Except.ok.injEq] at built
    exact ⟨middle,rfl,built.symm⟩

theorem Coherent.deltaCandidate (coherent : Coherent defaultId topology) {delta : Pb.TopologyDelta}
    (built : deltaCandidate defaultId topology delta = .ok next) : Coherent defaultId next := by
  obtain ⟨middle,held,rfl⟩ := deltaCandidate_ok (P := Coherent defaultId) (fun _ mutation held => held.mutateNode mutation)
    (fun _ _ _ held mutated => held.mutateUser mutated) (coherent.withDefaultId (Or.inr rfl)) built
  exact held.atRevision _

theorem Coherent.userMutationCandidate (coherent : Coherent defaultId topology) {mutation : Pb.UserMutation}
    (built : userMutationCandidate defaultId topology mutation = .ok next) : Coherent defaultId next := by
  obtain ⟨middle,mutated,rfl⟩ := userMutationCandidate_ok built
  exact ((coherent.withDefaultId (Or.inr rfl)).mutateUser mutated).atRevision _

theorem Coherent.routePatchCandidate (coherent : Coherent defaultId topology) (patch : Pb.TopologyRoutePatch sc) :
    Coherent defaultId (routePatchCandidate defaultId topology patch) := by
  have named := coherent.withDefaultId (Or.inr rfl)
  refine named.twin (f := fun snapshot => snapshot.patchRoute patch) rfl ?_
  intro snapshot described
  refine ⟨rfl,described.nodes,rfl,rfl,rfl,?_⟩
  show (if patch.machineId ≠ "" then patch.machineId else (topology.withDefaultId defaultId).machineId) =
    if (if patch.machineId ≠ "" then patch.machineId else snapshot.machineId) = "" then defaultId
    else (if patch.machineId ≠ "" then patch.machineId else snapshot.machineId)
  by_cases given : patch.machineId = ""
  · simp only [given,ne_eq,not_true_eq_false,if_false]
    exact described.machineId
  · simp [given]

/-! ### Users of one node -/

/-- Users that the panel sent come back unchanged from the wire. -/
theorem ofPb_toPb_ofPb (user : Pb.UserCredential) :
    UserCredential.ofPb (UserCredential.toPb (UserCredential.ofPb user)) = UserCredential.ofPb user := by
  by_cases disabled : Pb.UserStatus.tryFrom user.status = .disabled
  · simp only [UserCredential.ofPb,UserCredential.toPb,disabled]
    rfl
  · simp only [UserCredential.ofPb,UserCredential.toPb,disabled]
    rfl

/-- A user record that `UserCredential::from` made of a message. -/
def FromPanel (user : UserCredential) : Prop := ∃ message : Pb.UserCredential, user = UserCredential.ofPb message

theorem map_toPb_of_fromPanel {users : List UserCredential} (sent : ∀ user ∈ users, FromPanel user) :
    (users.map UserCredential.toPb).map UserCredential.ofPb = users := by
  rw [List.map_map]
  conv_rhs => rw [← List.map_id users]
  apply List.map_congr_left
  intro user member
  obtain ⟨message,rfl⟩ := sent user member
  exact ofPb_toPb_ofPb message

/-- The users of the first node of an ID replaced at its place on both sides. -/
theorem Describes.replaceNodeUsers {snapshot : Pb.TopologySnapshot sc} {nodeId : String} {index : Nat}
    {users : List UserCredential} (described : Describes defaultId snapshot topology)
    (first : topology.nodes.findIdx? (fun node => node.nodeId = nodeId) = some index)
    (sent : ∀ user ∈ users, FromPanel user) :
    Describes defaultId (snapshot.replaceNodeUsers nodeId users)
      { topology with nodes := topology.nodes.modify index (fun node => { node with users := users }) } := by
  have twins := changeFirst_map (fun node : Pb.NodeTopology => decide (node.nodeId = nodeId))
    (fun node : NodeInstance => decide (node.nodeId = nodeId))
    (fun node => { node with users := users.map UserCredential.toPb })
    (fun node => { node with users := users }) NodeInstance.ofTopology (fun _ => rfl)
    (fun node => by simp only [NodeInstance.ofTopology,map_toPb_of_fromPanel sent]) snapshot.nodes
  rw [← described.nodes,changeFirst_of_findIdx first] at twins
  obtain ⟨changed,there,images⟩ := Option.map_eq_some_iff.mp twins.symm
  have after : snapshot.replaceNodeUsers nodeId users = { snapshot with nodes := changed } := by
    simp only [Pb.TopologySnapshot.replaceNodeUsers,Pb.TopologySnapshot.changeNode,there,Option.getD_some]
  rw [after]
  exact described.nodes_changed { snapshot with nodes := changed } images.symm rfl

theorem Coherent.withNodeUsers {nodeId : String} {index : Nat} {users : List UserCredential}
    (coherent : Coherent defaultId topology)
    (first : topology.nodes.findIdx? (fun node => node.nodeId = nodeId) = some index)
    (sent : ∀ user ∈ users, FromPanel user) : Coherent defaultId (withNodeUsers topology nodeId index users) := by
  refine coherent.twin (f := fun snapshot => snapshot.replaceNodeUsers nodeId users) rfl ?_
  intro snapshot described
  exact (described.replaceNodeUsers first sent).carrying _

theorem Coherent.advanceTo (coherent : Coherent defaultId topology) (target : UInt64) :
    Coherent defaultId (topology.advanceTo target) := by
  unfold MachineTopology.advanceTo
  split
  · exact coherent.atRevision target
  · exact coherent

@[simp] theorem advanceTo_nodes (target : UInt64) : (topology.advanceTo target).nodes = topology.nodes := by
  unfold MachineTopology.advanceTo
  split <;> rfl

theorem Coherent.refreshCandidate {nodeId : String} {index : Nat} {users : List UserCredential} {target : UInt64}
    (coherent : Coherent defaultId topology)
    (first : topology.nodes.findIdx? (fun node => node.nodeId = nodeId) = some index)
    (sent : ∀ user ∈ users, FromPanel user) :
    Coherent defaultId (refreshCandidate topology nodeId index users target) :=
  (coherent.advanceTo target).withNodeUsers (by rw [advanceTo_nodes]; exact first) sent

/-! ### A topology from the panel -/

theorem loadNodeUsers_eq (answers : Nat → Except FetchError (List Pb.UserCredential)) (topology : MachineTopology sc)
    (entry : String × Nat) : loadNodeUsers answers topology entry =
      (listNodeUsers entry.1 (answers entry.2)).map (withNodeUsers topology entry.1 entry.2) := by
  unfold loadNodeUsers
  cases listNodeUsers entry.1 (answers entry.2) <;> rfl

theorem fromPanel_of_listed {nodeId : String} {answer : Except FetchError (List Pb.UserCredential)}
    {users : List UserCredential} (listed : listNodeUsers nodeId answer = .ok users) : ∀ user ∈ users, FromPanel user := by
  unfold listNodeUsers at listed
  split at listed
  · cases listed
  · cases answer with
    | error e => cases listed
    | ok messages =>
      cases listed
      intro user member
      obtain ⟨message,-,rfl⟩ := List.mem_map.mp member
      exact ⟨message,rfl⟩

/-- With distinct node IDs, the first node of an ID is the one at its own place. -/
theorem findIdx?_of_nodup {ids : List String} (distinct : ids.Nodup) {i : Nat} {nodeId : String}
    (held : topology.nodes.map NodeInstance.nodeId = ids) (listed : ids[i]? = some nodeId) :
    topology.nodes.findIdx? (fun node => node.nodeId = nodeId) = some i := by
  subst held
  obtain ⟨node,there,named⟩ : ∃ node, topology.nodes[i]? = some node ∧ node.nodeId = nodeId := by
    rw [List.getElem?_map] at listed
    exact Option.map_eq_some_iff.mp listed
  obtain ⟨bound,at_place⟩ := List.getElem?_eq_some_iff.mp there
  rw [List.findIdx?_eq_some_iff_getElem]
  refine ⟨bound,by simp [at_place,named],?_⟩
  intro j before
  have apart := List.nodup_iff_injective_get.mp distinct
  simp only [decide_eq_true_eq]
  intro same
  have jBound : j < (topology.nodes.map NodeInstance.nodeId).length := by rw [List.length_map]; omega
  have iBound : i < (topology.nodes.map NodeInstance.nodeId).length := by rw [List.length_map]; exact bound
  have equal : (⟨j,jBound⟩ : Fin _) = ⟨i,iBound⟩ := by
    apply apart
    simp [same,at_place,named]
  have := congrArg Fin.val equal
  simp only at this
  omega

/-- What `fetch_configured_topology` returns is coherent when the nodes of the configuration have distinct IDs. -/
theorem coherent_fetchConfiguredTopology {machineId : String} {config : Pb.MachineConfig sc}
    {answers : Nat → Except FetchError (List Pb.UserCredential)} (distinct : (config.nodes.map Pb.NodeConfig.nodeId).Nodup)
    (fetched : fetchConfiguredTopology machineId config answers = .ok topology) : Coherent machineId topology := by
  let ids := config.nodes.map Pb.NodeConfig.nodeId
  -- The loop goes over the IDs with their places; no turn changes an ID.
  have loop : ∀ (entries : List (String × Nat)) (start : MachineTopology sc), Coherent machineId start →
      start.nodes.map NodeInstance.nodeId = ids → (∀ entry ∈ entries, ids[entry.2]? = some entry.1) →
      entries.foldlM (loadNodeUsers answers) start = .ok topology → Coherent machineId topology := by
    intro entries
    induction entries with
    | nil =>
      intro start coherent _ _ done
      cases done
      exact coherent
    | cons entry rest ih =>
      intro start coherent named listed done
      rw [List.foldlM_cons,loadNodeUsers_eq] at done
      cases users : listNodeUsers entry.1 (answers entry.2) with
      | error e =>
        rw [users] at done
        cases done
      | ok users' =>
        rw [users] at done
        have place := findIdx?_of_nodup distinct named (listed entry List.mem_cons_self)
        refine ih _ (coherent.withNodeUsers place (fromPanel_of_listed users)) ?_
          (fun entry member => listed entry (List.mem_cons_of_mem _ member)) done
        rw [← named]
        show (start.nodes.modify entry.2 _).map NodeInstance.nodeId = _
        apply List.ext_getElem?
        intro i
        simp only [List.getElem?_map,List.getElem?_modify]
        split
        · cases start.nodes[i]? <;> rfl
        · simp
  have ids_eq : (fromMachineConfig machineId (some config)).nodes.map NodeInstance.nodeId = ids := by
    unfold fromMachineConfig MachineTopology.withDefaultId
    simp only
    split <;> (simp only [List.map_map]; rfl)
  refine loop _ _ (coherent_fromMachineConfig (some config)) ids_eq ?_ fetched
  rintro ⟨nodeId,i⟩ member
  rw [ids_eq] at member
  exact List.mem_zipIdx_iff_getElem?.mp member

end NodeAgent.Topology
