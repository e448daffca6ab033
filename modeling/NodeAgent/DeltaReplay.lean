import NodeAgent.TopologyMutation
import NodeAgent.TopologyDigest

/-!
Replaying a delta. The nodes of a topology and those of its snapshot are changed in step,
and each mutation changes the entries of one identity only, so that a delta comes to one
effect for each identity; doing it again changes nothing but the order of entries.
-/
namespace NodeAgent.Topology
open NodeAgent.KeyedLists NodeAgent.TopologyDigest

/-! ### Changes of a list under one key -/

section Lists
variable {α : Type} {key : α → String}

theorem under_changeFirst {f : α → α} (keeps : ∀ x, key (f x) = key x) (k k' : String) (xs : List α) :
    under key k ((changeFirst (fun x => key x = k') f xs).getD xs) = if k = k' then (under key k xs).modifyHead f else under key k xs := by
  induction xs with
  | nil => split <;> rfl
  | cons x rest ih =>
    rw [changeFirst,under_cons]
    by_cases here : key x = k'
    · rw [if_pos (by simpa using here),Option.getD_some,under_cons,keeps]
      by_cases same : k = k'
      · rw [if_pos (here.trans same.symm),if_pos same,if_pos (here.trans same.symm)]
        rfl
      · rw [if_neg (fun there => same (there.symm.trans here)),if_neg same,if_neg (fun there => same (there.symm.trans here))]
    · rw [if_neg (by simpa using here)]
      have split_head : ((changeFirst (fun x => decide (key x = k')) f rest).map (x :: ·)).getD (x :: rest) =
          x :: (changeFirst (fun x => decide (key x = k')) f rest).getD rest := by
        cases changeFirst (fun x => decide (key x = k')) f rest <;> rfl
      rw [split_head,under_cons,ih]
      by_cases there : key x = k
      · rw [if_pos there,if_pos there,if_neg (fun same => here (there.trans same)),if_neg (fun same => here (there.trans same))]
      · rw [if_neg there,if_neg there]

theorem changeFirst_eq_none {f : α → α} {k : String} {xs : List α} :
    changeFirst (fun x => key x = k) f xs = none ↔ under key k xs = [] := by
  induction xs with
  | nil => exact ⟨fun _ => rfl,fun _ => rfl⟩
  | cons x rest ih =>
    rw [changeFirst,under_cons]
    by_cases here : key x = k
    · simp [here]
    · simp [here,ih]

theorem under_replaceOrPush {x : α} {k' : String} (named : key x = k') (k : String) (xs : List α) :
    under key k (replaceOrPush (fun y => key y = k') x xs) = if k = k' then x :: (under key k xs).tail else under key k xs := by
  induction xs with
  | nil =>
    rw [replaceOrPush,changeFirst,Option.getD_none,List.nil_append,under_cons,named]
    by_cases same : k' = k
    · simp [same]
    · simp [same,Ne.symm same]
  | cons y rest ih =>
    have pushed : replaceOrPush (fun y => decide (key y = k')) x (y :: rest) =
        if key y = k' then x :: rest else y :: replaceOrPush (fun y => decide (key y = k')) x rest := by
      unfold replaceOrPush
      rw [changeFirst]
      by_cases here : key y = k'
      · simp [here]
      · simp only [here,decide_false,Bool.false_eq_true,if_false]
        cases changeFirst (fun y => decide (key y = k')) (fun _ => x) rest <;> rfl
    rw [pushed]
    by_cases here : key y = k'
    · rw [if_pos here,under_cons,under_cons,named,here]
      by_cases same : k' = k
      · simp [same]
      · simp [same,Ne.symm same]
    · rw [if_neg here,under_cons,under_cons,ih]
      by_cases there : key y = k
      · have different : k ≠ k' := fun same => here (there.trans same)
        simp [there,different]
      · simp [there]

end Lists

/-! ### Both sides of a topology -/

/-- The mutation names one node. -/
def Pb.NodeMutation.NamesOne (mutation : Pb.NodeMutation) : Prop :=
  mutation.nodeId = "" ∨ ∀ node, mutation.node = some node → node.nodeId = mutation.nodeId ∨ node.nodeId = ""

/-- Nodes with users, in a topology or in a snapshot. -/
structure Side where
  Node : Type
  User : Type
  nodeId : Node → String
  userId : User → String
  users : Node → List User
  withUsers : List User → Node → Node
  replacement : Pb.NodeMutation → Node
  credential : Pb.UserCredential → User
  nodeId_withUsers : ∀ us n, nodeId (withUsers us n) = nodeId n
  users_withUsers : ∀ us n, users (withUsers us n) = us
  withUsers_withUsers : ∀ us vs n, withUsers us (withUsers vs n) = withUsers us n
  nodeId_replacement : ∀ mutation : Pb.NodeMutation, mutation.NamesOne → nodeId (replacement mutation) = mutation.target
  userId_credential : ∀ user, userId (credential user) = user.userId

theorem Pb.NodeMutation.NamesOne.replacement_nodeId {mutation : Pb.NodeMutation} (names : mutation.NamesOne) :
    mutation.replacement.nodeId = mutation.target := by
  unfold Pb.NodeMutation.replacement
  dsimp only
  split
  · rfl
  · next named =>
    cases given : mutation.node with
    | none => rfl
    | some node =>
      rw [given,Option.getD_some] at named
      unfold Pb.NodeMutation.target
      rw [given]
      rcases names with unnamed | one
      · rw [if_pos unnamed]
        rfl
      · by_cases unnamed : mutation.nodeId = ""
        · rw [if_pos unnamed]
          rfl
        · rw [if_neg unnamed]
          exact (one node given).resolve_right named

def Pb.side : Side where
  Node := Pb.NodeTopology
  User := Pb.UserCredential
  nodeId := Pb.NodeTopology.nodeId
  userId := Pb.UserCredential.userId
  users := Pb.NodeTopology.users
  withUsers users node := { node with users := users }
  replacement := Pb.NodeMutation.replacement
  credential := id
  nodeId_withUsers _ _ := rfl
  users_withUsers _ _ := rfl
  withUsers_withUsers _ _ _ := rfl
  nodeId_replacement _ names := names.replacement_nodeId
  userId_credential _ := rfl

def modelSide : Side where
  Node := NodeInstance
  User := UserCredential
  nodeId := NodeInstance.nodeId
  userId := UserCredential.userId
  users := NodeInstance.users
  withUsers users node := { node with users := users }
  replacement := nodeReplacement
  credential := UserCredential.ofPb
  nodeId_withUsers _ _ := rfl
  users_withUsers _ _ := rfl
  withUsers_withUsers _ _ _ := rfl
  nodeId_replacement mutation names := by
    rw [nodeReplacement_eq]
    exact names.replacement_nodeId
  userId_credential _ := rfl

namespace Side
variable (side : Side)

def mutateNode (nodes : List side.Node) (mutation : Pb.NodeMutation) : List side.Node :=
  if mutation.target = "" then nodes
  else match Pb.MutationOperation.tryFrom mutation.operation with
    | .delete | .disable => nodes.filter (fun node => side.nodeId node ≠ mutation.target)
    | .unspecified | .upsert => replaceOrPush (fun node => side.nodeId node = mutation.target) (side.replacement mutation) nodes

def mutateUsers (mutation : Pb.UserMutation) (user : Pb.UserCredential) (users : List side.User) : List side.User :=
  let operation := Pb.MutationOperation.tryFrom mutation.operation
  if operation = .delete ∨ operation = .disable ∨ Pb.UserStatus.tryFrom user.status = .disabled then
    users.filter (fun candidate => side.userId candidate ≠ user.userId)
  else replaceOrPush (fun candidate => side.userId candidate = user.userId) (side.credential user) users

/-- The change of a node by a mutation of one of its users. -/
def mutateIn (mutation : Pb.UserMutation) (node : side.Node) : side.Node :=
  match mutation.user with
  | none => node
  | some user => side.withUsers (side.mutateUsers mutation user (side.users node)) node

def mutateUser (nodes : List side.Node) (mutation : Pb.UserMutation) : List side.Node :=
  (changeFirst (fun node => side.nodeId node = mutation.nodeId) (side.mutateIn mutation) nodes).getD nodes

/-- The nodes after a delta. -/
def afterDelta (delta : Pb.TopologyDelta) (nodes : List side.Node) : List side.Node :=
  delta.userMutations.foldl side.mutateUser (delta.nodeMutations.foldl side.mutateNode nodes)

/-- The order of nodes and of users set aside. -/
def ordered (node : side.Node) : side.Node := side.withUsers (sortByKey side.userId (side.users node)) node

def normal (nodes : List side.Node) : List side.Node := (sortByKey side.nodeId nodes).map side.ordered

/-! ### What a delta comes to -/

def nodeEffect (k : String) (effect : Effect side.Node) (mutation : Pb.NodeMutation) : Effect side.Node :=
  if mutation.target = "" ∨ k ≠ mutation.target then effect
  else match Pb.MutationOperation.tryFrom mutation.operation with
    | .delete | .disable => effect.clear
    | .unspecified | .upsert => effect.put (side.replacement mutation)

def userEffect (k : String) (effect : Effect side.User) (mutation : Pb.UserMutation) : Effect side.User :=
  match mutation.user with
  | none => effect
  | some user =>
    let operation := Pb.MutationOperation.tryFrom mutation.operation
    if k ≠ user.userId then effect
    else if operation = .delete ∨ operation = .disable ∨ Pb.UserStatus.tryFrom user.status = .disabled then effect.clear
    else effect.put (side.credential user)

/-- The change of a node by all mutations of its users. -/
def mutatedBy (mutations : List Pb.UserMutation) (nodeId : String) (node : side.Node) : side.Node :=
  (mutations.filter (fun mutation => mutation.nodeId = nodeId)).foldl (fun node mutation => side.mutateIn mutation node) node

variable {side}

theorem under_mutateNode {mutation : Pb.NodeMutation} (names : mutation.NamesOne) {k : String} {effect : Effect side.Node}
    {nodes start : List side.Node} (reached : under side.nodeId k nodes = effect.run start) :
    under side.nodeId k (side.mutateNode nodes mutation) = (side.nodeEffect k effect mutation).run start := by
  unfold mutateNode nodeEffect
  by_cases anonymous : mutation.target = ""
  · rw [if_pos anonymous,if_pos (.inl anonymous),reached]
  · rw [if_neg anonymous]
    have replaced := under_replaceOrPush (side.nodeId_replacement mutation names) k nodes
    have removed := @under_without _ _ _ side.nodeId k mutation.target nodes
    by_cases same : k = mutation.target
    · rw [if_pos same] at replaced removed
      rw [if_neg (by simp [anonymous,same])]
      split
      · exact removed
      · exact removed
      · rw [replaced,reached,Effect.run_put]
      · rw [replaced,reached,Effect.run_put]
    · rw [if_neg same] at replaced removed
      rw [if_pos (.inr same),← reached]
      split
      · exact removed
      · exact removed
      · exact replaced
      · exact replaced

theorem under_mutateNodes {mutations : List Pb.NodeMutation} (names : ∀ mutation ∈ mutations, mutation.NamesOne) {k : String}
    {effect : Effect side.Node} {nodes start : List side.Node} (reached : under side.nodeId k nodes = effect.run start) :
    under side.nodeId k (mutations.foldl side.mutateNode nodes) = (mutations.foldl (side.nodeEffect k) effect).run start := by
  induction mutations generalizing effect nodes with
  | nil => exact reached
  | cons mutation rest ih =>
    exact ih (fun other later => names other (List.mem_cons_of_mem _ later)) (under_mutateNode (names mutation List.mem_cons_self) reached)

theorem nodeId_mutateIn (mutation : Pb.UserMutation) (node : side.Node) : side.nodeId (side.mutateIn mutation node) = side.nodeId node := by
  unfold mutateIn
  split
  · rfl
  · exact side.nodeId_withUsers _ _

theorem under_mutateUser (k : String) (nodes : List side.Node) (mutation : Pb.UserMutation) : under side.nodeId k (side.mutateUser nodes mutation) =
    if k = mutation.nodeId then (under side.nodeId k nodes).modifyHead (side.mutateIn mutation) else under side.nodeId k nodes :=
  under_changeFirst (nodeId_mutateIn mutation) k mutation.nodeId nodes

theorem under_mutateUserFold (k : String) (mutations : List Pb.UserMutation) (nodes : List side.Node) :
    under side.nodeId k (mutations.foldl side.mutateUser nodes) = (under side.nodeId k nodes).modifyHead (side.mutatedBy mutations k) := by
  induction mutations generalizing nodes with
  | nil => exact (congrFun List.modifyHead_id _).symm
  | cons mutation rest ih =>
    rw [List.foldl_cons,ih,under_mutateUser]
    have first : side.mutatedBy (mutation :: rest) k = if k = mutation.nodeId then side.mutatedBy rest k ∘ side.mutateIn mutation else side.mutatedBy rest k := by
      funext node
      unfold mutatedBy
      rw [List.filter_cons]
      by_cases same : k = mutation.nodeId
      · simp [same]
      · simp [same,Ne.symm same]
    rw [first]
    split
    · rw [List.modifyHead_modifyHead]
    · rfl

theorem under_mutateIn {k : String} {effect : Effect side.User} {node : side.Node} {start : List side.User}
    (reached : under side.userId k (side.users node) = effect.run start) (mutation : Pb.UserMutation) :
    under side.userId k (side.users (side.mutateIn mutation node)) = (side.userEffect k effect mutation).run start := by
  unfold mutateIn userEffect
  cases mutation.user with
  | none => exact reached
  | some user =>
    dsimp only
    rw [side.users_withUsers,mutateUsers]
    have replaced := under_replaceOrPush (side.userId_credential user) k (side.users node)
    have removed := @under_without _ _ _ side.userId k user.userId (side.users node)
    by_cases same : k = user.userId
    · rw [if_pos same] at replaced removed
      rw [if_neg (not_not.mpr same)]
      split
      · exact removed
      · rw [replaced,reached,Effect.run_put]
    · rw [if_neg same] at replaced removed
      rw [if_pos same,← reached]
      split
      · exact removed
      · exact replaced

theorem under_mutatedBy (mutations : List Pb.UserMutation) (nodeId k : String) : ∃ effect : Effect side.User,
    ∀ node, under side.userId k (side.users (side.mutatedBy mutations nodeId node)) = effect.run (under side.userId k (side.users node)) := by
  refine ⟨(mutations.filter (fun mutation => mutation.nodeId = nodeId)).foldl (side.userEffect k) .keep,?_⟩
  intro node
  unfold mutatedBy
  have step : ∀ (mutations : List Pb.UserMutation) (effect : Effect side.User) (current : side.Node),
      under side.userId k (side.users current) = effect.run (under side.userId k (side.users node)) →
      under side.userId k (side.users (mutations.foldl (fun node mutation => side.mutateIn mutation node) current)) =
        (mutations.foldl (side.userEffect k) effect).run (under side.userId k (side.users node)) := by
    intro mutations
    induction mutations with
    | nil => exact fun _ _ reached => reached
    | cons mutation rest ih => exact fun effect current reached => ih _ _ (under_mutateIn reached mutation)
  exact step _ .keep node rfl

/-- Mutations of users change nothing else of a node. -/
theorem mutatedBy_frame (mutations : List Pb.UserMutation) (nodeId : String) (users : List side.User) (node : side.Node) :
    side.withUsers users (side.mutatedBy mutations nodeId node) = side.withUsers users node := by
  unfold mutatedBy
  induction mutations.filter (fun mutation => mutation.nodeId = nodeId) generalizing node with
  | nil => rfl
  | cons mutation rest ih =>
    rw [List.foldl_cons,ih]
    unfold mutateIn
    split
    · rfl
    · exact side.withUsers_withUsers _ _ _

/-- Repeating the mutations of users changes at most their order. -/
theorem ordered_mutatedBy (mutations : List Pb.UserMutation) (nodeId : String) (node : side.Node) :
    side.ordered (side.mutatedBy mutations nodeId (side.mutatedBy mutations nodeId node)) = side.ordered (side.mutatedBy mutations nodeId node) := by
  have users : Alike side.userId (side.users (side.mutatedBy mutations nodeId (side.mutatedBy mutations nodeId node)))
      (side.users (side.mutatedBy mutations nodeId node)) := by
    intro k
    obtain ⟨effect,under_effect⟩ := under_mutatedBy mutations nodeId k
    rw [under_effect,under_effect,Effect.run_run]
  unfold ordered
  rw [sortByKey_eq_iff.mpr users,mutatedBy_frame]

theorem nodeId_ordered (node : side.Node) : side.nodeId (side.ordered node) = side.nodeId node := side.nodeId_withUsers _ _

theorem normal_eq_iff {nodes nodes' : List side.Node} : side.normal nodes = side.normal nodes' ↔
    ∀ k, (under side.nodeId k nodes).map side.ordered = (under side.nodeId k nodes').map side.ordered := by
  unfold normal
  rw [← sortByKey_map nodeId_ordered,← sortByKey_map nodeId_ordered,sortByKey_eq_iff]
  refine forall_congr' ?_
  intro k
  rw [under_map nodeId_ordered,under_map nodeId_ordered]

/-- The nodes under one identity after a delta. -/
theorem under_afterDelta {delta : Pb.TopologyDelta} (names : ∀ mutation ∈ delta.nodeMutations, mutation.NamesOne) (k : String) :
    ∃ effect : Effect side.Node, ∀ nodes, under side.nodeId k (side.afterDelta delta nodes) =
      (effect.run (under side.nodeId k nodes)).modifyHead (side.mutatedBy delta.userMutations k) := by
  refine ⟨delta.nodeMutations.foldl (side.nodeEffect k) .keep,?_⟩
  intro nodes
  rw [afterDelta,under_mutateUserFold,@under_mutateNodes side _ names k .keep nodes (under side.nodeId k nodes) rfl]

/-- A delta on top of itself. -/
theorem normal_afterDelta {delta : Pb.TopologyDelta} (names : ∀ mutation ∈ delta.nodeMutations, mutation.NamesOne) (nodes : List side.Node) :
    side.normal (side.afterDelta delta (side.afterDelta delta nodes)) = side.normal (side.afterDelta delta nodes) := by
  rw [normal_eq_iff]
  intro k
  obtain ⟨effect,after⟩ := @under_afterDelta side delta names k
  rw [after,after]
  generalize under side.nodeId k nodes = entries
  cases effect with
  | keep =>
    cases entries with
    | nil => rfl
    | cons node rest =>
      simp only [Effect.run,List.modifyHead_cons,List.map_cons]
      rw [ordered_mutatedBy]
  | become fixed => rfl
  | lead node => rfl

end Side

/-! ### Deltas of a topology -/

variable {sc : Sections}

/-- The mutations of a delta, made on the topology and on its snapshot. -/
def applyMutations (delta : Pb.TopologyDelta) (topology : MachineTopology sc) : Except TopologyError (MachineTopology sc) :=
  delta.userMutations.foldlM mutateUser (delta.nodeMutations.foldl mutateNode topology)

/-- The topology with other nodes on both sides. -/
def MachineTopology.changed (topology : MachineTopology sc) (f : List modelSide.Node → List modelSide.Node)
    (g : List Pb.side.Node → List Pb.side.Node) : MachineTopology sc :=
  { topology with
    nodes := f topology.nodes
    snapshot := topology.snapshot.map (fun snapshot => { snapshot with nodes := g snapshot.nodes }) }

theorem changed_changed (topology : MachineTopology sc) (f f' : List modelSide.Node → List modelSide.Node) (g g' : List Pb.side.Node → List Pb.side.Node) :
    (topology.changed f g).changed f' g' = topology.changed (f' ∘ f) (g' ∘ g) := by
  simp [MachineTopology.changed,Function.comp_def]

theorem changed_id (topology : MachineTopology sc) : topology.changed id id = topology := by
  obtain ⟨_,_,_,_,_,_,snapshot⟩ := topology
  cases snapshot <;> rfl

theorem mutateNode_changed (topology : MachineTopology sc) (mutation : Pb.NodeMutation) :
    mutateNode topology mutation = topology.changed (modelSide.mutateNode · mutation) (Pb.side.mutateNode · mutation) := by
  unfold mutateNode applyNodeMutation applyNodeMutationToSnapshot MachineTopology.onSnapshot Pb.TopologySnapshot.mutateNode
    MachineTopology.changed Side.mutateNode
  by_cases anonymous : mutation.target = ""
  · simp [anonymous]
  · simp only [anonymous,if_false]
    cases Pb.MutationOperation.tryFrom mutation.operation <;> rfl

/-- What a user mutation needs. -/
structure Pb.UserMutation.Fits (mutation : Pb.UserMutation) (nodes : List modelSide.Node) : Prop where
  named : mutation.nodeId ≠ ""
  user : ∃ user, mutation.user = some user ∧ user.userId ≠ ""
  found : under modelSide.nodeId mutation.nodeId nodes ≠ []

theorem mutateUser_ok {topology next : MachineTopology sc} {mutation : Pb.UserMutation} : mutateUser topology mutation = .ok next ↔
    mutation.Fits topology.nodes ∧ next = topology.changed (modelSide.mutateUser · mutation) (Pb.side.mutateUser · mutation) := by
  unfold mutateUser applyUserMutation
  by_cases anonymous : mutation.nodeId = ""
  · rw [if_pos anonymous]
    constructor
    · intro impossible
      cases impossible
    · exact fun fits => absurd anonymous fits.1.named
  rw [if_neg anonymous]
  cases given : mutation.user with
  | none =>
    constructor
    · intro impossible
      cases impossible
    · rintro ⟨⟨_,⟨user,same,_⟩,_⟩,_⟩
      rw [given] at same
      cases same
  | some user =>
    dsimp only
    by_cases unnamed : user.userId = ""
    · rw [if_pos unnamed]
      constructor
      · intro impossible
        cases impossible
      · rintro ⟨⟨_,⟨user',same,named⟩,_⟩,_⟩
        rw [given] at same
        cases same
        exact absurd unnamed named
    rw [if_neg unnamed]
    have inside : (fun node : NodeInstance => { node with users := mutateUsers mutation user node.users }) = modelSide.mutateIn mutation := by
      funext node
      unfold Side.mutateIn
      rw [given]
      dsimp only
      unfold mutateUsers Side.mutateUsers
      simp only [status_disabled]
      rfl
    have inside' : (fun node : Pb.NodeTopology => { node with users := Pb.mutateUsers mutation user node.users }) = Pb.side.mutateIn mutation := by
      funext node
      unfold Side.mutateIn
      rw [given]
      rfl
    have snapshots : (fun snapshot : Pb.TopologySnapshot sc => snapshot.mutateUser mutation) =
        (fun snapshot => { snapshot with nodes := Pb.side.mutateUser snapshot.nodes mutation }) := by
      funext snapshot
      unfold Pb.TopologySnapshot.mutateUser Pb.TopologySnapshot.changeNode Side.mutateUser
      rw [given,← inside']
      rfl
    rw [inside]
    have found := @changeFirst_eq_none _ modelSide.nodeId (modelSide.mutateIn mutation) mutation.nodeId topology.nodes
    cases changed : changeFirst (fun node => decide (modelSide.nodeId node = mutation.nodeId)) (modelSide.mutateIn mutation) topology.nodes with
    | none =>
      have missing : changeFirst (fun node : NodeInstance => decide (node.nodeId = mutation.nodeId)) (modelSide.mutateIn mutation) topology.nodes = none := changed
      rw [missing]
      constructor
      · intro impossible
        cases impossible
      · exact fun fits => absurd (found.mp changed) fits.1.found
    | some nodes =>
      have there : under modelSide.nodeId mutation.nodeId topology.nodes ≠ [] := by
        intro empty
        have missing := found.mpr empty
        rw [changed] at missing
        cases missing
      have result : modelSide.mutateUser topology.nodes mutation = nodes := by
        unfold Side.mutateUser
        rw [changed]
        rfl
      have present : changeFirst (fun node : NodeInstance => decide (node.nodeId = mutation.nodeId)) (modelSide.mutateIn mutation) topology.nodes = some nodes :=
        changed
      rw [present]
      have after : applyUserMutationToSnapshot { topology with nodes := nodes } mutation =
          topology.changed (modelSide.mutateUser · mutation) (Pb.side.mutateUser · mutation) := by
        unfold applyUserMutationToSnapshot MachineTopology.onSnapshot MachineTopology.changed
        rw [snapshots,← result]
      constructor
      · intro mutated
        cases mutated
        exact ⟨⟨anonymous,⟨user,given,unnamed⟩,there⟩,after⟩
      · rintro ⟨_,rfl⟩
        rw [← after]
        rfl

theorem foldl_mutateNode_changed (mutations : List Pb.NodeMutation) (topology : MachineTopology sc) : mutations.foldl mutateNode topology =
    topology.changed (mutations.foldl modelSide.mutateNode) (mutations.foldl Pb.side.mutateNode) := by
  induction mutations generalizing topology with
  | nil => exact (changed_id topology).symm
  | cons mutation rest ih =>
    rw [List.foldl_cons,ih,mutateNode_changed,changed_changed]
    rfl

/-- A mutation of a user leaves every node where it was. -/
theorem mutateUser_fits {nodes : List modelSide.Node} (mutation other : Pb.UserMutation) :
    other.Fits (modelSide.mutateUser nodes mutation) ↔ other.Fits nodes := by
  have found : under modelSide.nodeId other.nodeId (modelSide.mutateUser nodes mutation) ≠ [] ↔ under modelSide.nodeId other.nodeId nodes ≠ [] := by
    rw [Side.under_mutateUser]
    split
    · cases under modelSide.nodeId other.nodeId nodes <;> simp
    · rfl
  exact ⟨fun fits => ⟨fits.named,fits.user,found.mp fits.found⟩,fun fits => ⟨fits.named,fits.user,found.mpr fits.found⟩⟩

theorem foldlM_mutateUser_ok {mutations : List Pb.UserMutation} {topology next : MachineTopology sc} :
    mutations.foldlM mutateUser topology = .ok next ↔ (∀ mutation ∈ mutations, mutation.Fits topology.nodes) ∧
      next = topology.changed (mutations.foldl modelSide.mutateUser) (mutations.foldl Pb.side.mutateUser) := by
  induction mutations generalizing topology with
  | nil =>
    constructor
    · intro done
      cases done
      exact ⟨fun _ member => absurd member List.not_mem_nil,(changed_id _).symm⟩
    · rintro ⟨_,rfl⟩
      exact congrArg Except.ok (changed_id _).symm
  | cons mutation rest ih =>
    rw [List.foldlM_cons]
    constructor
    · intro done
      cases first : mutateUser topology mutation with
      | error e =>
        rw [first] at done
        cases done
      | ok middle =>
        rw [first] at done
        obtain ⟨fits,rfl⟩ := mutateUser_ok.mp first
        obtain ⟨others,rfl⟩ := ih.mp done
        refine ⟨?_,changed_changed _ _ _ _ _⟩
        intro other member
        rcases List.mem_cons.mp member with rfl | later
        · exact fits
        · exact (mutateUser_fits mutation other).mp (others other later)
    · rintro ⟨fits,rfl⟩
      rw [mutateUser_ok.mpr ⟨fits mutation List.mem_cons_self,rfl⟩]
      refine ih.mpr ⟨?_,?_⟩
      swap
      · rw [changed_changed]
        rfl
      intro other later
      exact (mutateUser_fits mutation other).mpr (fits other (List.mem_cons_of_mem _ later))

/-- Every mutation of a user finds what it needs after the mutations of nodes. -/
def Fitting (delta : Pb.TopologyDelta) (nodes : List modelSide.Node) : Prop :=
  ∀ mutation ∈ delta.userMutations, mutation.Fits (delta.nodeMutations.foldl modelSide.mutateNode nodes)

theorem applyMutations_ok {delta : Pb.TopologyDelta} {topology next : MachineTopology sc} : applyMutations delta topology = .ok next ↔
    Fitting delta topology.nodes ∧ next = topology.changed (modelSide.afterDelta delta) (Pb.side.afterDelta delta) := by
  rw [applyMutations,foldl_mutateNode_changed,foldlM_mutateUser_ok,changed_changed]
  rfl

/-- What fitted once fits again. -/
theorem Fitting.again {delta : Pb.TopologyDelta} (names : ∀ mutation ∈ delta.nodeMutations, mutation.NamesOne) {nodes : List modelSide.Node}
    (fitting : Fitting delta nodes) : Fitting delta (modelSide.afterDelta delta nodes) := by
  intro mutation member
  have fits := fitting mutation member
  refine ⟨fits.named,fits.user,?_⟩
  have found := fits.found
  obtain ⟨effect,after⟩ : ∃ effect : Effect modelSide.Node, ∀ nodes, under modelSide.nodeId mutation.nodeId
      (delta.nodeMutations.foldl modelSide.mutateNode nodes) = effect.run (under modelSide.nodeId mutation.nodeId nodes) :=
    ⟨delta.nodeMutations.foldl (modelSide.nodeEffect mutation.nodeId) .keep,fun nodes => Side.under_mutateNodes names rfl⟩
  rw [after] at found
  rw [after,Side.afterDelta,Side.under_mutateUserFold,after]
  generalize under modelSide.nodeId mutation.nodeId nodes = entries at found
  cases effect with
  | keep => cases entries <;> simp_all [Effect.run]
  | become fixed => exact found
  | lead node => exact List.cons_ne_nil _ _

/-! ### Replays -/

/-- Lists with one normal form are the same up to the order of nodes and of users. -/
theorem Side.normal_order {side : Side} {nodes nodes' : List side.Node} (same : side.normal nodes = side.normal nodes') :
    ∃ order, List.Forall₂ (fun node node' => side.ordered node = side.ordered node') nodes order ∧ order.Perm nodes' := by
  have sorted : List.Forall₂ (fun node node' => side.ordered node = side.ordered node') (sortByKey side.nodeId nodes) (sortByKey side.nodeId nodes') := by
    have equal : List.Forall₂ Eq ((sortByKey side.nodeId nodes).map side.ordered) ((sortByKey side.nodeId nodes').map side.ordered) := by
      rw [List.forall₂_eq_eq_eq]
      exact same
    exact List.forall₂_map_right_iff.mp (List.forall₂_map_left_iff.mp equal)
  obtain ⟨order,related,perm⟩ := List.perm_comp_forall₂ (sortByKey_perm nodes).symm sorted
  exact ⟨order,related,perm.trans (sortByKey_perm nodes')⟩

/-- The same node, with its users in some other order. -/
structure Reordered (node node' : NodeInstance) : Prop where
  nodeId : node.nodeId = node'.nodeId
  providerId : node.providerId = node'.providerId
  providerConfigVersion : node.providerConfigVersion = node'.providerConfigVersion
  providerConfig : node.providerConfig = node'.providerConfig
  users : node.users.Perm node'.users

theorem reordered_of_ordered {node node' : modelSide.Node} (same : modelSide.ordered node = modelSide.ordered node') : Reordered node node' := by
  obtain ⟨id,provider,version,config,users⟩ := NodeInstance.mk.inj same
  refine ⟨id,provider,version,config,?_⟩
  have perm := @sortByKey_perm _ _ _ UserCredential.userId (NodeInstance.users node)
  exact perm.symm.trans (users ▸ sortByKey_perm (NodeInstance.users node'))

/-- The topologies configure the same machine and have the same digest. -/
structure Converged (a b : MachineTopology sc) : Prop where
  machineId : a.machineId = b.machineId
  revision : a.revision = b.revision
  outbounds : a.outbounds = b.outbounds
  route : a.route = b.route
  dns : a.dns = b.dns
  nodes : ∃ order, List.Forall₂ Reordered a.nodes order ∧ order.Perm b.nodes
  digest : ∀ encodeToVec sha256, sum encodeToVec sha256 a.snapshot = sum encodeToVec sha256 b.snapshot

/-- Analysis is not part of the digest. -/
def unanalysed (node : Pb.side.Node) : Pb.NodeTopology :=
  let node : Pb.NodeTopology := node
  { node with trafficAnalysis := none }

theorem normalized_of_normal {snapshot snapshot' : Pb.TopologySnapshot sc} (others : { snapshot with nodes := [] } = { snapshot' with nodes := [] })
    (same : Pb.side.normal snapshot.nodes = Pb.side.normal snapshot'.nodes) : normalized snapshot = normalized snapshot' := by
  have parts : ∀ nodes : List Pb.NodeTopology, (sortByKey Pb.NodeTopology.nodeId nodes).map normalizedNode =
      (Pb.side.normal nodes).map unanalysed := by
    intro nodes
    exact (@List.map_map _ _ _ unanalysed Pb.side.ordered (sortByKey Pb.side.nodeId nodes)).symm
  obtain ⟨machineId,revision,_,outbounds,route,dns⟩ := Pb.TopologySnapshot.mk.inj others
  unfold normalized
  rw [parts,parts,same,machineId,outbounds,route,dns]

/-- The delta has been applied to the topology. -/
structure Applied (delta : Pb.TopologyDelta) (topology : MachineTopology sc) : Prop where
  fitting : Fitting delta topology.nodes
  nodes : modelSide.normal (modelSide.afterDelta delta topology.nodes) = modelSide.normal topology.nodes
  snapshot : ∀ snapshot, topology.snapshot = some snapshot → Pb.side.normal (Pb.side.afterDelta delta snapshot.nodes) = Pb.side.normal snapshot.nodes

theorem Applied.of_ok {delta : Pb.TopologyDelta} (names : ∀ mutation ∈ delta.nodeMutations, mutation.NamesOne) {topology next : MachineTopology sc}
    (applied : applyMutations delta topology = .ok next) : Applied delta next := by
  obtain ⟨fitting,rfl⟩ := applyMutations_ok.mp applied
  refine ⟨fitting.again names,Side.normal_afterDelta names _,?_⟩
  intro snapshot held
  obtain ⟨before,_,rfl⟩ := Option.map_eq_some_iff.mp held
  exact Side.normal_afterDelta names _

theorem Applied.again {delta : Pb.TopologyDelta} {topology : MachineTopology sc} (applied : Applied delta topology) :
    ∃ next, applyMutations delta topology = .ok next ∧ Converged topology next := by
  refine ⟨_,applyMutations_ok.mpr ⟨applied.fitting,rfl⟩,rfl,rfl,rfl,rfl,rfl,?_,?_⟩
  · obtain ⟨order,related,perm⟩ := Side.normal_order applied.nodes.symm
    exact ⟨order,related.imp (fun _ _ => reordered_of_ordered),perm⟩
  · intro encodeToVec sha256
    cases held : topology.snapshot with
    | none =>
      simp only [MachineTopology.changed,held]
      rfl
    | some snapshot =>
      have same : normalized snapshot = normalized { snapshot with nodes := Pb.side.afterDelta delta snapshot.nodes } :=
        normalized_of_normal rfl (applied.snapshot snapshot held).symm
      simp only [MachineTopology.changed,held,Option.map_some,sum,Option.getD_some,same]

theorem Applied.atRevision {delta : Pb.TopologyDelta} {topology : MachineTopology sc} (applied : Applied delta topology) (revision : UInt64) :
    Applied delta (topology.atRevision revision) := by
  refine ⟨applied.fitting,applied.nodes,?_⟩
  intro snapshot held
  obtain ⟨before,stored,rfl⟩ := Option.map_eq_some_iff.mp held
  exact applied.snapshot before stored

theorem deltaCandidate_eq {machineId : String} {topology next : MachineTopology sc} {delta : Pb.TopologyDelta}
    (built : deltaCandidate machineId topology delta = .ok next) : ∃ middle,
      applyMutations delta (topology.withDefaultId machineId) = .ok middle ∧ next = middle.atRevision delta.targetRevision := by
  unfold deltaCandidate at built
  cases mutated : applyMutations delta (topology.withDefaultId machineId) with
  | error e =>
    rw [applyMutations] at mutated
    simp [mutated,Except.map] at built
  | ok middle =>
    refine ⟨middle,rfl,?_⟩
    rw [applyMutations] at mutated
    simp only [mutated,Except.map,Except.ok.injEq] at built
    exact built.symm

/-- A name that was filled in stays. -/
theorem withDefaultId_of_named {topology : MachineTopology sc} {machineId : String} (named : topology.machineId = "" → machineId = "") :
    topology.withDefaultId machineId = topology := by
  unfold MachineTopology.withDefaultId
  split
  · next unnamed =>
    obtain ⟨_,_,_,_,_,_,_⟩ := topology
    simp only at unnamed
    simp [unnamed,named unnamed]
  · rfl

theorem machineId_withDefaultId (topology : MachineTopology sc) (machineId : String) :
    (topology.withDefaultId machineId).machineId = "" → machineId = "" := by
  unfold MachineTopology.withDefaultId
  split
  · exact id
  · next named => exact fun unnamed => absurd unnamed named

theorem sum_atRevision (encodeToVec : Pb.TopologySnapshot sc → Credential.Bytes) (sha256 : Credential.Bytes → Credential.Bytes)
    (topology : MachineTopology sc) (revision : UInt64) :
    sum encodeToVec sha256 (topology.atRevision revision).snapshot = sum encodeToVec sha256 topology.snapshot := by
  obtain ⟨_,_,_,_,_,_,snapshot⟩ := topology
  cases snapshot <;> rfl

/-- A delta that was applied can be applied again: the configuration and its digest stay, for
    the mutations alone and for the candidate that is published, also when the delta is
    rebased on its own target. -/
theorem delta_replay_harmless (delta : Pb.TopologyDelta) (names : ∀ mutation ∈ delta.nodeMutations, mutation.NamesOne) :
    (∀ topology next : MachineTopology sc, applyMutations delta topology = .ok next →
      ∃ again, applyMutations delta next = .ok again ∧ Converged next again) ∧
    (∀ machineId (topology next : MachineTopology sc), deltaCandidate machineId topology delta = .ok next →
      ∃ again, deltaCandidate machineId next { delta with baseRevision := delta.targetRevision } = .ok again ∧ Converged next again) := by
  constructor
  · intro topology next applied
    exact (Applied.of_ok names applied).again
  · intro machineId topology next built
    obtain ⟨middle,applied,rfl⟩ := deltaCandidate_eq built
    obtain ⟨again,repeated,converged⟩ := ((Applied.of_ok names applied).atRevision delta.targetRevision).again
    have named : (middle.atRevision delta.targetRevision).withDefaultId machineId = middle.atRevision delta.targetRevision := by
      obtain ⟨_,rfl⟩ := applyMutations_ok.mp applied
      exact withDefaultId_of_named (machineId_withDefaultId topology machineId)
    refine ⟨again.atRevision delta.targetRevision,?_,?_⟩
    · unfold deltaCandidate
      rw [applyMutations] at repeated
      simp only [named,repeated,Except.map]
    · refine ⟨converged.machineId,rfl,converged.outbounds,converged.route,converged.dns,converged.nodes,?_⟩
      intro encodeToVec sha256
      rw [converged.digest,sum_atRevision]

/-- A node that is put in and the users that are added to it. -/
theorem delta_replay_harmless_one_node : ∃ again,
    applyMutations ⟨1,2,[⟨1,some ⟨"n","p",1,[],[],none⟩,""⟩],[⟨1,"m","n",some ⟨"u","","c",1,0,0⟩,2,false⟩]⟩
      (⟨"m",1,[⟨"n","p",1,[],[⟨"u","","c","",0,0⟩]⟩],[],none,none,some ⟨"m",1,[⟨"n","p",1,[],[⟨"u","","c",1,0,0⟩],none⟩],[],none,none⟩⟩ :
        MachineTopology noSections) = .ok again ∧
      Converged ⟨"m",1,[⟨"n","p",1,[],[⟨"u","","c","",0,0⟩]⟩],[],none,none,some ⟨"m",1,[⟨"n","p",1,[],[⟨"u","","c",1,0,0⟩],none⟩],[],none,none⟩⟩ again :=
  (delta_replay_harmless ⟨1,2,[⟨1,some ⟨"n","p",1,[],[],none⟩,""⟩],[⟨1,"m","n",some ⟨"u","","c",1,0,0⟩,2,false⟩]⟩
    (fun mutation member => .inl (by rw [List.mem_singleton.mp member]))).1
    ⟨"m",1,[],[],none,none,some ⟨"m",1,[],[],none,none⟩⟩ _ (by rfl)

end NodeAgent.Topology
