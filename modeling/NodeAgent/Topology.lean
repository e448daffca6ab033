import NodeAgent.Credential

/-!
The machine topology and its wire snapshot. A topology is built from the panel's messages
and keeps the snapshot it was built from, so that a digest of the snapshot describes it.
Every mutation is made twice, on the model and on the snapshot; here are the messages, the
conversions between the two sides and the mutations of the snapshot.
-/
namespace NodeAgent.Topology
open NodeAgent.Credential (Bytes)

/-- The route and DNS sections of a topology, on the wire and in the model, with the
    conversions from the one to the other. They are handed on whole. -/
structure Sections where
  RouteConfig : Type
  Route : Type
  DnsConfig : Type
  Dns : Type
  /-- `Route::from`. -/
  routeFrom : RouteConfig → Route
  /-- `Dns::from`. -/
  dnsFrom : DnsConfig → Dns
  decRouteConfig : DecidableEq RouteConfig
  decRoute : DecidableEq Route
  decDnsConfig : DecidableEq DnsConfig
  decDns : DecidableEq Dns

attribute [instance] Sections.decRouteConfig Sections.decRoute Sections.decDnsConfig Sections.decDns

/-! ### Messages -/

namespace Pb

inductive MutationOperation
  | unspecified
  | upsert
  | disable
  | delete
deriving DecidableEq

/-- `MutationOperation::try_from(value).unwrap_or(Unspecified)`. -/
def MutationOperation.tryFrom (value : Int32) : MutationOperation :=
  if value = 1 then .upsert else if value = 2 then .disable else if value = 3 then .delete else .unspecified

inductive UserStatus
  | unspecified
  | active
  | disabled
deriving DecidableEq

/-- `UserStatus::try_from(value).unwrap_or(Unspecified)`. -/
def UserStatus.tryFrom (value : Int32) : UserStatus :=
  if value = 1 then .active else if value = 2 then .disabled else .unspecified

/-- `status as i32`. -/
def UserStatus.asI32 : UserStatus → Int32
  | .unspecified => 0
  | .active => 1
  | .disabled => 2

structure UserCredential where
  userId : String
  name : String
  credential : String
  status : Int32
  uploadSpeedLimitBps : UInt64
  downloadSpeedLimitBps : UInt64
deriving DecidableEq

structure TrafficAnalysisConfig where
  enabled : Bool
  sampleIntervalSeconds : UInt32
  batchMaxEntries : UInt32
  batchMaxBytes : UInt32
  queueMaxBytes : UInt64
  queueMaxAgeSeconds : UInt32
  sendBytesPerSecond : UInt64
  sendBurstBytes : UInt64
  sendTimeoutMillis : UInt32
  minuteMaxDomainKeys : UInt32
  maxUdpTargets : UInt32
  maxUdpTargetsPerSession : UInt32
  memoryMaxBytes : UInt64
deriving DecidableEq

structure NodeTopology where
  nodeId : String
  providerId : String
  providerConfigVersion : UInt32
  providerConfigJson : Bytes
  users : List UserCredential
  trafficAnalysis : Option TrafficAnalysisConfig
deriving DecidableEq

/-- `NodeTopology::default()`. -/
def NodeTopology.default : NodeTopology := ⟨"","",0,[],[],none⟩

structure NodeConfig where
  nodeId : String
  providerId : String
  providerConfigVersion : UInt32
  providerConfigJson : Bytes
  trafficAnalysis : Option TrafficAnalysisConfig
deriving DecidableEq

/-- Its `type` field is called `kind` in the model. -/
structure OutboundConfig where
  kind : String
  tag : String
  optionsJson : Bytes
deriving DecidableEq

structure TopologySnapshot (sc : Sections) where
  machineId : String
  revision : UInt64
  nodes : List NodeTopology
  outbounds : List OutboundConfig
  route : Option sc.RouteConfig
  dns : Option sc.DnsConfig
deriving DecidableEq

structure MachineConfig (sc : Sections) where
  machineId : String
  revision : UInt64
  nodes : List NodeConfig
  outbounds : List OutboundConfig
  route : Option sc.RouteConfig
  dns : Option sc.DnsConfig

structure NodeMutation where
  operation : Int32
  node : Option NodeTopology
  nodeId : String

structure UserMutation where
  operation : Int32
  machineId : String
  nodeId : String
  user : Option UserCredential
  revision : UInt64
  kickExistingConnections : Bool

structure TopologyDelta where
  baseRevision : UInt64
  targetRevision : UInt64
  nodeMutations : List NodeMutation
  userMutations : List UserMutation

structure TopologyRoutePatch (sc : Sections) where
  machineId : String
  revision : UInt64
  outbounds : List OutboundConfig
  route : Option sc.RouteConfig
  dns : Option sc.DnsConfig

end Pb

/-! ### The model -/

structure UserCredential where
  userId : String
  name : String
  credential : String
  status : String
  uploadSpeedLimitBps : UInt64
  downloadSpeedLimitBps : UInt64
deriving DecidableEq

structure NodeInstance where
  nodeId : String
  providerId : String
  providerConfigVersion : UInt32
  providerConfig : Bytes
  users : List UserCredential
deriving DecidableEq

/-- `NodeInstance::default()`. -/
def NodeInstance.default : NodeInstance := ⟨"","",0,[],[]⟩

structure Outbound where
  kind : String
  tag : String
  options : Bytes
deriving DecidableEq

structure MachineTopology (sc : Sections) where
  machineId : String
  revision : UInt64
  nodes : List NodeInstance
  outbounds : List Outbound
  route : Option sc.Route
  dns : Option sc.Dns
  snapshot : Option (Pb.TopologySnapshot sc)
deriving DecidableEq

variable {sc : Sections}

/-- `MachineTopology::default()`. -/
def MachineTopology.default : MachineTopology sc := ⟨"",0,[],[],none,none,none⟩

/-! ### Conversions -/

def UserCredential.ofPb (user : Pb.UserCredential) : UserCredential :=
  { userId := user.userId, name := user.name, credential := user.credential,
    status := if Pb.UserStatus.tryFrom user.status = .disabled then "disabled" else "",
    uploadSpeedLimitBps := user.uploadSpeedLimitBps, downloadSpeedLimitBps := user.downloadSpeedLimitBps }

def UserCredential.toPb (user : UserCredential) : Pb.UserCredential :=
  { userId := user.userId, name := user.name, credential := user.credential,
    status := if user.status = "disabled" then Pb.UserStatus.asI32 .disabled else Pb.UserStatus.asI32 .active,
    uploadSpeedLimitBps := user.uploadSpeedLimitBps, downloadSpeedLimitBps := user.downloadSpeedLimitBps }

def NodeInstance.ofConfig (node : Pb.NodeConfig) : NodeInstance :=
  { nodeId := node.nodeId, providerId := node.providerId, providerConfigVersion := node.providerConfigVersion,
    providerConfig := node.providerConfigJson, users := [] }

def NodeInstance.ofTopology (node : Pb.NodeTopology) : NodeInstance :=
  { nodeId := node.nodeId, providerId := node.providerId, providerConfigVersion := node.providerConfigVersion,
    providerConfig := node.providerConfigJson, users := node.users.map UserCredential.ofPb }

def Outbound.ofConfig (outbound : Pb.OutboundConfig) : Outbound :=
  { kind := outbound.kind, tag := outbound.tag, options := outbound.optionsJson }

/-- A topology with no machine ID takes the default one. -/
def MachineTopology.withDefaultId (topology : MachineTopology sc) (defaultMachineId : String) : MachineTopology sc :=
  if topology.machineId = "" then { topology with machineId := defaultMachineId } else topology

def fromSnapshot (defaultMachineId : String) : Option (Pb.TopologySnapshot sc) → MachineTopology sc
  | none => { MachineTopology.default with machineId := defaultMachineId }
  | some snapshot =>
    MachineTopology.withDefaultId
      { machineId := snapshot.machineId, revision := snapshot.revision,
        nodes := snapshot.nodes.map NodeInstance.ofTopology, outbounds := snapshot.outbounds.map Outbound.ofConfig,
        route := snapshot.route.map sc.routeFrom, dns := snapshot.dns.map sc.dnsFrom, snapshot := some snapshot }
      defaultMachineId

def fromMachineConfig (defaultMachineId : String) : Option (Pb.MachineConfig sc) → MachineTopology sc
  | none => { MachineTopology.default with machineId := defaultMachineId }
  | some config =>
    let snapshot : Pb.TopologySnapshot sc :=
      { machineId := config.machineId, revision := config.revision,
        nodes := config.nodes.map (fun node =>
          { nodeId := node.nodeId, providerId := node.providerId, providerConfigVersion := node.providerConfigVersion,
            providerConfigJson := node.providerConfigJson, users := [], trafficAnalysis := node.trafficAnalysis }),
        outbounds := config.outbounds, route := config.route, dns := config.dns }
    MachineTopology.withDefaultId
      { machineId := config.machineId, revision := config.revision,
        nodes := config.nodes.map NodeInstance.ofConfig, outbounds := config.outbounds.map Outbound.ofConfig,
        route := config.route.map sc.routeFrom, dns := config.dns.map sc.dnsFrom, snapshot := some snapshot }
      defaultMachineId

/-! ### Changing the first match

`iter_mut().find(..)` and an assignment through the reference it gives. -/

section ChangeFirst
variable {α β : Type}

/-- The list with its first match changed; `none` when there is no match. -/
def changeFirst (test : α → Bool) (f : α → α) : List α → Option (List α)
  | [] => none
  | x :: rest => if test x then some (f x :: rest) else (changeFirst test f rest).map (x :: ·)

/-- `if let Some(existing) = ..find(..) { *existing = x } else { push(x) }`. -/
def replaceOrPush (test : α → Bool) (x : α) (xs : List α) : List α := (changeFirst test (fun _ => x) xs).getD (xs ++ [x])

/-- A change of the first match commutes with a map that carries the test and the change over. -/
theorem changeFirst_map (test : α → Bool) (test' : β → Bool) (f : α → α) (f' : β → β) (g : α → β)
    (tests : ∀ x, test' (g x) = test x) (changes : ∀ x, f' (g x) = g (f x)) (xs : List α) :
    changeFirst test' f' (xs.map g) = (changeFirst test f xs).map (List.map g) := by
  induction xs with
  | nil => rfl
  | cons x rest ih =>
    simp only [List.map_cons,changeFirst,tests]
    split
    · simp [changes]
    · rw [ih]
      cases changeFirst test f rest <;> rfl

theorem replaceOrPush_map {test : α → Bool} {test' : β → Bool} {g : α → β} (tests : ∀ x, test' (g x) = test x)
    (x : α) (xs : List α) : replaceOrPush test' (g x) (xs.map g) = (replaceOrPush test x xs).map g := by
  unfold replaceOrPush
  rw [changeFirst_map test test' (fun _ => x) (fun _ => g x) g tests (fun _ => rfl) xs]
  cases changeFirst test (fun _ => x) xs <;> simp

theorem filter_map_of_tests {test : α → Bool} {test' : β → Bool} {g : α → β} (tests : ∀ x, test' (g x) = test x)
    (xs : List α) : (xs.map g).filter test' = (xs.filter test).map g := by
  rw [List.filter_map]
  congr 1
  apply List.filter_congr
  intro x _
  exact tests x

/-- The change is made at the position of the first match. -/
theorem changeFirst_of_findIdx {test : α → Bool} {f : α → α} {xs : List α} {i : Nat}
    (first : xs.findIdx? test = some i) : changeFirst test f xs = some (xs.modify i f) := by
  induction xs generalizing i with
  | nil => simp at first
  | cons x rest ih =>
    rw [List.findIdx?_cons] at first
    unfold changeFirst
    by_cases passes : test x = true
    · rw [if_pos passes] at first
      cases first
      simp [passes]
    · rw [if_neg passes] at first
      rw [if_neg passes]
      obtain ⟨j,found,rfl⟩ := Option.map_eq_some_iff.mp first
      rw [ih found]
      rfl

end ChangeFirst

/-! ### Mutations of the snapshot -/

/-- A change of the snapshot, when there is one. -/
def MachineTopology.onSnapshot (topology : MachineTopology sc) (f : Pb.TopologySnapshot sc → Pb.TopologySnapshot sc) :
    MachineTopology sc := { topology with snapshot := topology.snapshot.map f }

/-- `snapshot.nodes.iter_mut().find(..)` with a change of the node found. -/
def Pb.TopologySnapshot.changeNode (snapshot : Pb.TopologySnapshot sc) (nodeId : String)
    (f : Pb.NodeTopology → Pb.NodeTopology) : Pb.TopologySnapshot sc :=
  { snapshot with nodes := (changeFirst (fun node => node.nodeId = nodeId) f snapshot.nodes).getD snapshot.nodes }

/-- The node a mutation is about: `mutation.node_id`, or else the ID in its node. -/
def Pb.NodeMutation.target (mutation : Pb.NodeMutation) : String :=
  if mutation.nodeId = "" then (mutation.node.map Pb.NodeTopology.nodeId).getD "" else mutation.nodeId

/-- The node that an upsert puts in. -/
def Pb.NodeMutation.replacement (mutation : Pb.NodeMutation) : Pb.NodeTopology :=
  let node := mutation.node.getD { Pb.NodeTopology.default with nodeId := mutation.target }
  if node.nodeId = "" then { node with nodeId := mutation.target } else node

def Pb.TopologySnapshot.mutateNode (snapshot : Pb.TopologySnapshot sc) (mutation : Pb.NodeMutation) :
    Pb.TopologySnapshot sc :=
  if mutation.target = "" then snapshot
  else match Pb.MutationOperation.tryFrom mutation.operation with
    | .delete | .disable => { snapshot with nodes := snapshot.nodes.filter (fun node => node.nodeId ≠ mutation.target) }
    | .unspecified | .upsert =>
      { snapshot with nodes := replaceOrPush (fun node => node.nodeId = mutation.target) mutation.replacement snapshot.nodes }

/-- The users of a node after a mutation of one of them. -/
def Pb.mutateUsers (mutation : Pb.UserMutation) (user : Pb.UserCredential) (users : List Pb.UserCredential) :
    List Pb.UserCredential :=
  let operation := Pb.MutationOperation.tryFrom mutation.operation
  let disabled := Pb.UserStatus.tryFrom user.status = .disabled
  if operation = .delete ∨ operation = .disable ∨ disabled then
    users.filter (fun candidate => candidate.userId ≠ user.userId)
  else replaceOrPush (fun candidate => candidate.userId = user.userId) user users

def Pb.TopologySnapshot.mutateUser (snapshot : Pb.TopologySnapshot sc) (mutation : Pb.UserMutation) :
    Pb.TopologySnapshot sc :=
  match mutation.user with
  | none => snapshot
  | some user =>
    snapshot.changeNode mutation.nodeId (fun node => { node with users := Pb.mutateUsers mutation user node.users })

def Pb.TopologySnapshot.patchRoute (snapshot : Pb.TopologySnapshot sc) (patch : Pb.TopologyRoutePatch sc) :
    Pb.TopologySnapshot sc :=
  { snapshot with
    machineId := if patch.machineId ≠ "" then patch.machineId else snapshot.machineId
    revision := patch.revision, outbounds := patch.outbounds, route := patch.route, dns := patch.dns }

def Pb.TopologySnapshot.replaceNodeUsers (snapshot : Pb.TopologySnapshot sc) (nodeId : String)
    (users : List Topology.UserCredential) : Pb.TopologySnapshot sc :=
  snapshot.changeNode nodeId (fun node => { node with users := users.map UserCredential.toPb })

def replaceNodeUsers (topology : MachineTopology sc) (nodeId : String) (users : List UserCredential) :
    MachineTopology sc := topology.onSnapshot (fun snapshot => snapshot.replaceNodeUsers nodeId users)

def applyNodeMutationToSnapshot (topology : MachineTopology sc) (mutation : Pb.NodeMutation) : MachineTopology sc :=
  topology.onSnapshot (fun snapshot => snapshot.mutateNode mutation)

def applyUserMutationToSnapshot (topology : MachineTopology sc) (mutation : Pb.UserMutation) : MachineTopology sc :=
  topology.onSnapshot (fun snapshot => snapshot.mutateUser mutation)

def applyRoutePatchToSnapshot (topology : MachineTopology sc) (patch : Pb.TopologyRoutePatch sc) : MachineTopology sc :=
  topology.onSnapshot (fun snapshot => snapshot.patchRoute patch)

/-- `snapshot.revision = revision`, when there is a snapshot. -/
def setSnapshotRevision (topology : MachineTopology sc) (revision : UInt64) : MachineTopology sc :=
  topology.onSnapshot (fun snapshot => { snapshot with revision := revision })

/-! ### What the panel is asked for -/

structure FetchError where
  message : String
deriving DecidableEq

/-- One `list_node_users` call, with the users the panel's pages hold or the error that ended it. -/
def listNodeUsers (nodeId : String) (answer : Except FetchError (List Pb.UserCredential)) :
    Except FetchError (List UserCredential) :=
  if nodeId = "" then .error ⟨"list users requires node_id"⟩ else answer.map (List.map UserCredential.ofPb)

/-- One turn of the loop of `fetch_configured_topology`. -/
def loadNodeUsers (answers : Nat → Except FetchError (List Pb.UserCredential)) (topology : MachineTopology sc)
    (entry : String × Nat) : Except FetchError (MachineTopology sc) := do
  let users ← listNodeUsers entry.1 (answers entry.2)
  let loaded := { topology with
    nodes := topology.nodes.modify entry.2 (fun node => { node with users := users }) }
  return replaceNodeUsers loaded entry.1 users

/-- `answers i` is what the panel answers about the node at index `i`. -/
def fetchConfiguredTopology (machineId : String) (config : Pb.MachineConfig sc)
    (answers : Nat → Except FetchError (List Pb.UserCredential)) : Except FetchError (MachineTopology sc) :=
  let topology := fromMachineConfig machineId (some config)
  (topology.nodes.map NodeInstance.nodeId).zipIdx.foldlM (loadNodeUsers answers) topology

end NodeAgent.Topology
