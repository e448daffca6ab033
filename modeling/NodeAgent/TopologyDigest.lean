import NodeAgent.Topology
import NodeAgent.KeyedLists
import Mathlib.Logic.Equiv.List

/-!
The digest of a topology, which the panel and the agent compare. It is taken of a normal
form: the order of nodes and of their users does not count, nor does what the runtime does
not depend on.
-/
namespace NodeAgent.TopologyDigest
open NodeAgent.Topology NodeAgent.KeyedLists
open NodeAgent.Credential (Bytes)

/-! ### Hexadecimal -/

def DIGITS : List Char := "0123456789abcdef".toList

/-- `DIGITS[nibble as usize]`. -/
def digit (nibble : UInt8) : Char := (DIGITS[nibble.toNat]?).getD '0'

/-- `hex::encode`. -/
def hexEncode (bytes : Bytes) : String := String.ofList (bytes.flatMap (fun byte : UInt8 => [digit (byte >>> 4),digit (byte &&& 0x0f)]))

theorem digit_injective {a b : UInt8} (a_lt : a.toNat < 16) (b_lt : b.toNat < 16) (same : digit a = digit b) : a = b := by
  have digits : ∀ i < 16, ∀ j < 16, (DIGITS[i]?).getD '0' = (DIGITS[j]?).getD '0' → i = j := by decide
  exact UInt8.toNat_inj.mp (digits a.toNat a_lt b.toNat b_lt same)

theorem byte_of_nibbles {a b : UInt8} (high : digit (a >>> 4) = digit (b >>> 4)) (low : digit (a &&& 0x0f) = digit (b &&& 0x0f)) : a = b := by
  have shifted (c : UInt8) : (c >>> 4).toNat = c.toNat / 16 := by
    rw [UInt8.toNat_shiftRight]
    exact Nat.shiftRight_eq_div_pow _ 4
  have masked (c : UInt8) : (c &&& 0x0f).toNat = c.toNat % 16 := by
    rw [UInt8.toNat_and]
    exact Nat.and_two_pow_sub_one_eq_mod _ 4
  have a_lt := a.toNat_lt
  have b_lt := b.toNat_lt
  have high := digit_injective (by rw [shifted]; omega) (by rw [shifted]; omega) high
  have low := digit_injective (by rw [masked]; omega) (by rw [masked]; omega) low
  have high := congrArg UInt8.toNat high
  have low := congrArg UInt8.toNat low
  rw [shifted,shifted] at high
  rw [masked,masked] at low
  exact UInt8.toNat_inj.mp (by omega)

theorem hexEncode_injective : Function.Injective hexEncode := by
  intro bytes bytes' same
  have chars : bytes.flatMap (fun byte : UInt8 => [digit (byte >>> 4),digit (byte &&& 0x0f)]) =
      bytes'.flatMap (fun byte : UInt8 => [digit (byte >>> 4),digit (byte &&& 0x0f)]) := String.ofList_injective same
  clear same
  induction bytes generalizing bytes' with
  | nil =>
    cases bytes' with
    | nil => rfl
    | cons b rest => cases chars
  | cons a rest ih =>
    cases bytes' with
    | nil => cases chars
    | cons b rest' =>
      simp only [List.flatMap_cons,List.cons_append,List.nil_append,List.cons.injEq] at chars
      obtain ⟨high,low,others⟩ := chars
      rw [byte_of_nibbles high low,ih others]

/-! ### The digest -/

variable {sc : Sections}

/-- Analysis is a separately refreshed side channel, not proxy topology. -/
def normalizedNode (node : Pb.NodeTopology) : Pb.NodeTopology :=
  { node with trafficAnalysis := none, users := sortByKey Pb.UserCredential.userId node.users }

def normalized (snapshot : Pb.TopologySnapshot sc) : Pb.TopologySnapshot sc :=
  { snapshot with revision := 0, nodes := (sortByKey Pb.NodeTopology.nodeId snapshot.nodes).map normalizedNode }

/-- `TopologySnapshot::default()`. -/
def defaultSnapshot : Pb.TopologySnapshot sc := ⟨"",0,[],[],none,none⟩

/-- `digest::sum`, for the wire encoding and the hash. -/
def sum (encodeToVec : Pb.TopologySnapshot sc → Bytes) (sha256 : Bytes → Bytes) (snapshot : Option (Pb.TopologySnapshot sc)) : String :=
  hexEncode (sha256 (encodeToVec (normalized (snapshot.getD defaultSnapshot))))

theorem normalized_nodes (snapshot : Pb.TopologySnapshot sc) :
    (normalized snapshot).nodes = sortByKey Pb.NodeTopology.nodeId (snapshot.nodes.map normalizedNode) :=
  (@sortByKey_map _ _ _ _ Pb.NodeTopology.nodeId _ normalizedNode (fun _ => rfl) snapshot.nodes).symm

/-! ### What the digest tells -/

def userOf (node : Pb.NodeTopology) (userId : String) : Option Pb.UserCredential := node.users.find? (fun user => user.userId = userId)

def nodeOf (snapshot : Pb.TopologySnapshot sc) (nodeId : String) : Option Pb.NodeTopology :=
  snapshot.nodes.find? (fun node => node.nodeId = nodeId)

/-- The nodes are the same but for the order of users and what is not topology. -/
structure SameNode (node node' : Pb.NodeTopology) : Prop where
  nodeId : node.nodeId = node'.nodeId
  providerId : node.providerId = node'.providerId
  providerConfigVersion : node.providerConfigVersion = node'.providerConfigVersion
  providerConfigJson : node.providerConfigJson = node'.providerConfigJson
  users : ∀ userId, userOf node userId = userOf node' userId

/-- The snapshots are the same but for the order of nodes and of users, and for what is not
    topology. -/
structure SameTopology (a b : Pb.TopologySnapshot sc) : Prop where
  machineId : a.machineId = b.machineId
  nodes : ∀ nodeId, Option.Rel SameNode (nodeOf a nodeId) (nodeOf b nodeId)
  outbounds : a.outbounds = b.outbounds
  route : a.route = b.route
  dns : a.dns = b.dns

/-- Identities name one node, and one user of a node. -/
structure Distinct (snapshot : Pb.TopologySnapshot sc) : Prop where
  nodes : (snapshot.nodes.map Pb.NodeTopology.nodeId).Nodup
  users : ∀ node ∈ snapshot.nodes, (node.users.map Pb.UserCredential.userId).Nodup

theorem normalizedNode_eq_iff {node node' : Pb.NodeTopology} (nodup : (node.users.map Pb.UserCredential.userId).Nodup)
    (nodup' : (node'.users.map Pb.UserCredential.userId).Nodup) : normalizedNode node = normalizedNode node' ↔ SameNode node node' := by
  have users : sortByKey Pb.UserCredential.userId node.users = sortByKey Pb.UserCredential.userId node'.users ↔
      ∀ userId, userOf node userId = userOf node' userId :=
    sortByKey_eq_iff.trans (alike_iff_find? nodup nodup')
  simp only [normalizedNode,Pb.NodeTopology.mk.injEq,users]
  constructor
  · rintro ⟨id,provider,version,config,same,_⟩
    exact ⟨id,provider,version,config,same⟩
  · intro same
    exact ⟨same.nodeId,same.providerId,same.providerConfigVersion,same.providerConfigJson,same.users,trivial⟩

/-- The nodes under one identity are normalized to the same one. -/
theorem nodeOf_normalized {a b : Pb.TopologySnapshot sc} (a_distinct : Distinct a) (b_distinct : Distinct b) (nodeId : String) :
    (nodeOf a nodeId).map normalizedNode = (nodeOf b nodeId).map normalizedNode ↔ Option.Rel SameNode (nodeOf a nodeId) (nodeOf b nodeId) := by
  cases in_a : nodeOf a nodeId with
  | none =>
    cases in_b : nodeOf b nodeId with
    | none => exact ⟨fun _ => .none,fun _ => rfl⟩
    | some node' =>
      constructor
      · intro same
        cases same
      · intro related
        cases related
  | some node =>
    cases in_b : nodeOf b nodeId with
    | none =>
      constructor
      · intro same
        cases same
      · intro related
        cases related
    | some node' =>
      have nodup := a_distinct.users node (List.mem_of_find?_eq_some in_a)
      have nodup' := b_distinct.users node' (List.mem_of_find?_eq_some in_b)
      rw [Option.map_some,Option.map_some,Option.some_inj,normalizedNode_eq_iff nodup nodup']
      constructor
      · exact .some
      · rintro ⟨same⟩
        assumption

theorem normalized_eq_iff {a b : Pb.TopologySnapshot sc} (a_distinct : Distinct a) (b_distinct : Distinct b) :
    normalized a = normalized b ↔ SameTopology a b := by
  have mapped (snapshot : Pb.TopologySnapshot sc) (distinct : Distinct snapshot) :
      ((snapshot.nodes.map normalizedNode).map Pb.NodeTopology.nodeId).Nodup := by
    rw [List.map_map]
    exact distinct.nodes
  have found (snapshot : Pb.TopologySnapshot sc) (nodeId : String) :
      (snapshot.nodes.map normalizedNode).find? (fun node => node.nodeId = nodeId) = (nodeOf snapshot nodeId).map normalizedNode := by
    rw [List.find?_map]
    rfl
  have nodes : (normalized a).nodes = (normalized b).nodes ↔ ∀ nodeId, Option.Rel SameNode (nodeOf a nodeId) (nodeOf b nodeId) := by
    rw [normalized_nodes,normalized_nodes,sortByKey_eq_iff,alike_iff_find? (mapped a a_distinct) (mapped b b_distinct)]
    refine forall_congr' ?_
    intro nodeId
    rw [found,found]
    exact nodeOf_normalized a_distinct b_distinct nodeId
  constructor
  · intro same
    refine ⟨?_,nodes.mp (congrArg Pb.TopologySnapshot.nodes same),?_,?_,?_⟩
    · have machine := congrArg Pb.TopologySnapshot.machineId same
      exact machine
    · have outbounds := congrArg Pb.TopologySnapshot.outbounds same
      exact outbounds
    · have route := congrArg Pb.TopologySnapshot.route same
      exact route
    · have dns := congrArg Pb.TopologySnapshot.dns same
      exact dns
  · rintro ⟨machineId,related,outbounds,route,dns⟩
    have same_nodes := nodes.mpr related
    simp only [normalized] at same_nodes ⊢
    rw [machineId,same_nodes,outbounds,route,dns]

/-- Two topologies have one digest if and only if they are the same topology, whatever their
    revision and the order of nodes and users. -/
theorem sum_eq_iff (encodeToVec : Pb.TopologySnapshot sc → Bytes) (sha256 : Bytes → Bytes) (encodes : Function.Injective encodeToVec)
    (hashes : Function.Injective sha256) (a b : Pb.TopologySnapshot sc) (a_distinct : Distinct a) (b_distinct : Distinct b) :
    sum encodeToVec sha256 (some a) = sum encodeToVec sha256 (some b) ↔ SameTopology a b := by
  rw [← normalized_eq_iff a_distinct b_distinct]
  constructor
  · intro same
    exact encodes (hashes (hexEncode_injective same))
  · intro same
    rw [sum,sum,Option.getD_some,Option.getD_some,same]

/-! ### An injective encoding -/

def noSections : Sections := ⟨Unit,Unit,Unit,Unit,id,id,inferInstance,inferInstance,inferInstance,inferInstance⟩

def textCode (text : String) : List Nat := text.toList.map Char.toNat

def userCode (user : Pb.UserCredential) : List Nat × List Nat × List Nat × Nat × Nat × Nat :=
  ⟨textCode user.userId,textCode user.name,textCode user.credential,user.status.toBitVec.toNat,user.uploadSpeedLimitBps.toNat,
    user.downloadSpeedLimitBps.toNat⟩

def analysisCode (config : Pb.TrafficAnalysisConfig) : Bool × List Nat :=
  ⟨config.enabled,[config.sampleIntervalSeconds.toNat,config.batchMaxEntries.toNat,config.batchMaxBytes.toNat,config.queueMaxBytes.toNat,
    config.queueMaxAgeSeconds.toNat,config.sendBytesPerSecond.toNat,config.sendBurstBytes.toNat,config.sendTimeoutMillis.toNat,
    config.minuteMaxDomainKeys.toNat,config.maxUdpTargets.toNat,config.maxUdpTargetsPerSession.toNat,config.memoryMaxBytes.toNat]⟩

def nodeCode (node : Pb.NodeTopology) :=
  (textCode node.nodeId,textCode node.providerId,node.providerConfigVersion.toNat,node.providerConfigJson.map UInt8.toNat,
    node.users.map userCode,node.trafficAnalysis.map analysisCode)

def outboundCode (outbound : Pb.OutboundConfig) : List Nat × List Nat × List Nat :=
  ⟨textCode outbound.kind,textCode outbound.tag,outbound.optionsJson.map UInt8.toNat⟩

def snapshotCode (snapshot : Pb.TopologySnapshot noSections) :=
  (textCode snapshot.machineId,snapshot.revision.toNat,snapshot.nodes.map nodeCode,snapshot.outbounds.map outboundCode,
    snapshot.route.isSome,snapshot.dns.isSome)

/-- The code of a snapshot, in unary. -/
def unary (snapshot : Pb.TopologySnapshot noSections) : Bytes := List.replicate (Encodable.encode (snapshotCode snapshot)) 0

theorem textCode_injective : Function.Injective textCode :=
  fun _ _ same => String.toList_injective (List.map_injective_iff.mpr (fun _ _ chars => Char.toNat_inj.mp chars) same)

theorem bytes_injective : Function.Injective (List.map UInt8.toNat) := List.map_injective_iff.mpr (fun _ _ => UInt8.toNat_inj.mp)

theorem userCode_injective : Function.Injective userCode := by
  rintro ⟨⟩ ⟨⟩ same
  simpa [userCode,textCode_injective.eq_iff,Int32.toBitVec_inj,BitVec.toNat_inj,UInt64.toNat_inj] using same

theorem analysisCode_injective : Function.Injective analysisCode := by
  rintro ⟨⟩ ⟨⟩ same
  simpa [analysisCode,UInt32.toNat_inj,UInt64.toNat_inj] using same

theorem nodeCode_injective : Function.Injective nodeCode := by
  rintro ⟨⟩ ⟨⟩ same
  simpa [nodeCode,textCode_injective.eq_iff,bytes_injective.eq_iff,(List.map_injective_iff.mpr userCode_injective).eq_iff,
    (Option.map_injective analysisCode_injective).eq_iff,UInt32.toNat_inj] using same

theorem outboundCode_injective : Function.Injective outboundCode := by
  rintro ⟨⟩ ⟨⟩ same
  simpa [outboundCode,textCode_injective.eq_iff,bytes_injective.eq_iff] using same

theorem present_iff {a b : Option Unit} : a.isSome = b.isSome ↔ a = b := by
  cases a <;> cases b <;> simp

theorem snapshotCode_injective : Function.Injective snapshotCode := by
  rintro ⟨_,_,_,_,route,dns⟩ ⟨_,_,_,_,route',dns'⟩ same
  simp only [snapshotCode,Prod.mk.injEq,textCode_injective.eq_iff,UInt64.toNat_inj,(List.map_injective_iff.mpr nodeCode_injective).eq_iff,
    (List.map_injective_iff.mpr outboundCode_injective).eq_iff] at same
  obtain ⟨rfl,rfl,rfl,rfl,routes,dnses⟩ := same
  cases present_iff.mp routes
  cases present_iff.mp dnses
  rfl

theorem unary_injective : Function.Injective unary := by
  intro a b same
  have length := congrArg List.length same
  rw [unary,unary,List.length_replicate,List.length_replicate] at length
  exact snapshotCode_injective (Encodable.encode_injective length)

/-- Two nodes with their users, and the same at another revision and in another order. -/
theorem sum_eq_iff_reordered :
    sum unary id (some (⟨"m",7,[⟨"b","p",1,[],[⟨"v","","",1,0,0⟩,⟨"u","","",1,0,0⟩],none⟩,⟨"a","p",1,[],[],none⟩],[],none,none⟩ :
        Pb.TopologySnapshot noSections)) =
      sum unary id (some ⟨"m",9,[⟨"a","p",1,[],[],none⟩,⟨"b","p",1,[],[⟨"u","","",1,0,0⟩,⟨"v","","",1,0,0⟩],none⟩],[],none,none⟩) := by
  refine (sum_eq_iff unary id unary_injective Function.injective_id _ _ ⟨by decide,by decide⟩ ⟨by decide,by decide⟩).mpr ?_
  refine ⟨rfl,?_,rfl,rfl,rfl⟩
  intro nodeId
  by_cases first : "a" = nodeId
  · subst first
    exact .some ⟨rfl,rfl,rfl,rfl,fun _ => rfl⟩
  · by_cases second : "b" = nodeId
    · subst second
      refine .some ⟨rfl,rfl,rfl,rfl,?_⟩
      intro userId
      by_cases u : "u" = userId
      · subst u
        rfl
      · simp [userOf,List.find?_cons,u]
    · simp [nodeOf,first,second]

end NodeAgent.TopologyDigest
