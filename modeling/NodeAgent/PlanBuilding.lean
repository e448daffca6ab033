import Mathlib.Data.List.Pairwise
import NodeAgent.Inbounds
import NodeAgent.PortRanges

/-!
The forwarding plan of a list of nodes. Every Hysteria2 node is asked for its port and for the
ports that are redirected to it; a plan is made if no two nodes want the same port.
-/
namespace NodeAgent.PlanBuilding
open NodeAgent.Api NodeAgent.FiniteMap NodeAgent.ForwardingPlans NodeAgent.PortRanges NodeAgent.Intervals
open NodeAgent.Inbounds (NodeInstance HYSTERIA2_SALAMANDER_ID)
open NodeAgent.Credential (Bytes)

/-- What a plan reads of the configuration of a provider. -/
structure HoppingConfig where
  listenPort : UInt16
  portHopping : String
deriving DecidableEq

def HoppingConfig.default : HoppingConfig := ⟨0,""⟩

/-- `u8::is_ascii_whitespace`. -/
def isAsciiWhitespace (byte : UInt8) : Bool := byte ∈ ([0x20,0x09,0x0a,0x0c,0x0d] : Bytes)

/-- The ranges without the port that the node listens on. -/
def removeSelfRedirects (ranges : List PortRange) (listenPort : UInt16) : List PortRange :=
  ranges.flatMap (fun range =>
    if !range.contains listenPort then [range]
    else (if range.start < listenPort then [⟨range.start,listenPort - 1⟩] else []) ++
      (if listenPort < range.stop then [⟨listenPort + 1,range.stop⟩] else []))

/-- What is known of the nodes so far. -/
structure Planning where
  redirects : List Redirect
  listenPorts : Map String UInt16
  originalHopping : Map String (List PortRange)
  seenNodeIds : List String

section Building
variable (parse : Bytes → Except String HoppingConfig) (quote : String → String)

/-- `null` stands for the default configuration. -/
def decodeHysteriaConfig (bytes : Bytes) : Except String HoppingConfig :=
  if bytes.filter (fun byte => !isAsciiWhitespace byte) = asBytes "null" then .ok HoppingConfig.default else parse bytes

def planNode (so_far : Planning) (node : NodeInstance) : Except String Planning :=
  if node.nodeId ∈ so_far.seenNodeIds then .error s!"topology contains duplicate node_id {quote node.nodeId}"
  else if node.providerId ≠ HYSTERIA2_SALAMANDER_ID then .ok { so_far with seenNodeIds := node.nodeId :: so_far.seenNodeIds }
  else
    match decodeHysteriaConfig parse node.providerConfig with
    | .error error => .error s!"node {node.nodeId} decode hysteria2 port hopping config: {error}"
    | .ok config =>
      let listenPorts := if config.listenPort ≠ 0 then so_far.listenPorts.insert node.nodeId config.listenPort else so_far.listenPorts
      match parsePortRanges quote config.portHopping with
      | .error error => .error s!"node {node.nodeId} invalid hysteria2 port_hopping: {error}"
      | .ok original =>
        let originalHopping := so_far.originalHopping.insert node.nodeId original
        let ports := removeSelfRedirects original config.listenPort
        if ports.isEmpty then .ok ⟨so_far.redirects,listenPorts,originalHopping,node.nodeId :: so_far.seenNodeIds⟩
        else if config.listenPort = 0 then .error s!"node {node.nodeId} hysteria2 listen_port is required for port hopping"
        else .ok ⟨so_far.redirects ++ [⟨node.nodeId,config.listenPort,ports⟩],listenPorts,originalHopping,node.nodeId :: so_far.seenNodeIds⟩

def planNodes (so_far : Planning) : List NodeInstance → Except String Planning
  | [] => .ok so_far
  | node :: rest => do
    let so_far ← planNode parse quote so_far node
    planNodes so_far rest

/-- The first range that contains the port of another node. -/
def listenerConflict (planned : Planning) : Option String :=
  planned.originalHopping.toList.findSome? (fun hopping => hopping.2.findSome? (fun range =>
    planned.listenPorts.toList.findSome? (fun listener =>
      if hopping.1 ≠ listener.1 ∧ range.contains listener.2 then
        some s!"node {hopping.1} port_hopping {range.display} conflicts with node {listener.1} hysteria2 listen_port {listener.2.toNat}"
      else none)))

/-- The first redirect that has a port in common with an earlier one. -/
def redirectConflict (before : List Redirect) : List Redirect → Option String
  | [] => none
  | right :: rest =>
    match before.findSome? (fun left => (firstOverlap left.ports right.ports).map (fun overlap =>
        s!"hysteria2 port_hopping conflict between nodes {left.nodeId} and {right.nodeId} at {overlap.display}")) with
    | some conflict => some conflict
    | none => redirectConflict (before ++ [right]) rest

def sortedRedirects (redirects : List Redirect) : List Redirect := KeyedLists.sortByKey Redirect.nodeId redirects

def buildPlan (nodes : List NodeInstance) : Except String Plan := do
  let planned ← planNodes parse quote ⟨[],∅,∅,[]⟩ nodes
  let redirects := sortedRedirects planned.redirects
  match listenerConflict planned with
  | some conflict => throw conflict
  | none =>
    match redirectConflict [] redirects with
    | some conflict => throw conflict
    | none => return ⟨redirects⟩

end Building

/-! ### Ranges without one port -/

/-- One range without a port. -/
def splitAround (range : PortRange) (port : UInt16) : List PortRange :=
  if !range.contains port then [range]
  else (if range.start < port then [⟨range.start,port - 1⟩] else []) ++ (if port < range.stop then [⟨port + 1,range.stop⟩] else [])

theorem contains_iff {range : PortRange} {port : UInt16} : range.contains port ↔ port.toNat ∈ (interval range).set := by
  simp [PortRange.contains,Intervals.Interval.set,interval,UInt16.le_iff_toNat_le]

/-- The pieces of a range are within it and have all its ports but one. -/
structure Pieces (range : PortRange) (port : UInt16) (pieces : List (Intervals.Interval ℕ)) : Prop where
  ordered : Ordered pieces
  same : denoted pieces = (interval range).set \ {port.toNat}
  within : ∀ piece ∈ pieces, range.start.toNat ≤ piece.start ∧ piece.stop ≤ range.stop.toNat

theorem toNat_pred {a b : UInt16} (less : a < b) : (b - 1).toNat = b.toNat - 1 := by
  rw [UInt16.lt_iff_toNat_lt] at less
  rw [UInt16.toNat_sub_of_le]
  · rfl
  · rw [UInt16.le_iff_toNat_le]
    show 1 ≤ b.toNat
    omega

theorem toNat_succ {a b : UInt16} (less : a < b) : (a + 1).toNat = a.toNat + 1 := by
  have bounded := b.toNat_lt
  rw [UInt16.lt_iff_toNat_lt] at less
  rw [UInt16.toNat_add]
  show (a.toNat + 1) % 2 ^ 16 = a.toNat + 1
  omega

/-- What is left of an interval before and after one of its elements. -/
def around (a p b : ℕ) : List (Intervals.Interval ℕ) := (if a < p then [⟨a,p - 1⟩] else []) ++ (if p < b then [⟨p + 1,b⟩] else [])

theorem around_spec {a p b : ℕ} (after : a ≤ p) (before : p ≤ b) : Ordered (around a p b) ∧
    denoted (around a p b) = Set.Icc a b \ {p} ∧ ∀ piece ∈ around a p b, a ≤ piece.start ∧ piece.stop ≤ b := by
  unfold around
  refine ⟨⟨?_,?_⟩,?_,?_⟩
  · intro i member
    rcases List.mem_append.mp member with low | high
    · split at low
      · rw [List.mem_singleton.mp low]
        dsimp only
        omega
      · cases low
    · split at high
      · rw [List.mem_singleton.mp high]
        dsimp only
        omega
      · cases high
  · split <;> split
    · exact List.pairwise_pair.mpr (by dsimp only; omega)
    · exact List.pairwise_singleton _ _
    · exact List.pairwise_singleton _ _
    · exact .nil
  · ext x
    rw [denoted_append]
    by_cases low : a < p <;> by_cases high : p < b <;> simp [low,high,Intervals.Interval.set] <;> omega
  · intro i member
    rcases List.mem_append.mp member with low | high
    · split at low
      · rw [List.mem_singleton.mp low]
        dsimp only
        omega
      · cases low
    · split at high
      · rw [List.mem_singleton.mp high]
        dsimp only
        omega
      · cases high

theorem splitAround_pieces {range : PortRange} {port : UInt16} (ordered : range.start.toNat ≤ range.stop.toNat) :
    Pieces range port ((splitAround range port).map interval) := by
  unfold splitAround
  by_cases inside : range.contains port
  · have member := contains_iff.mp inside
    simp only [Intervals.Interval.set,interval,Set.mem_Icc] at member
    have low : (if range.start < port then [PortRange.mk range.start (port - 1)] else []).map interval =
        if range.start.toNat < port.toNat then [⟨range.start.toNat,port.toNat - 1⟩] else [] := by
      split
      · next less => rw [if_pos (UInt16.lt_iff_toNat_lt.mp less),List.map_singleton,interval,toNat_pred less]
      · next less => rw [if_neg (fun more => less (UInt16.lt_iff_toNat_lt.mpr more)),List.map_nil]
    have high : (if port < range.stop then [PortRange.mk (port + 1) range.stop] else []).map interval =
        if port.toNat < range.stop.toNat then [⟨port.toNat + 1,range.stop.toNat⟩] else [] := by
      split
      · next less => rw [if_pos (UInt16.lt_iff_toNat_lt.mp less),List.map_singleton,interval,toNat_succ less]
      · next less => rw [if_neg (fun more => less (UInt16.lt_iff_toNat_lt.mpr more)),List.map_nil]
    rw [inside,Bool.not_true,if_neg (by simp),List.map_append,low,high]
    obtain ⟨pieces_ordered,same,within⟩ := around_spec member.1 member.2
    exact ⟨pieces_ordered,same,within⟩
  · have outside : port.toNat ∉ (interval range).set := fun member => inside (contains_iff.mpr member)
    rw [Bool.eq_false_iff.mpr inside,Bool.not_false,if_pos rfl,List.map_singleton]
    refine ⟨⟨?_,List.pairwise_singleton _ _⟩,?_,?_⟩
    · intro i member
      rw [List.mem_singleton.mp member]
      exact ordered
    · rw [denoted_cons,denoted_nil,Set.union_empty]
      exact (Set.sdiff_singleton_eq_self outside).symm
    · intro i member
      rw [List.mem_singleton.mp member]
      exact ⟨le_rfl,le_rfl⟩

/-- The ranges keep their order, and lose one port. -/
theorem removeSelfRedirects_spec {ranges : List PortRange} {port : UInt16} (ordered : Ordered (ranges.map interval)) :
    Ordered ((removeSelfRedirects ranges port).map interval) ∧
      denoted ((removeSelfRedirects ranges port).map interval) = denoted (ranges.map interval) \ {port.toNat} := by
  suffices whole : Ordered ((removeSelfRedirects ranges port).map interval) ∧
      denoted ((removeSelfRedirects ranges port).map interval) = denoted (ranges.map interval) \ {port.toNat} ∧
      ∀ piece ∈ (removeSelfRedirects ranges port).map interval, ∃ range ∈ ranges, range.start.toNat ≤ piece.start from ⟨whole.1,whole.2.1⟩
  induction ranges with
  | nil =>
    have none : removeSelfRedirects [] port = [] := rfl
    rw [none]
    exact ⟨⟨by simp,.nil⟩,by simp,by simp⟩
  | cons range rest ih =>
    have unfolded : removeSelfRedirects (range :: rest) port = splitAround range port ++ removeSelfRedirects rest port := rfl
    obtain ⟨rest_ordered,rest_same,rest_within⟩ := ih ordered.tail
    have pieces := @splitAround_pieces range port (ordered.filled _ List.mem_cons_self)
    rw [unfolded,List.map_append]
    refine ⟨Ordered.append pieces.ordered rest_ordered ?_,?_,?_⟩
    · intro i here j there
      obtain ⟨later,listed,after⟩ := rest_within j there
      have before := (List.pairwise_cons.mp ordered.before).1 (interval later) (List.mem_map_of_mem listed)
      exact (pieces.within i here).2.trans_lt (before.trans_le after)
    · rw [denoted_append,pieces.same,rest_same,List.map_cons,denoted_cons,Set.union_sdiff_distrib]
    · intro piece member
      rcases List.mem_append.mp member with here | there
      · exact ⟨range,List.mem_cons_self,(pieces.within piece here).1⟩
      · obtain ⟨later,listed,after⟩ := rest_within piece there
        exact ⟨later,List.mem_cons_of_mem _ listed,after⟩

theorem firstOverlap_none {left right : List PortRange} :
    firstOverlap left right = none ↔ Disjoint (denoted (left.map interval)) (denoted (right.map interval)) := by
  have maxima (a b : UInt16) : (max a b).toNat = max a.toNat b.toNat := toNat_max a b
  have minima (a b : UInt16) : (min a b).toNat = min a.toNat b.toNat := by
    change (if a ≤ b then a else b).toNat = min a.toNat b.toNat
    split
    · next less => exact (min_eq_left (UInt16.le_iff_toNat_le.mp less)).symm
    · next less => exact (min_eq_right (Nat.le_of_not_le (fun le => less (UInt16.le_iff_toNat_le.mpr le)))).symm
  rw [Intervals.disjoint_iff,List.forall_mem_map,firstOverlap,List.findSome?_eq_none_iff]
  refine forall₂_congr (fun first _ => ?_)
  rw [List.forall_mem_map,List.findSome?_eq_none_iff]
  refine forall₂_congr (fun second _ => ?_)
  dsimp only
  rw [ite_eq_right_iff,UInt16.le_iff_toNat_le,maxima,minima]
  simp only [interval,reduceCtorEq,imp_false]

/-! ### Nodes -/

section Nodes
variable (parse : Bytes → Except String HoppingConfig) (quote : String → String)

/-- What a Hysteria2 node asks for: its configuration and its ranges. -/
def configured (node : NodeInstance) : Option (HoppingConfig × List PortRange) :=
  if node.providerId = HYSTERIA2_SALAMANDER_ID then
    (decodeHysteriaConfig parse node.providerConfig).toOption.bind (fun config =>
      (parsePortRanges quote config.portHopping).toOption.map (fun original => (config,original)))
  else none

def redirectOf (node : NodeInstance) : Option Redirect :=
  (configured parse quote node).bind (fun (config,original) =>
    let ports := removeSelfRedirects original config.listenPort
    if ports.isEmpty then none else some ⟨node.nodeId,config.listenPort,ports⟩)

/-- A node that a plan can be made with: a Hysteria2 node has a configuration, and a port if there is something to redirect. -/
def Admitted (node : NodeInstance) : Prop :=
  node.providerId = HYSTERIA2_SALAMANDER_ID → ∃ config original, configured parse quote node = some (config,original) ∧
    (removeSelfRedirects original config.listenPort ≠ [] → config.listenPort ≠ 0)

/-- What is known with one more node. -/
def next (so_far : Planning) (node : NodeInstance) : Planning where
  redirects := so_far.redirects ++ (redirectOf parse quote node).toList
  listenPorts := match configured parse quote node with
    | some (config,_) => if config.listenPort ≠ 0 then so_far.listenPorts.insert node.nodeId config.listenPort else so_far.listenPorts
    | none => so_far.listenPorts
  originalHopping := match configured parse quote node with
    | some (_,original) => so_far.originalHopping.insert node.nodeId original
    | none => so_far.originalHopping
  seenNodeIds := node.nodeId :: so_far.seenNodeIds

variable {parse quote} {so_far after : Planning} {node : NodeInstance}

theorem planNode_spec : planNode parse quote so_far node = .ok after ↔
    node.nodeId ∉ so_far.seenNodeIds ∧ Admitted parse quote node ∧ after = next parse quote so_far node := by
  unfold planNode
  by_cases seen : node.nodeId ∈ so_far.seenNodeIds
  · simp [seen]
  rw [if_neg seen]
  by_cases provider : node.providerId = HYSTERIA2_SALAMANDER_ID
  · rw [if_neg (by simpa using provider)]
    have asked : configured parse quote node = (decodeHysteriaConfig parse node.providerConfig).toOption.bind (fun config =>
        (parsePortRanges quote config.portHopping).toOption.map (fun original => (config,original))) := if_pos provider
    unfold Admitted next redirectOf
    rw [asked]
    cases decoded : decodeHysteriaConfig parse node.providerConfig with
    | error e => simp [provider,Except.toOption]
    | ok config =>
      cases parsed : parsePortRanges quote config.portHopping with
      | error e => simp [provider,parsed,Except.toOption]
      | ok original =>
        simp only [Except.toOption,Option.bind_some,Option.map_some,provider,true_imp_iff,parsed]
        by_cases nothing : removeSelfRedirects original config.listenPort = []
        · rw [nothing]
          constructor
          · intro done
            cases done
            exact ⟨seen,⟨config,original,rfl,fun some => absurd nothing some⟩,by simp⟩
          · rintro ⟨_,_,rfl⟩
            simp
        · by_cases silent : config.listenPort = 0
          · rw [silent] at nothing
            simp [nothing,silent]
          · rw [if_neg (by simpa using nothing),if_neg silent]
            constructor
            · intro done
              cases done
              exact ⟨seen,⟨config,original,rfl,fun _ => silent⟩,by simp [nothing]⟩
            · rintro ⟨_,_,rfl⟩
              simp [nothing]
  · rw [if_pos (by simpa using provider)]
    have none : configured parse quote node = none := if_neg provider
    unfold Admitted next redirectOf
    rw [none]
    constructor
    · intro done
      cases done
      exact ⟨seen,fun asked => absurd asked provider,by simp⟩
    · rintro ⟨_,_,rfl⟩
      simp

/-- What is known after the nodes of a list. -/
structure Knows (parse : Bytes → Except String HoppingConfig) (quote : String → String) (nodes : List NodeInstance) (planned : Planning) : Prop where
  seen : ∀ id, id ∈ planned.seenNodeIds ↔ id ∈ nodes.map NodeInstance.nodeId
  distinct : (nodes.map NodeInstance.nodeId).Nodup
  admitted : ∀ node ∈ nodes, Admitted parse quote node
  redirects : planned.redirects = nodes.filterMap (redirectOf parse quote)
  listeners : ∀ id port, planned.listenPorts[id]? = some port ↔
    ∃ node ∈ nodes, node.nodeId = id ∧ ∃ config original, configured parse quote node = some (config,original) ∧ config.listenPort = port ∧ port ≠ 0
  hopping : ∀ id ranges, planned.originalHopping[id]? = some ranges ↔
    ∃ node ∈ nodes, node.nodeId = id ∧ ∃ config, configured parse quote node = some (config,ranges)

theorem knows_nothing : Knows parse quote [] ⟨[],∅,∅,[]⟩ :=
  ⟨by simp,List.nodup_nil,by simp,rfl,by simp,by simp⟩

theorem Knows.next {nodes : List NodeInstance} (knows : Knows parse quote nodes so_far) (fresh : node.nodeId ∉ so_far.seenNodeIds)
    (admitted : Admitted parse quote node) : Knows parse quote (nodes ++ [node]) (PlanBuilding.next parse quote so_far node) := by
  have new : node.nodeId ∉ nodes.map NodeInstance.nodeId := fun listed => fresh ((knows.seen _).mpr listed)
  have other {earlier : NodeInstance} (member : earlier ∈ nodes) : earlier.nodeId ≠ node.nodeId :=
    fun same => new (same ▸ List.mem_map_of_mem member)
  refine ⟨?_,?_,?_,?_,?_,?_⟩
  · intro id
    rw [List.map_append,List.map_singleton,List.mem_append,List.mem_singleton,← knows.seen]
    exact List.mem_cons.trans or_comm
  · rw [List.map_append,List.nodup_append]
    refine ⟨knows.distinct,List.nodup_singleton _,?_⟩
    intro id here id' there same
    rw [List.map_singleton,List.mem_singleton] at there
    exact new (there ▸ same ▸ here)
  · intro one member
    rcases List.mem_append.mp member with before | last
    · exact knows.admitted one before
    · rw [List.mem_singleton.mp last]
      exact admitted
  · rw [List.filterMap_append,← knows.redirects]
    rfl
  · intro id port
    simp only [List.mem_append,List.mem_singleton,or_and_right,exists_or,exists_eq_left,← knows.listeners]
    cases asked : configured parse quote node with
    | none => simp [PlanBuilding.next,asked]
    | some asks =>
      obtain ⟨config,original⟩ := asks
      have kept : so_far.listenPorts[node.nodeId]? = none := by
        rw [Option.eq_none_iff_forall_ne_some]
        intro port' there
        obtain ⟨earlier,member,same,_⟩ := (knows.listeners _ _).mp there
        exact other member same
      simp only [PlanBuilding.next,asked]
      by_cases silent : config.listenPort = 0
      · rw [if_neg (by simpa using silent)]
        refine ⟨.inl,?_⟩
        rintro (before | ⟨rfl,_,_,same,rfl,positive⟩)
        · exact before
        · cases same
          exact absurd silent positive
      · rw [if_pos silent,lookup_insert]
        by_cases own : node.nodeId = id
        · subst own
          rw [if_pos rfl,kept]
          constructor
          · intro same
            cases same
            exact .inr ⟨rfl,config,original,rfl,rfl,silent⟩
          · rintro (impossible | ⟨_,_,_,same,rfl,_⟩)
            · cases impossible
            · cases same
              rfl
        · rw [if_neg own]
          exact ⟨.inl,fun either => either.resolve_right (fun last => own last.1)⟩
  · intro id ranges
    simp only [List.mem_append,List.mem_singleton,or_and_right,exists_or,exists_eq_left,← knows.hopping]
    cases asked : configured parse quote node with
    | none => simp [PlanBuilding.next,asked]
    | some asks =>
      obtain ⟨config,original⟩ := asks
      have kept : so_far.originalHopping[node.nodeId]? = none := by
        rw [Option.eq_none_iff_forall_ne_some]
        intro ranges' there
        obtain ⟨earlier,member,same,_⟩ := (knows.hopping _ _).mp there
        exact other member same
      simp only [PlanBuilding.next,asked]
      rw [lookup_insert]
      by_cases own : node.nodeId = id
      · subst own
        rw [if_pos rfl,kept]
        constructor
        · intro same
          cases same
          exact .inr ⟨rfl,config,rfl⟩
        · rintro (impossible | ⟨_,_,same⟩)
          · cases impossible
          · cases same
            rfl
      · rw [if_neg own]
        exact ⟨.inl,fun either => either.resolve_right (fun last => own last.1)⟩

theorem Knows.planNodes {nodes rest : List NodeInstance} (knows : Knows parse quote nodes so_far)
    (done : planNodes parse quote so_far rest = .ok after) : Knows parse quote (nodes ++ rest) after := by
  induction rest generalizing nodes so_far with
  | nil =>
    cases done
    rw [List.append_nil]
    exact knows
  | cons node rest ih =>
    obtain ⟨middle,first,done⟩ := Outbounds.bind_ok done
    obtain ⟨fresh,admitted,rfl⟩ := planNode_spec.mp first
    have later := ih (knows.next fresh admitted) done
    rw [List.append_assoc] at later
    exact later

theorem planNodes_ok {rest : List NodeInstance} (fresh : ∀ node ∈ rest, node.nodeId ∉ so_far.seenNodeIds)
    (distinct : (rest.map NodeInstance.nodeId).Nodup) (admitted : ∀ node ∈ rest, Admitted parse quote node) :
    ∃ after, planNodes parse quote so_far rest = .ok after := by
  induction rest generalizing so_far with
  | nil => exact ⟨so_far,rfl⟩
  | cons node rest ih =>
    have first := planNode_spec.mpr ⟨fresh node List.mem_cons_self,admitted node List.mem_cons_self,rfl⟩
    obtain ⟨new,others⟩ := List.nodup_cons.mp distinct
    obtain ⟨after,done⟩ := @ih (PlanBuilding.next parse quote so_far node) (by
      intro later member
      simp only [PlanBuilding.next,List.mem_cons,not_or]
      exact ⟨fun same => new (same ▸ List.mem_map_of_mem member),fresh later (List.mem_cons_of_mem _ member)⟩) others
      (fun later member => admitted later (List.mem_cons_of_mem _ member))
    exact ⟨after,by rw [PlanBuilding.planNodes,first]; exact done⟩

/-! ### Conflicts -/

theorem listenerConflict_none {planned : Planning} : listenerConflict planned = none ↔
    ∀ (id : String) (ranges : List PortRange), planned.originalHopping[id]? = some ranges → ∀ range ∈ ranges,
      ∀ (other : String) (port : UInt16), planned.listenPorts[other]? = some port → id ≠ other → ¬ range.contains port := by
  unfold listenerConflict
  rw [List.findSome?_eq_none_iff]
  constructor
  · intro none id ranges hopping range member other port listener different inside
    have inner := none (id,ranges) ((mem_toList _).mpr hopping)
    rw [List.findSome?_eq_none_iff] at inner
    have last := inner range member
    rw [List.findSome?_eq_none_iff] at last
    have conflict := last (other,port) ((mem_toList _).mpr listener)
    rw [if_pos ⟨different,inside⟩] at conflict
    cases conflict
  · rintro none ⟨id,ranges⟩ hopping
    rw [List.findSome?_eq_none_iff]
    intro range member
    rw [List.findSome?_eq_none_iff]
    rintro ⟨other,port⟩ listener
    exact if_neg (fun both => none id ranges ((mem_toList _).mp hopping) range member other port ((mem_toList _).mp listener) both.1 both.2)

theorem redirectConflict_none {before redirects : List Redirect} : redirectConflict before redirects = none ↔
    (∀ right ∈ redirects, ∀ left ∈ before, firstOverlap left.ports right.ports = none) ∧
      redirects.Pairwise (fun left right => firstOverlap left.ports right.ports = none) := by
  induction redirects generalizing before with
  | nil => simp [redirectConflict]
  | cons right rest ih =>
    rw [redirectConflict,List.pairwise_cons]
    cases found : before.findSome? (fun left => (firstOverlap left.ports right.ports).map (fun overlap =>
        s!"hysteria2 port_hopping conflict between nodes {left.nodeId} and {right.nodeId} at {overlap.display}")) with
    | some conflict =>
      constructor
      · intro impossible
        cases impossible
      · rintro ⟨none,_⟩
        obtain ⟨left,member,shown⟩ := List.exists_of_findSome?_eq_some found
        rw [none right List.mem_cons_self left member] at shown
        cases shown
    | none =>
      rw [List.findSome?_eq_none_iff] at found
      dsimp only
      rw [ih]
      constructor
      · rintro ⟨none,apart⟩
        refine ⟨?_,fun later member => none later member right (List.mem_append_right _ List.mem_cons_self),apart⟩
        intro one member left there
        rcases List.mem_cons.mp member with rfl | later
        · exact Option.map_eq_none_iff.mp (found left there)
        · exact none one later left (List.mem_append_left _ there)
      · rintro ⟨none,first,apart⟩
        refine ⟨?_,apart⟩
        intro one member left there
        rcases List.mem_append.mp there with earlier | last
        · exact none one (List.mem_cons_of_mem _ member) left earlier
        · rw [List.mem_singleton.mp last]
          exact first one member

/-! ### Plans -/

/-- The configuration of a Hysteria2 node. -/
def Configures (parse : Bytes → Except String HoppingConfig) (node : NodeInstance) (config : HoppingConfig) : Prop :=
  node.providerId = HYSTERIA2_SALAMANDER_ID ∧ decodeHysteriaConfig parse node.providerConfig = .ok config

/-- The ports that a node asks for, without the one that it listens on. -/
def redirected (config : HoppingConfig) : Set ℕ := namedPorts config.portHopping \ {config.listenPort.toNat}

/-- The nodes that a plan can be made for. -/
structure Plannable (parse : Bytes → Except String HoppingConfig) (quote : String → String) (nodes : List NodeInstance) : Prop where
  distinct : (nodes.map NodeInstance.nodeId).Nodup
  decodes : ∀ node ∈ nodes, node.providerId = HYSTERIA2_SALAMANDER_ID →
    ∃ config, Configures parse node config ∧ ∃ ranges, parsePortRanges quote config.portHopping = .ok ranges
  listens : ∀ node ∈ nodes, ∀ config, Configures parse node config → (redirected config).Nonempty → config.listenPort ≠ 0
  apart : ∀ node ∈ nodes, ∀ other ∈ nodes, node.nodeId ≠ other.nodeId → ∀ config config', Configures parse node config →
    Configures parse other config' → config'.listenPort.toNat ∉ namedPorts config.portHopping
  disjoint : ∀ node ∈ nodes, ∀ other ∈ nodes, node.nodeId ≠ other.nodeId → ∀ config config', Configures parse node config →
    Configures parse other config' → Disjoint (redirected config) (redirected config')

theorem configured_iff {config : HoppingConfig} {original : List PortRange} : configured parse quote node = some (config,original) ↔
    Configures parse node config ∧ parsePortRanges quote config.portHopping = .ok original := by
  unfold configured Configures
  by_cases provider : node.providerId = HYSTERIA2_SALAMANDER_ID
  · rw [if_pos provider]
    cases decoded : decodeHysteriaConfig parse node.providerConfig with
    | error e => simp [Except.toOption]
    | ok config' =>
      cases parsed : parsePortRanges quote config'.portHopping with
      | error e =>
        constructor
        · intro impossible
          simp [Except.toOption,parsed] at impossible
        · rintro ⟨⟨_,same⟩,done⟩
          cases same
          rw [parsed] at done
          cases done
      | ok original' =>
        simp only [Except.toOption,Option.bind_some,parsed,Option.map_some,Option.some.injEq,Prod.mk.injEq]
        constructor
        · rintro ⟨rfl,rfl⟩
          exact ⟨⟨provider,rfl⟩,parsed⟩
        · rintro ⟨⟨_,same⟩,done⟩
          cases same
          rw [parsed] at done
          cases done
          exact ⟨rfl,rfl⟩
  · rw [if_neg provider]
    simp [provider]

/-- The ranges of a node that is asked: its ports, and those that are redirected. -/
theorem configured_ports {config : HoppingConfig} {original : List PortRange} (asked : configured parse quote node = some (config,original)) :
    denoted (original.map interval) = namedPorts config.portHopping ∧
      Ordered ((removeSelfRedirects original config.listenPort).map interval) ∧
      denoted ((removeSelfRedirects original config.listenPort).map interval) = redirected config := by
  obtain ⟨_,gapped,same⟩ := parsePortRanges_spec.mp (configured_iff.mp asked).2
  obtain ⟨ordered,own⟩ := @removeSelfRedirects_spec original config.listenPort gapped.ordered
  exact ⟨same,ordered,own.trans (by rw [same]; rfl)⟩

/-- One redirect for a node, of the ports that it asks for. -/
structure Redirects (config : HoppingConfig) (node : NodeInstance) (redirect : Redirect) : Prop where
  nodeId : redirect.nodeId = node.nodeId
  listenPort : redirect.listenPort = config.listenPort
  ordered : Ordered (redirect.ports.map interval)
  exact_ : denoted (redirect.ports.map interval) = redirected config

theorem redirectOf_some {redirect : Redirect} (made : redirectOf parse quote node = some redirect) :
    ∃ config, Configures parse node config ∧ (redirected config).Nonempty ∧ Redirects config node redirect := by
  obtain ⟨⟨config,original⟩,asked,made⟩ := Option.bind_eq_some_iff.mp made
  dsimp only at made
  obtain ⟨_,ordered,same⟩ := configured_ports asked
  split at made
  · cases made
  · next filled =>
    cases made
    refine ⟨config,(configured_iff.mp asked).1,?_,rfl,rfl,ordered,same⟩
    rw [← same,ordered.denoted_nonempty]
    simpa using filled

theorem redirectOf_nonempty {config : HoppingConfig} {original : List PortRange} (asked : configured parse quote node = some (config,original))
    (some : (redirected config).Nonempty) : ∃ redirect, redirectOf parse quote node = .some redirect := by
  obtain ⟨_,ordered,same⟩ := configured_ports asked
  rw [← same,ordered.denoted_nonempty] at some
  unfold redirectOf
  rw [asked,Option.bind_some]
  dsimp only
  rw [if_neg (by simpa using some)]
  exact ⟨_,rfl⟩

theorem admitted_iff : Admitted parse quote node ↔ (node.providerId = HYSTERIA2_SALAMANDER_ID →
    ∃ config, Configures parse node config ∧ (∃ ranges, parsePortRanges quote config.portHopping = .ok ranges) ∧
      ((redirected config).Nonempty → config.listenPort ≠ 0)) := by
  refine imp_congr_right (fun provider => exists_congr (fun config => ?_))
  constructor
  · rintro ⟨original,asked,listens⟩
    obtain ⟨_,ordered,same⟩ := configured_ports asked
    obtain ⟨own,parsed⟩ := configured_iff.mp asked
    refine ⟨own,⟨original,parsed⟩,fun some => listens ?_⟩
    rw [← same,ordered.denoted_nonempty] at some
    simpa using some
  · rintro ⟨own,⟨original,parsed⟩,listens⟩
    have asked := configured_iff.mpr ⟨own,parsed⟩
    obtain ⟨_,ordered,same⟩ := configured_ports asked
    refine ⟨original,asked,fun some => listens ?_⟩
    rw [← same,ordered.denoted_nonempty]
    simpa using some

theorem Configures.unique {config config' : HoppingConfig} (first : Configures parse node config) (second : Configures parse node config') :
    config = config' := Except.ok.inj (first.2.symm.trans second.2)

theorem namedPorts_positive {expression : String} {port : ℕ} (named : port ∈ namedPorts expression) : 1 ≤ port := by
  obtain ⟨_,item,_,a,b,named,after,_⟩ := named
  exact named.bounded.1.trans after

section Whole
variable {nodes : List NodeInstance} {planned : Planning}

/-- A node of the list is asked when it has a configuration. -/
theorem Knows.asked (knows : Knows parse quote nodes planned) (member : node ∈ nodes) {config : HoppingConfig} (own : Configures parse node config) :
    ∃ original, configured parse quote node = some (config,original) := by
  obtain ⟨config',original,asked,_⟩ := knows.admitted node member own.1
  cases own.unique (configured_iff.mp asked).1
  exact ⟨original,asked⟩

theorem Knows.listenerConflict (knows : Knows parse quote nodes planned) : listenerConflict planned = none ↔
    ∀ node ∈ nodes, ∀ other ∈ nodes, node.nodeId ≠ other.nodeId → ∀ config config', Configures parse node config →
      Configures parse other config' → config'.listenPort.toNat ∉ namedPorts config.portHopping := by
  rw [listenerConflict_none]
  constructor
  · intro none node member other member' different config config' own own' named
    obtain ⟨original,asked⟩ := knows.asked member own
    obtain ⟨original',asked'⟩ := knows.asked member' own'
    have hopping := (knows.hopping node.nodeId original).mpr ⟨node,member,rfl,config,asked⟩
    have positive : config'.listenPort ≠ 0 := by
      intro silent
      rw [silent] at named
      exact absurd (namedPorts_positive named) (by decide)
    have listener := (knows.listeners other.nodeId config'.listenPort).mpr ⟨other,member',rfl,config',original',asked',rfl,positive⟩
    rw [← (configured_ports asked).1] at named
    obtain ⟨i,there,inside⟩ := named
    obtain ⟨range,listed,rfl⟩ := List.mem_map.mp there
    exact none _ _ hopping range listed _ _ listener different (contains_iff.mpr inside)
  · intro apart id ranges hopping range listed id' port listener different inside
    obtain ⟨node,member,rfl,config,asked⟩ := (knows.hopping _ _).mp hopping
    obtain ⟨other,member',rfl,config',original',asked',rfl,_⟩ := (knows.listeners _ _).mp listener
    refine apart node member other member' different config config' (configured_iff.mp asked).1 (configured_iff.mp asked').1 ?_
    rw [← (configured_ports asked).1]
    exact ⟨interval range,List.mem_map_of_mem listed,contains_iff.mp inside⟩

/-- Two redirects without a common port. -/
def Separate (left right : Redirect) : Prop := Disjoint (denoted (left.ports.map interval)) (denoted (right.ports.map interval))

instance : Std.Symm Separate := ⟨fun _ _ apart => Disjoint.symm apart⟩

theorem Knows.redirectConflict (knows : Knows parse quote nodes planned) : redirectConflict [] (sortedRedirects planned.redirects) = none ↔
    ∀ node ∈ nodes, ∀ other ∈ nodes, node.nodeId ≠ other.nodeId → ∀ config config', Configures parse node config →
      Configures parse other config' → Disjoint (redirected config) (redirected config') := by
  have pairs : PlanBuilding.redirectConflict [] (sortedRedirects planned.redirects) = none ↔ planned.redirects.Pairwise Separate := by
    rw [redirectConflict_none]
    simp only [List.not_mem_nil,false_imp_iff,implies_true,true_and,firstOverlap_none]
    exact (KeyedLists.sortByKey_perm planned.redirects).pairwise_iff (fun apart => Disjoint.symm apart)
  rw [pairs,knows.redirects,List.pairwise_filterMap]
  have separate {node other : NodeInstance} (member : node ∈ nodes) (member' : other ∈ nodes) :
      (∀ left, redirectOf parse quote node = some left → ∀ right, redirectOf parse quote other = some right → Separate left right) ↔
        ∀ config config', Configures parse node config → Configures parse other config' → Disjoint (redirected config) (redirected config') := by
    constructor
    · intro apart config config' own own'
      rcases (redirected config).eq_empty_or_nonempty with none | some
      · rw [none]
        exact Set.empty_disjoint _
      rcases (redirected config').eq_empty_or_nonempty with none' | some'
      · rw [none']
        exact Set.disjoint_empty _
      obtain ⟨_,asked⟩ := knows.asked member own
      obtain ⟨_,asked'⟩ := knows.asked member' own'
      obtain ⟨left,made⟩ := redirectOf_nonempty asked some
      obtain ⟨right,made'⟩ := redirectOf_nonempty asked' some'
      obtain ⟨config₁,own₁,_,redirects⟩ := redirectOf_some made
      obtain ⟨config₂,own₂,_,redirects'⟩ := redirectOf_some made'
      have disjoint := apart left made right made'
      rw [Separate,redirects.exact_,redirects'.exact_] at disjoint
      rw [own.unique own₁,own'.unique own₂]
      exact disjoint
    · intro apart left made right made'
      obtain ⟨config,own,_,redirects⟩ := redirectOf_some made
      obtain ⟨config',own',_,redirects'⟩ := redirectOf_some made'
      rw [Separate,redirects.exact_,redirects'.exact_]
      exact apart config config' own own'
  have distinct : nodes.Pairwise (fun node other => node.nodeId ≠ other.nodeId) := List.pairwise_map.mp knows.distinct
  constructor
  · intro apart node member other member' different
    refine (separate member member').mp ?_
    have symm : Std.Symm (fun node other : NodeInstance => ∀ left, redirectOf parse quote node = some left →
        ∀ right, redirectOf parse quote other = some right → Separate left right) :=
      ⟨fun _ _ holds left made right made' => Disjoint.symm (holds right made' left made)⟩
    exact apart.forall member member' (fun same => different (congrArg NodeInstance.nodeId same))
  · intro apart
    exact distinct.imp_of_mem (fun member member' different => (separate member member').mpr (apart _ member _ member' different))

/-- A plan is made exactly for the nodes that one can be made for, with the redirects of the nodes in order. -/
theorem buildPlan_spec {plan : Plan} : buildPlan parse quote nodes = .ok plan ↔
    Plannable parse quote nodes ∧ plan.redirects = sortedRedirects (nodes.filterMap (redirectOf parse quote)) := by
  have finish {planned : Planning} (done : PlanBuilding.planNodes parse quote ⟨[],∅,∅,[]⟩ nodes = .ok planned) :
      buildPlan parse quote nodes = .ok plan ↔ PlanBuilding.listenerConflict planned = none ∧
        PlanBuilding.redirectConflict [] (sortedRedirects planned.redirects) = none ∧ plan.redirects = sortedRedirects planned.redirects := by
    unfold buildPlan
    rw [done,Outbounds.ok_bind]
    cases PlanBuilding.listenerConflict planned with
    | some conflict =>
      constructor
      · intro impossible
        cases impossible
      · rintro ⟨impossible,_⟩
        cases impossible
    | none =>
      dsimp only
      cases PlanBuilding.redirectConflict [] (sortedRedirects planned.redirects) with
      | some conflict =>
        constructor
        · intro impossible
          cases impossible
        · rintro ⟨_,impossible,_⟩
          cases impossible
      | none =>
        constructor
        · intro done
          cases done
          exact ⟨rfl,rfl,rfl⟩
        · rintro ⟨_,_,same⟩
          rw [← same]
          rfl
  constructor
  · intro done
    obtain ⟨planned,first,_⟩ := Outbounds.bind_ok done
    have knows := (@knows_nothing parse quote).planNodes first
    rw [List.nil_append] at knows
    obtain ⟨listeners,redirects,same⟩ := (finish first).mp done
    have each := fun node member => admitted_iff.mp (knows.admitted node member)
    refine ⟨⟨knows.distinct,?_,?_,knows.listenerConflict.mp listeners,knows.redirectConflict.mp redirects⟩,same.trans (by rw [knows.redirects])⟩
    · intro node member provider
      obtain ⟨config,own,parsed,_⟩ := each node member provider
      exact ⟨config,own,parsed⟩
    · intro node member config own
      obtain ⟨config',own',_,listens⟩ := each node member own.1
      rw [own.unique own']
      exact listens
  · rintro ⟨plannable,same⟩
    have admitted : ∀ node ∈ nodes, Admitted parse quote node := by
      intro node member
      rw [admitted_iff]
      intro provider
      obtain ⟨config,own,parsed⟩ := plannable.decodes node member provider
      exact ⟨config,own,parsed,plannable.listens node member config own⟩
    obtain ⟨planned,first⟩ := @planNodes_ok parse quote ⟨[],∅,∅,[]⟩ nodes (by simp) plannable.distinct admitted
    have knows := (@knows_nothing parse quote).planNodes first
    rw [List.nil_append] at knows
    refine (finish first).mpr ⟨knows.listenerConflict.mpr plannable.apart,knows.redirectConflict.mpr plannable.disjoint,?_⟩
    rw [same,knows.redirects]

theorem Plannable.perm {nodes' : List NodeInstance} (plannable : Plannable parse quote nodes) (perm : nodes.Perm nodes') :
    Plannable parse quote nodes' := by
  refine ⟨(perm.map _).nodup_iff.mp plannable.distinct,?_,?_,?_,?_⟩
  · exact fun node member => plannable.decodes node (perm.mem_iff.mpr member)
  · exact fun node member => plannable.listens node (perm.mem_iff.mpr member)
  · exact fun node member other member' => plannable.apart node (perm.mem_iff.mpr member) other (perm.mem_iff.mpr member')
  · exact fun node member other member' => plannable.disjoint node (perm.mem_iff.mpr member) other (perm.mem_iff.mpr member')

/-- No two redirects are of one node. -/
theorem redirects_distinct (distinct : (nodes.map NodeInstance.nodeId).Nodup) :
    ((nodes.filterMap (redirectOf parse quote)).map Redirect.nodeId).Nodup := by
  rw [List.Nodup,List.pairwise_map,List.pairwise_filterMap]
  refine (List.pairwise_map.mp distinct).imp ?_
  intro node other different left made right made' same
  obtain ⟨_,_,_,redirects⟩ := redirectOf_some made
  obtain ⟨_,_,_,redirects'⟩ := redirectOf_some made'
  exact different (redirects.nodeId.symm.trans (same.trans redirects'.nodeId))

end Whole

/-- A plan says what is redirected to every node, in the order of the nodes, and leaves the ports alone that nodes listen on. -/
structure Describes (parse : Bytes → Except String HoppingConfig) (nodes : List NodeInstance) (plan : Plan) : Prop where
  sorted : plan.redirects.Pairwise (fun left right => compare left.nodeId right.nodeId = .lt)
  sound : ∀ redirect ∈ plan.redirects, ∃ node ∈ nodes, ∃ config, Configures parse node config ∧ (redirected config).Nonempty ∧ Redirects config node redirect
  complete : ∀ node ∈ nodes, ∀ config, Configures parse node config → (redirected config).Nonempty →
    ∃ redirect ∈ plan.redirects, Redirects config node redirect ∧ ∀ other ∈ plan.redirects, other.nodeId = node.nodeId → other = redirect
  spared : ∀ redirect ∈ plan.redirects, ∀ node ∈ nodes, ∀ config, Configures parse node config →
    config.listenPort.toNat ∉ denoted (redirect.ports.map interval)

theorem buildPlan_describes {nodes : List NodeInstance} {plan : Plan} (done : buildPlan parse quote nodes = .ok plan) : Describes parse nodes plan := by
  obtain ⟨plannable,same⟩ := buildPlan_spec.mp done
  have members (redirect : Redirect) : redirect ∈ plan.redirects ↔ redirect ∈ nodes.filterMap (redirectOf parse quote) := by
    rw [same]
    exact (KeyedLists.sortByKey_perm _).mem_iff
  have distinct : (plan.redirects.map Redirect.nodeId).Nodup := by
    rw [same]
    exact ((KeyedLists.sortByKey_perm _).map _).nodup_iff.mpr (redirects_distinct plannable.distinct)
  have sound : ∀ redirect ∈ plan.redirects, ∃ node ∈ nodes, ∃ config, Configures parse node config ∧ (redirected config).Nonempty ∧
      Redirects config node redirect := by
    intro redirect member
    obtain ⟨node,listed,made⟩ := List.mem_filterMap.mp ((members redirect).mp member)
    exact ⟨node,listed,redirectOf_some made⟩
  refine ⟨?_,sound,?_,?_⟩
  · have ordered : (sortedRedirects (nodes.filterMap (redirectOf parse quote))).Pairwise (fun left right => KeyedLists.byKey Redirect.nodeId left right = true) :=
      KeyedLists.sortByKey_sorted _
    rw [← same] at ordered
    refine (ordered.and (List.pairwise_map.mp distinct)).imp ?_
    rintro left right ⟨less,different⟩
    cases compared : compare left.nodeId right.nodeId with
    | lt => rfl
    | eq => exact absurd (Std.compare_eq_iff_eq.mp compared) different
    | gt =>
      rw [KeyedLists.byKey,compared] at less
      cases less
  · intro node member config own some
    obtain ⟨config',own',ranges,parsed⟩ := plannable.decodes node member own.1
    cases own.unique own'
    obtain ⟨redirect,made⟩ := redirectOf_nonempty (configured_iff.mpr ⟨own,parsed⟩) some
    obtain ⟨config',own',_,redirects⟩ := redirectOf_some made
    cases own.unique own'
    have listed := (members redirect).mpr (List.mem_filterMap.mpr ⟨node,member,made⟩)
    refine ⟨redirect,listed,redirects,?_⟩
    intro other there name
    exact List.inj_on_of_nodup_map distinct there listed (name.trans redirects.nodeId.symm)
  · intro redirect listed node member config own
    obtain ⟨source,there,config',own',_,redirects⟩ := sound redirect listed
    rw [redirects.exact_]
    rintro ⟨named,different⟩
    by_cases one : source.nodeId = node.nodeId
    · have one := List.inj_on_of_nodup_map plannable.distinct there member one
      subst one
      cases own.unique own'
      exact different rfl
    · exact plannable.apart source there node member one config' config own' own named

end Nodes

/-- A plan is made exactly when it can be, says what is redirected to every node, and does not depend on the order of the nodes. -/
theorem plan_sound_and_orderless (parse : Bytes → Except String HoppingConfig) (quote : String → String) (nodes : List NodeInstance) :
    ((∃ plan, buildPlan parse quote nodes = .ok plan) ↔ Plannable parse quote nodes) ∧
    (∀ plan, buildPlan parse quote nodes = .ok plan → Describes parse nodes plan) ∧
    ∀ nodes' : List NodeInstance, nodes.Perm nodes' →
      (∃ plan, buildPlan parse quote nodes = .ok plan ∧ buildPlan parse quote nodes' = .ok plan) ∨
      ((∃ e, buildPlan parse quote nodes = .error e) ∧ ∃ e, buildPlan parse quote nodes' = .error e) := by
  have fails {nodes : List NodeInstance} (not : ¬ Plannable parse quote nodes) : ∃ e, buildPlan parse quote nodes = .error e := by
    cases made : buildPlan parse quote nodes with
    | error e => exact ⟨e,rfl⟩
    | ok plan => exact absurd (buildPlan_spec.mp made).1 not
  refine ⟨⟨?_,?_⟩,fun plan => buildPlan_describes,?_⟩
  · rintro ⟨plan,done⟩
    exact (buildPlan_spec.mp done).1
  · exact fun plannable => ⟨_,buildPlan_spec.mpr ⟨plannable,rfl⟩⟩
  · intro nodes' perm
    by_cases plannable : Plannable parse quote nodes
    · left
      refine ⟨⟨sortedRedirects (nodes.filterMap (redirectOf parse quote))⟩,buildPlan_spec.mpr ⟨plannable,rfl⟩,
        buildPlan_spec.mpr ⟨plannable.perm perm,?_⟩⟩
      refine KeyedLists.sortByKey_eq_iff.mpr (KeyedLists.alike_of_perm (redirects_distinct plannable.distinct) ?_)
      exact perm.filterMap _
    · right
      exact ⟨fails plannable,fails (fun plannable' => plannable (plannable'.perm perm.symm))⟩

/-- A node whose configuration is named by its bytes. -/
def sampleNode (nodeId : String) (config : UInt8) : NodeInstance := ⟨nodeId,HYSTERIA2_SALAMANDER_ID,1,[config],[]⟩

def sampleConfigs (bytes : Bytes) : Except String HoppingConfig :=
  if bytes = [1] then .ok ⟨443,"443-500"⟩ else if bytes = [2] then .ok ⟨8443,""⟩ else .error "unknown bytes"

/-- Two nodes, one of which hops, in both orders. -/
theorem plan_sample : ∃ plan, buildPlan sampleConfigs id [sampleNode "b" 1,sampleNode "a" 2] = .ok plan ∧
    buildPlan sampleConfigs id [sampleNode "a" 2,sampleNode "b" 1] = .ok plan := by
  have made : (buildPlan sampleConfigs id [sampleNode "b" 1,sampleNode "a" 2]).isOk := by decide +kernel
  rcases (plan_sound_and_orderless sampleConfigs id [sampleNode "b" 1,sampleNode "a" 2]).2.2 _ (List.Perm.swap _ _ []) with same | ⟨⟨e,failed⟩,_⟩
  · exact same
  · rw [failed] at made
    cases made

end NodeAgent.PlanBuilding
