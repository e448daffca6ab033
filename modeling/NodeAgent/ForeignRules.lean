import NodeAgent.GuardedWalks
import NodeAgent.NftTables
import NodeAgent.PlanBuilding

/-!
The search for rules of others that take ports of the plan. Every table that is not managed is
walked from its chains for incoming packets, along the jumps of its rules.
-/
namespace NodeAgent.ForeignRules
open NodeAgent.ForwardingPlans NodeAgent.NftRules NodeAgent.NftTables NodeAgent.GuardedWalks NodeAgent.PortRanges NodeAgent.PlanBuilding
open NodeAgent.Intervals

/-! ### The walk of a table -/

section Steps
variable (netlink : Netlink) (snapshot : KernelSnapshot) (table : TableState) (chains : List ChainState) (desired : Plan)

def chainRules (chain : String) : List RuleState :=
  snapshot.rules.filter (fun rule => rule.family = table.family && rule.table = table.name && rule.chain = chain)

/-- A rule is compared with the plan before its jumps are followed. -/
def ruleSteps (chain : String) (rule : RuleState) (index : Nat) : List (Step String BackendError) :=
  ((directUdpRedirectRange netlink rule.expressions).bind (conflictOf desired chain index)).toList.map .fail ++
    rule.expressions.filterMap (fun expression =>
      ((jumpTarget (expressionData expression)).bind (fun target => chains.find? (fun next => next.name = target))).map (fun next => .go next.name))

def chainSteps (chain : String) : List (Step String BackendError) :=
  (chainRules snapshot table chain).zipIdx.flatMap (fun (rule,index) => ruleSteps netlink chains desired chain rule index)

/-- A scan is a walk along the names of chains. -/
theorem scan_walks (fuel : Nat) (visited : List String) (chain : ChainState) :
    scanExternalChain netlink snapshot table chains desired fuel visited chain = walk (chainSteps netlink snapshot table chains desired) fuel visited chain.name := by
  induction fuel generalizing visited chain with
  | zero => rfl
  | succ fuel ih =>
    rw [scanExternalChain,walk]
    refine if_congr Iff.rfl rfl ?_
    rw [chainSteps,foldlM_flatMap]
    refine congrArg (fun f => List.foldlM f _ _) (funext fun visited => funext fun step => ?_)
    obtain ⟨rule,index⟩ := step
    dsimp only [ruleSteps]
    rw [List.foldlM_append]
    cases conflict : (directUdpRedirectRange netlink rule.expressions).bind (conflictOf desired chain.name index) with
    | some e => rfl
    | none =>
      rw [Option.toList_none,List.map_nil,List.foldlM_nil,pure_bind,List.foldlM_filterMap]
      refine congrArg (fun f => List.foldlM f _ _) (funext fun visited => funext fun expression => ?_)
      cases (jumpTarget (expressionData expression)).bind (fun target => chains.find? (fun next => next.name = target)) with
      | none => rfl
      | some next => exact ih visited next

/-- The chains of a table that are scanned first. -/
def baseChains (chains : List ChainState) : List ChainState :=
  chains.filter (fun chain => chain.chainType = some "nat" && chain.hook = some NF_INET_PRE_ROUTING)

def tableChains : List ChainState := chainsByName (snapshot.chains.filter (fun chain => chain.family = table.family && chain.table = table.name))

def scanTable : Except BackendError (List String) :=
  (baseChains (tableChains snapshot table)).foldlM
    (scanExternalChain netlink snapshot table (tableChains snapshot table) desired ((tableChains snapshot table).length + 1)) []

end Steps

/-! ### Chains by name -/

/-- A chain that stands for its name: none of the same name comes later. -/
def Last (chains : List ChainState) (chain : ChainState) : Prop :=
  ∃ before after, chains = before ++ chain :: after ∧ ∀ later ∈ after, later.name ≠ chain.name

theorem last_concat {chains : List ChainState} {chain added : ChainState} :
    Last (chains ++ [added]) chain ↔ (Last chains chain ∧ chain.name ≠ added.name) ∨ chain = added := by
  constructor
  · rintro ⟨before,after,same,others⟩
    rcases List.eq_nil_or_concat after with rfl | ⟨after,last,rfl⟩
    · obtain ⟨_,ends⟩ := List.append_inj' same rfl
      exact .inr (List.head_eq_of_cons_eq ends).symm
    · rw [List.concat_eq_append] at same others
      rw [← List.cons_append,← List.append_assoc] at same
      obtain ⟨first,ends⟩ := List.append_inj' same rfl
      cases List.head_eq_of_cons_eq ends
      exact .inl ⟨⟨before,after,first,fun later member => others later (by simp [member])⟩,fun name => others added (by simp) name.symm⟩
  · rintro (⟨⟨before,after,rfl,others⟩,different⟩ | rfl)
    · refine ⟨before,after ++ [added],by simp,?_⟩
      intro later member
      rcases List.mem_append.mp member with inside | last
      · exact others later inside
      · rw [List.mem_singleton.mp last]
        exact different.symm
    · exact ⟨chains,[],rfl,by simp⟩

/-- The induction adds one chain at the end, which takes the place of those with its name. -/
theorem mem_chainsByName {chains : List ChainState} {chain : ChainState} : chain ∈ chainsByName chains ↔ Last chains chain := by
  rw [chainsByName,(List.mergeSort_perm _ _).mem_iff]
  induction chains using List.reverseRecOn with
  | nil =>
    constructor
    · intro impossible
      cases impossible
    · rintro ⟨before,after,impossible,_⟩
      simp at impossible
  | append_singleton chains added ih =>
    rw [last_concat,← ih,List.foldl_append]
    simp

/-- A name is that of a chain exactly if one stands for it. -/
theorem exists_last {chains : List ChainState} {name : String} : (∃ chain, Last chains chain ∧ chain.name = name) ↔ ∃ chain ∈ chains, chain.name = name := by
  constructor
  · rintro ⟨chain,⟨before,after,rfl,_⟩,named⟩
    exact ⟨chain,by simp,named⟩
  · induction chains using List.reverseRecOn with
    | nil => simp
    | append_singleton chains added ih =>
      rintro ⟨chain,member,named⟩
      by_cases own : added.name = name
      · exact ⟨added,last_concat.mpr (.inr rfl),own⟩
      · rcases List.mem_append.mp member with earlier | last
        · obtain ⟨standing,stands,same⟩ := ih ⟨chain,earlier,named⟩
          exact ⟨standing,last_concat.mpr (.inl ⟨stands,fun name => own (name.symm.trans same)⟩),same⟩
        · rw [List.mem_singleton.mp last] at named
          exact absurd named own

/-! ### What the scan looks for -/

section Meaning
variable (netlink : Netlink) (snapshot : KernelSnapshot) (table : TableState) (desired : Plan)

/-- A chain of the table. -/
def Within (chain : ChainState) : Prop := chain.family = table.family ∧ chain.table = table.name

/-- A chain of the table that sees incoming packets for translation; if the snapshot lists a name twice, the last entry counts. -/
structure Base (chain : ChainState) : Prop where
  within : Within table chain
  listed : ∃ before after, snapshot.chains = before ++ chain :: after ∧ ∀ later ∈ after, Within table later → later.name ≠ chain.name
  nat : chain.chainType = some "nat"
  prerouting : chain.hook = some NF_INET_PRE_ROUTING

/-- A rule of a chain of the table. -/
structure RuleOf (chain : String) (rule : RuleState) : Prop where
  member : rule ∈ snapshot.rules
  family : rule.family = table.family
  table : rule.table = table.name
  chain : rule.chain = chain

/-- A rule of the one chain jumps to the other, which exists. -/
def Jumps (chain target : String) : Prop :=
  (∃ rule, RuleOf snapshot table chain rule ∧ ∃ expression ∈ rule.expressions, jumpTarget (expressionData expression) = some target) ∧
    ∃ next ∈ snapshot.chains, Within table next ∧ next.name = target

/-- A rule redirects a port that the plan redirects. -/
def Conflicts (rule : RuleState) : Prop :=
  ∃ range, directUdpRedirectRange netlink rule.expressions = some range ∧
    ∃ redirect ∈ desired.redirects, ∃ own ∈ redirect.ports, ∃ port : UInt16, own.contains port ∧ range.contains port

end Meaning

section Scan
variable {netlink : Netlink} {snapshot : KernelSnapshot} {table : TableState} {desired : Plan}

theorem mem_chainRules {chain : String} {rule : RuleState} : rule ∈ chainRules snapshot table chain ↔ RuleOf snapshot table chain rule := by
  rw [chainRules,List.mem_filter]
  constructor
  · rintro ⟨member,same⟩
    simp only [Bool.and_eq_true,decide_eq_true_eq] at same
    exact ⟨member,same.1.1,same.1.2,same.2⟩
  · rintro ⟨member,family,own,chain⟩
    exact ⟨member,by simp [family,own,chain]⟩

theorem mem_tableChains {chain : ChainState} : chain ∈ tableChains snapshot table ↔ Within table chain ∧
    ∃ before after, snapshot.chains = before ++ chain :: after ∧ ∀ later ∈ after, Within table later → later.name ≠ chain.name := by
  have test (c : ChainState) : (decide (c.family = table.family) && decide (c.table = table.name)) = true ↔ Within table c := by
    simp [Within]
  rw [tableChains,mem_chainsByName]
  constructor
  · rintro ⟨before,after,same,others⟩
    obtain ⟨first,rest,whole,_,split⟩ := List.filter_eq_append_iff.mp same
    obtain ⟨skipped,last,rfl,none,own,kept⟩ := List.filter_eq_cons_iff.mp split
    refine ⟨(test chain).mp own,first ++ skipped,last,by rw [whole,List.append_assoc],?_⟩
    intro later member within
    exact others later (kept ▸ List.mem_filter.mpr ⟨member,(test later).mpr within⟩)
  · rintro ⟨within,before,after,same,others⟩
    refine ⟨_,_,by rw [same,List.filter_append,List.filter_cons,if_pos ((test chain).mpr within)],?_⟩
    intro later member
    obtain ⟨there,own⟩ := List.mem_filter.mp member
    exact others later there ((test later).mp own)

theorem exists_tableChain {name : String} : (∃ chain ∈ tableChains snapshot table, chain.name = name) ↔
    ∃ next ∈ snapshot.chains, Within table next ∧ next.name = name := by
  have named : (∃ chain ∈ tableChains snapshot table, chain.name = name) ↔
      ∃ chain, Last (snapshot.chains.filter (fun chain => chain.family = table.family && chain.table = table.name)) chain ∧ chain.name = name := by
    simp only [tableChains,mem_chainsByName]
  rw [named,exists_last]
  simp [Within,and_assoc]

theorem overlap_port {left : List PortRange} {existing : PortRange} :
    firstOverlap left [existing] = none ↔ ∀ own ∈ left, ∀ port : UInt16, own.contains port → existing.contains port = false := by
  rw [firstOverlap_none,Set.disjoint_left]
  constructor
  · intro apart own member port inside
    have here : port.toNat ∈ denoted (left.map interval) := ⟨interval own,List.mem_map_of_mem member,contains_iff.mp inside⟩
    rw [← Bool.not_eq_true]
    exact fun there => apart here ⟨interval existing,by simp,contains_iff.mp there⟩
  · rintro apart n ⟨i,listed,inside⟩ ⟨j,single,there⟩
    obtain ⟨own,member,rfl⟩ := List.mem_map.mp listed
    rw [List.map_singleton,List.mem_singleton] at single
    subst single
    have small : n < 2 ^ 16 := inside.2.trans_lt own.stop.toNat_lt
    have code : (UInt16.ofNat n).toNat = n := UInt16.toNat_ofNat_of_lt' small
    have absent := apart own member (UInt16.ofNat n) (contains_iff.mpr (code.symm ▸ inside))
    rw [contains_iff.mpr (code.symm ▸ there)] at absent
    cases absent

theorem conflictOf_iff {chain : String} {index : Nat} {existing : PortRange} : (∃ e, conflictOf desired chain index existing = some e) ↔
    ∃ redirect ∈ desired.redirects, ∃ own ∈ redirect.ports, ∃ port : UInt16, own.contains port ∧ existing.contains port := by
  have none : conflictOf desired chain index existing = none ↔
      ∀ redirect ∈ desired.redirects, ∀ own ∈ redirect.ports, ∀ port : UInt16, own.contains port → existing.contains port = false := by
    rw [conflictOf,List.findSome?_eq_none_iff]
    simp only [Option.map_eq_none_iff,overlap_port]
  rw [← Option.ne_none_iff_exists',ne_eq,none]
  push Not
  simp only [Bool.not_eq_false]

theorem fail_iff {chain : String} : (∃ e, .fail e ∈ chainSteps netlink snapshot table (tableChains snapshot table) desired chain) ↔
    ∃ rule, RuleOf snapshot table chain rule ∧ Conflicts netlink desired rule := by
  constructor
  · rintro ⟨e,member⟩
    obtain ⟨⟨rule,index⟩,listed,here⟩ := List.mem_flatMap.mp member
    refine ⟨rule,mem_chainRules.mp (List.fst_mem_of_mem_zipIdx listed),?_⟩
    rcases List.mem_append.mp here with conflict | jump
    · obtain ⟨e',found,same⟩ := List.mem_map.mp conflict
      obtain ⟨range,direct,conflicts⟩ := Option.bind_eq_some_iff.mp (Option.mem_toList.mp found)
      exact ⟨range,direct,conflictOf_iff.mp ⟨e',conflicts⟩⟩
    · obtain ⟨_,_,impossible⟩ := List.mem_filterMap.mp jump
      obtain ⟨_,_,impossible⟩ := Option.map_eq_some_iff.mp impossible
      cases impossible
  · rintro ⟨rule,own,range,direct,conflicts⟩
    obtain ⟨index,bound,here⟩ := List.mem_iff_getElem.mp (mem_chainRules.mpr own)
    obtain ⟨e,found⟩ := (@conflictOf_iff desired chain index range).mpr conflicts
    refine ⟨e,List.mem_flatMap.mpr ⟨(rule,index),?_,List.mem_append_left _ (List.mem_map_of_mem ?_)⟩⟩
    · exact List.mk_mem_zipIdx_iff_getElem?.mpr (by rw [List.getElem?_eq_getElem bound,here])
    · rw [direct,Option.bind_some,Option.mem_toList]
      exact found

theorem leads_iff {chain target : String} : Leads (chainSteps netlink snapshot table (tableChains snapshot table) desired) chain target ↔
    Jumps snapshot table chain target := by
  constructor
  · intro leads
    obtain ⟨⟨rule,index⟩,listed,here⟩ := List.mem_flatMap.mp leads
    rcases List.mem_append.mp here with conflict | jump
    · obtain ⟨_,_,impossible⟩ := List.mem_map.mp conflict
      cases impossible
    · obtain ⟨expression,member,goes⟩ := List.mem_filterMap.mp jump
      obtain ⟨next,found,same⟩ := Option.map_eq_some_iff.mp goes
      cases same
      obtain ⟨name,jumps,exists_⟩ := Option.bind_eq_some_iff.mp found
      have named : next.name = name := by simpa using List.find?_some exists_
      subst named
      exact ⟨⟨rule,mem_chainRules.mp (List.fst_mem_of_mem_zipIdx listed),expression,member,jumps⟩,
        exists_tableChain.mp ⟨next,List.mem_of_find?_eq_some exists_,rfl⟩⟩
  · rintro ⟨⟨rule,own,expression,member,jumps⟩,target_exists⟩
    obtain ⟨next,there,named⟩ := exists_tableChain.mpr target_exists
    obtain ⟨index,bound,here⟩ := List.mem_iff_getElem.mp (mem_chainRules.mpr own)
    have some : ((tableChains snapshot table).find? (fun next => next.name = target)).isSome := List.find?_isSome.mpr ⟨next,there,decide_eq_true named⟩
    obtain ⟨found,lookup⟩ := Option.isSome_iff_exists.mp some
    have named : found.name = target := by simpa using List.find?_some lookup
    refine List.mem_flatMap.mpr ⟨(rule,index),?_,List.mem_append_right _ (List.mem_filterMap.mpr ⟨expression,member,?_⟩)⟩
    · exact List.mk_mem_zipIdx_iff_getElem?.mpr (by rw [List.getElem?_eq_getElem bound,here])
    · rw [jumps,Option.bind_some,lookup,Option.map_some,named]

/-- The names that the scan of a table starts with. -/
def starts (snapshot : KernelSnapshot) (table : TableState) : List String := (baseChains (tableChains snapshot table)).map ChainState.name

theorem mem_starts {name : String} : name ∈ starts snapshot table ↔ ∃ base, Base snapshot table base ∧ base.name = name := by
  rw [starts,List.mem_map]
  refine exists_congr (fun base => and_congr_left fun _ => ?_)
  rw [baseChains,List.mem_filter,mem_tableChains]
  constructor
  · rintro ⟨⟨within,listed⟩,tests⟩
    simp only [Bool.and_eq_true,decide_eq_true_eq] at tests
    exact ⟨within,listed,tests.1,tests.2⟩
  · rintro ⟨within,listed,nat,prerouting⟩
    exact ⟨⟨within,listed⟩,by simp [nat,prerouting]⟩

/-- The scan of a table is a walk, and comes to an end. -/
theorem scanTable_ends : Ends (chainSteps netlink snapshot table (tableChains snapshot table) desired) [] ((starts snapshot table).map .go)
    (scanTable netlink snapshot table desired) := by
  have whole : scanTable netlink snapshot table desired = ((starts snapshot table).map .go).foldlM
      (take (walk (chainSteps netlink snapshot table (tableChains snapshot table) desired) ((tableChains snapshot table).length + 1))) [] := by
    rw [scanTable,starts,List.map_map,List.foldlM_map]
    exact congrArg (fun f => List.foldlM f _ _) (funext fun visited => funext fun chain => scan_walks ..)
  have known {name : String} : name ∈ (tableChains snapshot table).map ChainState.name ↔ ∃ chain ∈ tableChains snapshot table, chain.name = name :=
    List.mem_map
  rw [whole]
  refine @walk_ends _ _ _ _ _ _ ((tableChains snapshot table).map ChainState.name) ?_ _ ?_ ?_
  · intro chain _ target leads
    exact known.mpr (exists_tableChain.mpr (leads_iff.mp leads).2)
  · have fewer := List.length_filter_le (fun n => n ∉ []) ((tableChains snapshot table).map ChainState.name)
    rw [List.length_map] at fewer
    rw [left]
    omega
  · intro name member
    obtain ⟨_,listed,same⟩ := List.mem_map.mp member
    cases same
    obtain ⟨base,there,named⟩ := List.mem_map.mp listed
    exact known.mpr ⟨base,(List.mem_filter.mp there).1,named⟩

theorem scanTable_iff : (∃ e, scanTable netlink snapshot table desired = .error e) ↔ ∃ base, Base snapshot table base ∧
    ∃ chain, Relation.ReflTransGen (Jumps snapshot table) base.name chain ∧ ∃ rule, RuleOf snapshot table chain rule ∧ Conflicts netlink desired rule := by
  have same : Leads (chainSteps netlink snapshot table (tableChains snapshot table) desired) = Jumps snapshot table :=
    funext fun chain => funext fun target => propext leads_iff
  rw [scanTable_ends.fails_iff,same]
  simp only [fail_iff]
  constructor
  · rintro ⟨name,member,found⟩
    obtain ⟨base,own,rfl⟩ := mem_starts.mp member
    exact ⟨base,own,found⟩
  · rintro ⟨base,own,found⟩
    exact ⟨base.name,mem_starts.mpr ⟨base,own,rfl⟩,found⟩

end Scan

/-! ### All tables -/

/-- The tables of others, in the order in which they are scanned. -/
def foreignTables (snapshot : KernelSnapshot) (managedTable : String) : List TableState :=
  (snapshot.tables.filter (fun table => table.name ≠ managedTable)).mergeSort
    (fun left right => ((compare left.family.rank right.family.rank).then (compare left.name right.name)).isLE)

theorem rejectExternalConflicts_eq (netlink : Netlink) (snapshot : KernelSnapshot) (managedTable : String) (desired : Plan) :
    rejectExternalConflicts netlink snapshot managedTable desired = forM (foreignTables snapshot managedTable) (fun table => do
      let _ ← scanTable netlink snapshot table desired
      return ()) := by
  change (do
    for table in foreignTables snapshot managedTable do
      let _ ← scanTable netlink snapshot table desired) = _
  generalize foreignTables snapshot managedTable = tables
  induction tables with
  | nil => rfl
  | cons table rest ih =>
    rw [List.forIn_cons,List.forM_cons,← ih]
    cases scanTable netlink snapshot table desired with
    | error e => rfl
    | ok visited => rfl

theorem forM_error {tables : List TableState} {scan : TableState → Except BackendError (List String)} :
    (∃ e, (forM tables (fun table => do let _ ← scan table; return ()) : Except BackendError Unit) = .error e) ↔ ∃ table ∈ tables, ∃ e, scan table = .error e := by
  induction tables with
  | nil =>
    constructor
    · rintro ⟨_,impossible⟩
      cases impossible
    · rintro ⟨_,impossible,_⟩
      cases impossible
  | cons table rest ih =>
    rw [List.forM_cons]
    cases scanned : scan table with
    | error e => exact ⟨fun _ => ⟨table,List.mem_cons_self,e,scanned⟩,fun _ => ⟨e,rfl⟩⟩
    | ok visited =>
      constructor
      · intro fails
        obtain ⟨other,member,fails⟩ := ih.mp fails
        exact ⟨other,List.mem_cons_of_mem _ member,fails⟩
      · rintro ⟨other,member,e,fails⟩
        rcases List.mem_cons.mp member with rfl | later
        · rw [scanned] at fails
          cases fails
        · exact ih.mpr ⟨other,later,e,fails⟩

/-- The search ends for every snapshot, and fails exactly if a rule of another table that takes a port of the plan can be reached. -/
theorem external_conflicts_rejected (netlink : Netlink) (snapshot : KernelSnapshot) (managedTable : String) (desired : Plan) :
    (rejectExternalConflicts netlink snapshot managedTable desired = forM (foreignTables snapshot managedTable) (fun table => do
        let _ ← scanTable netlink snapshot table desired
        return ()) ∧
      ∀ table, Ends (chainSteps netlink snapshot table (tableChains snapshot table) desired) [] ((starts snapshot table).map .go) (scanTable netlink snapshot table desired)) ∧
    ((∃ e, rejectExternalConflicts netlink snapshot managedTable desired = .error e) ↔
      ∃ table ∈ snapshot.tables, table.name ≠ managedTable ∧ ∃ base, Base snapshot table base ∧
        ∃ chain, Relation.ReflTransGen (Jumps snapshot table) base.name chain ∧ ∃ rule, RuleOf snapshot table chain rule ∧ Conflicts netlink desired rule) := by
  refine ⟨⟨rejectExternalConflicts_eq netlink snapshot managedTable desired,fun table => scanTable_ends⟩,?_⟩
  rw [rejectExternalConflicts_eq,forM_error]
  have member (table : TableState) : table ∈ foreignTables snapshot managedTable ↔ table ∈ snapshot.tables ∧ table.name ≠ managedTable := by
    rw [foreignTables,(List.mergeSort_perm _ _).mem_iff,List.mem_filter,decide_eq_true_eq]
  simp only [member,scanTable_iff,and_assoc]

end NodeAgent.ForeignRules
