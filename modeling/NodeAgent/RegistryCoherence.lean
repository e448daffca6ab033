import NodeAgent.Cells
import NodeAgent.Registry
import NodeAgent.Transition

/-!
How the maps of a user registry agree between mutations, and that every mutation
keeps the agreement.
-/
namespace NodeAgent.RegistryCoherence
open NodeAgent.Api NodeAgent.Credential NodeAgent.FiniteMap NodeAgent.Registry NodeAgent.Cells NodeAgent.Transition

variable {d : Derivations} {r r' : MemoryUserRegistry}

theorem modifyContext_at {context : UserContext} {address : Nat} (held : r.contexts[address]? = some context)
    (touched : Nat) (change : UserContext → UserContext) :
    (modifyContext r touched change).contexts[address]? = some (if touched = address then change context else context) := by
  by_cases same : touched = address
  · subst same; simp [modifyContext,held]
  · simp [modifyContext,same,held]

/-! ### What a run of writes does to each map -/

abbrev Cell := (k : Kind) × k.Key

/-- The index cell that a write sets, and its new value. -/
def cellWrite : Write → Option (Cell × Option Entry)
  | .indexInsert k key entry => some (⟨k,key⟩,some entry)
  | .indexRemove k key => some (⟨k,key⟩,none)
  | _ => none

/-- All credential indexes as one memory. -/
def cells (r : MemoryUserRegistry) (cell : Cell) : Option Entry := lookup r cell.1 cell.2

/-- The count under an AnyTLS prefix. -/
def prefixAt (r : MemoryUserRegistry) (start : Bytes) : Option Nat := r.anytlsPrefixes.bind (fun prefixes => prefixes start)

/-- What a write does to the count under a prefix. -/
def onPrefix (d : Derivations) (start : Bytes) (count : Option Nat) : Write → Option Nat
  | .claimAnytlsPrefix hash => if d.passwordSha256Prefix hash = start then claimed count else count
  | .releaseAnytlsPrefix hash => if d.passwordSha256Prefix hash = start then released count else count
  | _ => count

/-- A write to the indexes and nothing else. -/
def IndexOnly : Write → Prop
  | .indexInsert .. => True
  | .indexRemove .. => True
  | .claimAnytlsPrefix .. => True
  | .releaseAnytlsPrefix .. => True
  | _ => False

/-- A write whose index is allocated. -/
def Allocated (r : MemoryUserRegistry) : Write → Prop
  | .indexInsert k _ _ => (r.index k).isSome
  | .indexRemove k _ => (r.index k).isSome
  | .claimAnytlsPrefix _ => r.anytlsPrefixes.isSome
  | .releaseAnytlsPrefix _ => r.anytlsPrefixes.isSome
  | _ => True

theorem run_append (first second : List Write) : run d r (first ++ second) = (run d r first).bind (fun r' => run d r' second) := by
  induction first generalizing r with
  | nil => rfl
  | cons w rest ih =>
    simp only [List.cons_append,run,Option.bind_assoc]
    congr 1
    funext r'
    exact ih

theorem run_cons_eq_some {w : Write} {rest : List Write} (ran : run d r (w :: rest) = some r') :
    ∃ middle, apply d r w = some middle ∧ run d middle rest = some r' := Option.bind_eq_some_iff.mp ran

theorem run_append_eq_some {first second : List Write} (ran : run d r (first ++ second) = some r') :
    ∃ middle, run d r first = some middle ∧ run d middle second = some r' := by
  rw [run_append] at ran
  exact Option.bind_eq_some_iff.mp ran

private theorem cells_update {k : Kind} {entries : k.Key → Option Entry} (held : r.index k = some entries) (key : k.Key)
    (value : Option Entry) :
    cells { r with index := Function.update r.index k (some (Function.update entries key value)) } =
      Function.update (cells r) ⟨k,key⟩ value := by
  funext ⟨other,presented⟩
  by_cases same : other = k
  · subst same
    by_cases equal : presented = key
    · subst equal; simp [cells,lookup]
    · have apart : (⟨other,presented⟩ : Cell) ≠ ⟨other,key⟩ := by simpa using equal
      simp [cells,lookup,Function.update_of_ne apart,Function.update_of_ne equal,held]
  · have apart : (⟨other,presented⟩ : Cell) ≠ ⟨k,key⟩ := by
      intro equal
      exact same (congrArg Sigma.fst equal)
    simp [cells,lookup,Function.update_of_ne apart,Function.update_of_ne same]

theorem cells_apply {w : Write} (applied : apply d r w = some r') : cells r' = store (cells r) (cellWrite w).toList := by
  cases w with
  | indexInsert k key entry =>
    obtain ⟨entries,held,rfl⟩ := Option.map_eq_some_iff.mp applied
    exact cells_update held key (some entry)
  | indexRemove k key =>
    obtain ⟨entries,held,rfl⟩ := Option.map_eq_some_iff.mp applied
    exact cells_update held key none
  | claimAnytlsPrefix hash | releaseAnytlsPrefix hash =>
    obtain ⟨prefixes,held,rfl⟩ := Option.map_eq_some_iff.mp applied
    rfl
  | newContext | setEnabled | setMaxConns | setSpeedLimits | revokeConnections | insertUser | removeUser | insertDraining
  | republishVmess =>
    cases applied
    rfl

/-- The indexes after a run hold the cell writes in order. -/
theorem cells_run {writes : List Write} (ran : run d r writes = some r') :
    cells r' = store (cells r) (writes.filterMap cellWrite) := by
  induction writes generalizing r with
  | nil => cases ran; rfl
  | cons w rest ih =>
    obtain ⟨middle,applied,ran⟩ := run_cons_eq_some ran
    rw [ih ran,cells_apply applied,← store_append]
    cases cell : cellWrite w <;> simp [cell]

private theorem prefix_update {prefixes : Bytes → Option Nat} (held : r.anytlsPrefixes = some prefixes)
    (change : Option Nat → Option Nat) (touched start : Bytes) :
    prefixAt { r with anytlsPrefixes := some (Function.update prefixes touched (change (prefixes touched))) } start =
      if touched = start then change (prefixAt r start) else prefixAt r start := by
  by_cases same : touched = start
  · subst same; simp [prefixAt,held]
  · simp [prefixAt,held,same,Function.update_of_ne (Ne.symm same)]

theorem prefixAt_apply {w : Write} (applied : apply d r w = some r') (start : Bytes) :
    prefixAt r' start = onPrefix d start (prefixAt r start) w := by
  cases w with
  | indexInsert | indexRemove =>
    obtain ⟨entries,held,rfl⟩ := Option.map_eq_some_iff.mp applied
    rfl
  | claimAnytlsPrefix hash =>
    obtain ⟨prefixes,held,rfl⟩ := Option.map_eq_some_iff.mp applied
    exact prefix_update held claimed _ start
  | releaseAnytlsPrefix hash =>
    obtain ⟨prefixes,held,rfl⟩ := Option.map_eq_some_iff.mp applied
    exact prefix_update held released _ start
  | newContext | setEnabled | setMaxConns | setSpeedLimits | revokeConnections | insertUser | removeUser | insertDraining
  | republishVmess =>
    cases applied
    rfl

theorem prefixAt_run {writes : List Write} (ran : run d r writes = some r') (start : Bytes) :
    prefixAt r' start = writes.foldl (onPrefix d start) (prefixAt r start) := by
  induction writes generalizing r with
  | nil => cases ran; rfl
  | cons w rest ih =>
    obtain ⟨middle,applied,ran⟩ := run_cons_eq_some ran
    rw [ih ran,prefixAt_apply applied,List.foldl_cons]

/-- No write allocates an index or drops one. -/
theorem allocation_apply {w : Write} (applied : apply d r w = some r') :
    r'.kinds = r.kinds ∧ (∀ k, (r'.index k).isSome = (r.index k).isSome) ∧
      r'.anytlsPrefixes.isSome = r.anytlsPrefixes.isSome := by
  cases w with
  | indexInsert k key | indexRemove k key =>
    obtain ⟨entries,held,rfl⟩ := Option.map_eq_some_iff.mp applied
    refine ⟨rfl,fun other => ?_,rfl⟩
    by_cases same : other = k
    · subst same; simp [held]
    · simp [Function.update_of_ne same]
  | claimAnytlsPrefix | releaseAnytlsPrefix =>
    obtain ⟨prefixes,held,rfl⟩ := Option.map_eq_some_iff.mp applied
    simp [held]
  | newContext | setEnabled | setMaxConns | setSpeedLimits | revokeConnections | insertUser | removeUser | insertDraining
  | republishVmess =>
    cases applied
    exact ⟨rfl,fun _ => rfl,rfl⟩

theorem allocation_run {writes : List Write} (ran : run d r writes = some r') :
    r'.kinds = r.kinds ∧ (∀ k, (r'.index k).isSome = (r.index k).isSome) ∧
      r'.anytlsPrefixes.isSome = r.anytlsPrefixes.isSome := by
  induction writes generalizing r with
  | nil => cases ran; exact ⟨rfl,fun _ => rfl,rfl⟩
  | cons w rest ih =>
    obtain ⟨middle,applied,ran⟩ := run_cons_eq_some ran
    obtain ⟨kinds,index,prefixes⟩ := ih ran
    obtain ⟨kinds',index',prefixes'⟩ := allocation_apply applied
    exact ⟨kinds.trans kinds',fun k => (index k).trans (index' k),prefixes.trans prefixes'⟩

private theorem allocated_congr {w : Write} (index : ∀ k, (r'.index k).isSome = (r.index k).isSome)
    (prefixes : r'.anytlsPrefixes.isSome = r.anytlsPrefixes.isSome) (allocated : Allocated r w) : Allocated r' w := by
  cases w <;> simp_all [Allocated]

/-- Writes to allocated indexes never fail. -/
theorem run_total {writes : List Write} (allocated : ∀ w ∈ writes, Allocated r w) : ∃ r', run d r writes = some r' := by
  induction writes generalizing r with
  | nil => exact ⟨r,rfl⟩
  | cons w rest ih =>
    have first : ∃ middle, apply d r w = some middle := by
      have here := allocated w List.mem_cons_self
      cases w with
      | indexInsert k key | indexRemove k key =>
        obtain ⟨entries,held⟩ := Option.isSome_iff_exists.mp here
        exact ⟨_,by simp only [apply,held,Option.map_some]; rfl⟩
      | claimAnytlsPrefix | releaseAnytlsPrefix =>
        obtain ⟨prefixes,held⟩ := Option.isSome_iff_exists.mp here
        exact ⟨_,by simp only [apply,held,Option.map_some]; rfl⟩
      | newContext | setEnabled | setMaxConns | setSpeedLimits | revokeConnections | insertUser | removeUser
      | insertDraining | republishVmess => exact ⟨_,rfl⟩
    obtain ⟨middle,applied⟩ := first
    obtain ⟨_,index,prefixes⟩ := allocation_apply applied
    obtain ⟨r',ran⟩ := ih (fun w member =>
      allocated_congr index prefixes (allocated w (List.mem_cons_of_mem _ member)))
    exact ⟨r',by simp [run,applied,ran]⟩

/-- Index writes leave every other map alone. -/
theorem run_indexOnly {writes : List Write} (indexOnly : ∀ w ∈ writes, IndexOnly w) (ran : run d r writes = some r') :
    r' = { r with index := r'.index, anytlsPrefixes := r'.anytlsPrefixes } := by
  induction writes generalizing r with
  | nil => cases ran; rfl
  | cons w rest ih =>
    obtain ⟨middle,applied,ran⟩ := run_cons_eq_some ran
    have tail := ih (fun w member => indexOnly w (List.mem_cons_of_mem _ member)) ran
    have head : middle = { r with index := middle.index, anytlsPrefixes := middle.anytlsPrefixes } := by
      have here := indexOnly w List.mem_cons_self
      cases w with
      | indexInsert | indexRemove =>
        obtain ⟨entries,held,rfl⟩ := Option.map_eq_some_iff.mp applied
        rfl
      | claimAnytlsPrefix | releaseAnytlsPrefix =>
        obtain ⟨prefixes,held,rfl⟩ := Option.map_eq_some_iff.mp applied
        rfl
      | newContext | setEnabled | setMaxConns | setSpeedLimits | revokeConnections | insertUser | removeUser
      | insertDraining | republishVmess => cases here
    rw [tail,head]

/-! ### The cells of a mutation -/

theorem cellWrite_releaseWrites (k : Kind) (key : k.Key) : (releaseWrites k key).filterMap cellWrite = [] := by
  cases k <;> rfl

/-- The cells that taking out a user's key clears. -/
theorem cellWrite_unindexWrites (entry : Entry) (k : Kind) :
    (unindexWrites entry k).filterMap cellWrite = (entry.key k).toList.map (fun key => (⟨k,key⟩,none)) := by
  unfold unindexWrites
  cases entry.key k with
  | none => rfl
  | some key => simp [cellWrite,cellWrite_releaseWrites]

theorem cellWrite_publishWrites (entry : Entry) (k : Kind) :
    (publishWrites entry k).filterMap cellWrite = (entry.key k).toList.map (fun key => (⟨k,key⟩,some entry)) := by
  unfold publishWrites
  cases entry.key k <;> rfl

theorem cellWrite_claimWrites (now : Option MemoryUserRegistry) (entry : Entry) :
    (claimWrites now entry).filterMap cellWrite = [] := by
  unfold claimWrites
  split
  · split <;> rfl
  · rfl

theorem cellWrite_contextWrites (previous : Option Entry) (address : Nat) (spec : UserSpec) :
    (contextWrites previous address spec).filterMap cellWrite = [] := by
  unfold contextWrites
  split <;> rfl

/-- The keys of `previous` that `entry` does not present. -/
def retired (previous : Option Entry) (entry : Entry) (k : Kind) : Option k.Key :=
  previous.bind (fun old => if old.key k ≠ entry.key k then old.key k else none)

/-- The order in which an upsert publishes, AnyTLS last. -/
def publishAll : List Kind := publishOrder ++ [.anytls]

theorem mem_retireOrder (k : Kind) : k ∈ retireOrder := by cases k <;> decide
theorem mem_publishAll (k : Kind) : k ∈ publishAll := by cases k <;> decide

theorem cellWrite_retirePrevious (previous : Option Entry) (entry : Entry) :
    (retirePrevious previous entry).filterMap cellWrite =
      retireOrder.flatMap (fun k => (retired previous entry k).toList.map (fun key => (⟨k,key⟩,none))) := by
  cases previous with
  | none => rfl
  | some old =>
    simp only [retirePrevious,List.filterMap_flatMap]
    congr 1
    funext k
    unfold retireWrites retired
    by_cases kept : old.key k = entry.key k
    · simp [kept]
    · simp [kept,cellWrite_unindexWrites]

/-- The cell writes of an upsert: retired keys are cleared, then present keys are set. -/
theorem cellWrite_upsertWrites (r : MemoryUserRegistry) (previous : Option Entry) (entry : Entry) (spec : UserSpec) :
    (upsertWrites d r previous entry spec).filterMap cellWrite =
      retireOrder.flatMap (fun k => (retired previous entry k).toList.map (fun key => (⟨k,key⟩,none))) ++
      publishAll.flatMap (fun k => (entry.key k).toList.map (fun key => (⟨k,key⟩,some entry))) := by
  simp only [upsertWrites,List.filterMap_append,cellWrite_contextWrites,cellWrite_claimWrites,cellWrite_retirePrevious,
    cellWrite_publishWrites,List.filterMap_flatMap,publishAll,List.flatMap_append,List.flatMap_singleton,cellWrite,
    List.filterMap_cons,List.filterMap_nil,List.nil_append,List.append_nil,List.append_assoc]

theorem mem_optionCells {value : Option Entry} {order : List Kind} (all : ∀ k, k ∈ order) {keys : (k : Kind) → Option k.Key}
    {k : Kind} {key : k.Key} {v : Option Entry} :
    (((⟨k,key⟩ : Cell),v) ∈ order.flatMap (fun k => (keys k).toList.map (fun key => ((⟨k,key⟩ : Cell),value)))) ↔
      keys k = some key ∧ v = value := by
  simp only [List.mem_flatMap,List.mem_map,Option.mem_toList,Prod.mk.injEq]
  constructor
  · rintro ⟨k',_,key',held,same,rfl⟩
    cases same
    exact ⟨held,rfl⟩
  · rintro ⟨held,rfl⟩
    exact ⟨k,all k,key,held,rfl,rfl⟩

theorem nodup_optionCells {value : Option Entry} {order : List Kind} (distinct : order.Nodup)
    (keys : (k : Kind) → Option k.Key) :
    ((order.flatMap (fun k => (keys k).toList.map (fun key => ((⟨k,key⟩ : Cell),value)))).map Prod.fst).Nodup := by
  rw [List.map_flatMap]
  refine nodup_flatMap_parts Sigma.fst distinct (fun k => ?_) (fun k cell member => ?_)
  · cases keys k <;> simp
  · simp only [List.map_map,List.mem_map,Option.mem_toList,Function.comp_apply] at member
    obtain ⟨key,_,rfl⟩ := member
    rfl

/-- An upsert writes no index cell twice. -/
theorem nodup_upsertCells (r : MemoryUserRegistry) (previous : Option Entry) (entry : Entry) (spec : UserSpec) :
    (((upsertWrites d r previous entry spec).filterMap cellWrite).map Prod.fst).Nodup := by
  rw [cellWrite_upsertWrites,List.map_append,List.nodup_append]
  refine ⟨nodup_optionCells (by decide) _,nodup_optionCells (by decide) _,?_⟩
  rintro ⟨k,key⟩ inRetired ⟨k',key'⟩ inPublished same
  cases same
  obtain ⟨⟨_,old⟩,member,rfl⟩ := List.mem_map.mp inRetired
  obtain ⟨⟨_,fresh⟩,member',same⟩ := List.mem_map.mp inPublished
  cases same
  have gone := (mem_optionCells mem_retireOrder).mp member
  have held := (mem_optionCells mem_publishAll).mp member'
  cases previous with
  | none => simp [retired] at gone
  | some oldEntry =>
    by_cases kept : oldEntry.key k = entry.key k
    · simp [retired,kept] at gone
    · simp only [retired,Option.bind_some,ne_eq,kept,not_false_eq_true,↓reduceIte] at gone
      exact kept (gone.1.trans held.1.symm)

/-- The index after an upsert: present keys lead to the new entry, retired keys to
    nobody, and every other key where it led. -/
theorem lookup_upsert {previous : Option Entry} {entry : Entry} {spec : UserSpec}
    (ran : run d r (upsertWrites d r previous entry spec) = some r') (k : Kind) (key : k.Key) :
    lookup r' k key =
      if entry.key k = some key then some entry
      else if previous.bind (fun old => old.key k) = some key then none
      else lookup r k key := by
  have after := congrFun (cells_run ran) ⟨k,key⟩
  change lookup r' k key = _ at after
  have distinct := nodup_upsertCells (d := d) r previous entry spec
  have memRetired : (((⟨k,key⟩ : Cell),none) ∈ (upsertWrites d r previous entry spec).filterMap cellWrite) ↔
      retired previous entry k = some key := by
    rw [cellWrite_upsertWrites,List.mem_append,mem_optionCells mem_retireOrder,mem_optionCells mem_publishAll]
    simp
  have memPublished : (((⟨k,key⟩ : Cell),some entry) ∈ (upsertWrites d r previous entry spec).filterMap cellWrite) ↔
      entry.key k = some key := by
    rw [cellWrite_upsertWrites,List.mem_append,mem_optionCells mem_retireOrder,mem_optionCells mem_publishAll]
    simp
  rw [after]
  by_cases present : entry.key k = some key
  · rw [if_pos present]
    exact store_of_written _ distinct (memPublished.mpr present)
  rw [if_neg present]
  by_cases old : previous.bind (fun old => old.key k) = some key
  · rw [if_pos old]
    refine store_of_written _ distinct (memRetired.mpr ?_)
    obtain ⟨oldEntry,rfl,held⟩ := Option.bind_eq_some_iff.mp old
    simp [retired,held,Ne.symm present]
  · rw [if_neg old]
    refine store_of_unwritten _ (fun member => ?_)
    obtain ⟨⟨_,value⟩,member,same⟩ := List.mem_map.mp member
    cases same
    rw [cellWrite_upsertWrites,List.mem_append,mem_optionCells mem_retireOrder,mem_optionCells mem_publishAll] at member
    rcases member with gone | held
    · obtain ⟨oldEntry,rfl,held⟩ := Option.bind_eq_some_iff.mp gone.1
      split at held
      · exact old held
      · cases held
    · exact present held.1

/-! ### Agreement of the maps -/

/-- Whether a user's AnyTLS hash starts so. -/
def startsWith (d : Derivations) (start : Bytes) (entry : Entry) : Bool :=
  entry.anytlsHash.map d.passwordSha256Prefix = some start

/-- A count as the prefix map stores it: zero has no entry. -/
def nonzero (n : Nat) : Option Nat := if n = 0 then none else some n

/-- What holds of a registry whenever no mutation is at work, the VMess snapshot apart. -/
structure Indexed (d : Derivations) (r : MemoryUserRegistry) : Prop where
  allocated : ∀ k, (r.index k).isSome = r.kinds.indexes k
  prefixAllocated : r.anytlsPrefixes.isSome = r.kinds.anytlsPassword
  /-- An index leads from a key to exactly the users that carry it. -/
  indexed : ∀ (k : Kind) (key : k.Key) (entry : Entry), lookup r k key = some entry ↔
    r.users[entry.context.id]? = some entry ∧ entry.key k = some key
  named : ∀ (id : String) (entry : Entry), r.users[id]? = some entry → entry.context.id = id
  usable : ∀ (id : String) (entry : Entry) (k : Kind), r.users[id]? = some entry → (entry.key k).isSome → r.kinds.indexes k
  prefixes : ∀ start, prefixAt r start = nonzero (count (startsWith d start) r.users)
  derived : ∀ (id : String) (entry : Entry), r.users[id]? = some entry → entry.vmess = entry.uuid
  disjoint : ∀ (id : String) (entry : Entry), r.users[id]? = some entry → r.draining[id]? = none
  tombstoned : ∀ (id : String) (generation : Nat), r.draining[id]? = some generation →
    ∃ tombstone, r.generations[generation]? = some tombstone ∧ tombstone.entry.context.id = id
  recorded : ∀ (id : String) (entry : Entry), r.users[id]? = some entry → entry.context.address < r.contexts.length
  separate : ∀ (id id' : String) (entry entry' : Entry), r.users[id]? = some entry → r.users[id']? = some entry' →
    entry.context.address = entry'.context.address → id = id'

structure Coherent (d : Derivations) (r : MemoryUserRegistry) : Prop extends Indexed d r where
  candidates : ∀ entry : Entry, entry ∈ r.vmessCandidates ↔ r.users[entry.context.id]? = some entry ∧ entry.uuid.isSome

/-- What `upsert_locked` has checked of the entry it is about to publish. -/
structure Accepted (r : MemoryUserRegistry) (entry : Entry) : Prop where
  undrained : r.draining[entry.context.id]? = none
  usable : ∀ k, (entry.key k).isSome → r.kinds.indexes k
  unclaimed : ∀ (k : Kind) (key : k.Key) (other : Entry), entry.key k = some key → lookup r k key = some other → other.context.id = entry.context.id
  kept : ∀ previous : Entry, r.users[entry.context.id]? = some previous → entry.context = previous.context
  fresh : r.users[entry.context.id]? = none → entry.context.address = r.contexts.length
  derived : entry.vmess = entry.uuid

theorem unclaimed_of_check {id : String} {credentials : Credentials} {u : Unit}
    (checked : checkCredentialsUnclaimed r id credentials = .ok u) {k : Kind} {key : k.Key} {other : Entry}
    (presents : credentials.key k = some key) (held : lookup r k key = some other) : other.context.id = id := by
  unfold checkCredentialsUnclaimed at checked
  split at checked
  · cases checked
  next unclaimed =>
  have here := List.findSome?_eq_none_iff.mp unclaimed k (mem_retireOrder k)
  simpa [claimConflict,presents,credentialOwner,held] using here

theorem validate_ok (inv : Indexed d r) {spec : UserSpec} {entry : Entry} (valid : validate d r spec = .ok entry) :
    spec.resolvedId = some entry.context.id ∧ Accepted r entry := by
  unfold validate at valid
  split at valid
  · cases valid
  next id resolved =>
  split at valid
  · cases valid
  split at valid
  · cases valid
  next undrained =>
  obtain ⟨credentials,parsed,valid⟩ := except_bind_ok valid
  obtain ⟨u,checked,valid⟩ := except_bind_ok valid
  cases valid
  have sameId : (newEntry r id credentials).context.id = id := by
    unfold newEntry
    cases held : r.users[id]? with
    | none => rfl
    | some previous => exact inv.named id previous held
  have notDraining : r.draining[id]? = none := by
    cases held : r.draining[id]? with
    | none => rfl
    | some generation =>
      obtain ⟨tombstone,there,_⟩ := inv.tombstoned id generation held
      simp [held,there] at undrained
  refine ⟨by rw [resolved,sameId],?_⟩
  refine ⟨by rw [sameId]; exact notDraining,fun k held => parseCredentials_indexed parsed k held,?_,?_,?_,rfl⟩
  · intro k key other presents held
    rw [sameId]
    exact unclaimed_of_check checked presents held
  · intro previous held
    rw [sameId] at held
    simp [newEntry,held]
  · intro absent
    rw [sameId] at absent
    simp [newEntry,absent]

/-! ### An accepted upsert -/

/-- The settings of a spec, applied to a record. -/
def configured (spec : UserSpec) (context : UserContext) : UserContext :=
  { context with
    enabled := spec.enabled
    maxConns := spec.maxConns.getD 0
    uploadLimitBps := spec.uploadLimitBps.getD 0
    downloadLimitBps := spec.downloadLimitBps.getD 0 }

/-- The records after an upsert has allocated and configured the user's one. -/
def contextsAfter (previous : Option Entry) (address : Nat) (spec : UserSpec) (contexts : List UserContext) :
    List UserContext :=
  (contexts ++ (if previous.isNone then [UserContext.new] else [])).modify address (configured spec)

theorem run_contextWrites (previous : Option Entry) (address : Nat) (spec : UserSpec) :
    run d r (contextWrites previous address spec) =
      some { r with contexts := contextsAfter previous address spec r.contexts } := by
  unfold contextWrites contextsAfter
  split <;> simp [run,apply,modifyContext,List.modify_modify_eq,Function.comp_def] <;> rfl

theorem indexOnly_unindexWrites (entry : Entry) (k : Kind) : ∀ w ∈ unindexWrites entry k, IndexOnly w := by
  intro w member
  unfold unindexWrites at member
  split at member
  · rcases List.mem_cons.mp member with rfl | later
    · trivial
    · cases k <;> simp only [releaseWrites,List.not_mem_nil,List.mem_singleton] at later
      subst later
      trivial
  · cases member

/-- The index writes of an upsert. -/
def upsertIndexWrites (now : Option MemoryUserRegistry) (previous : Option Entry) (entry : Entry) : List Write :=
  retirePrevious previous entry ++ publishAll.flatMap (publishWrites entry) ++ claimWrites now entry

theorem upsertWrites_eq (previous : Option Entry) (entry : Entry) (spec : UserSpec) :
    ∃ now, now = run d r (contextWrites previous entry.context.address spec ++ retirePrevious previous entry ++
        publishOrder.flatMap (publishWrites entry)) ∧
      upsertWrites d r previous entry spec = contextWrites previous entry.context.address spec ++
        (upsertIndexWrites now previous entry ++ [.insertUser entry.context.id entry]) :=
  ⟨_,rfl,by simp [upsertWrites,upsertIndexWrites,publishAll]⟩

theorem indexOnly_upsertIndexWrites (now : Option MemoryUserRegistry) (previous : Option Entry) (entry : Entry) :
    ∀ w ∈ upsertIndexWrites now previous entry, IndexOnly w := by
  intro w member
  unfold upsertIndexWrites at member
  rcases List.mem_append.mp member with member | claim
  rcases List.mem_append.mp member with gone | published
  · cases previous with
    | none => cases gone
    | some old =>
      obtain ⟨k,_,here⟩ := List.mem_flatMap.mp gone
      unfold retireWrites at here
      split at here
      · exact indexOnly_unindexWrites old k w here
      · cases here
  · obtain ⟨k,_,here⟩ := List.mem_flatMap.mp published
    unfold publishWrites at here
    split at here
    · rw [List.mem_singleton.mp here]; trivial
    · cases here
  · unfold claimWrites at claim
    split at claim
    · split at claim
      · rw [List.mem_singleton.mp claim]; trivial
      · cases claim
    · cases claim

/-- The maps other than the indexes after the writes of an upsert. -/
theorem run_upsertWrites {previous : Option Entry} {entry : Entry} {spec : UserSpec}
    (ran : run d r (upsertWrites d r previous entry spec) = some r') :
    r' = { r with
      users := r.users.insert entry.context.id entry
      contexts := contextsAfter previous entry.context.address spec r.contexts
      index := r'.index
      anytlsPrefixes := r'.anytlsPrefixes } := by
  obtain ⟨now,_,split⟩ := upsertWrites_eq (d := d) (r := r) previous entry spec
  rw [split] at ran
  obtain ⟨first,contextRun,rest⟩ := run_append_eq_some ran
  obtain ⟨second,indexRun,userRun⟩ := run_append_eq_some rest
  rw [run_contextWrites,Option.some.injEq] at contextRun
  have indexed := run_indexOnly (indexOnly_upsertIndexWrites now previous entry) indexRun
  cases userRun
  rw [indexed,← contextRun]

theorem onPrefix_silent {writes : List Write} {start : Bytes}
    (silent : ∀ w ∈ writes, ∀ count, onPrefix d start count w = count) (count : Option Nat) :
    writes.foldl (onPrefix d start) count = count := by
  induction writes generalizing count with
  | nil => rfl
  | cons w rest ih =>
    rw [List.foldl_cons,silent w List.mem_cons_self]
    exact ih (fun w member => silent w (List.mem_cons_of_mem _ member)) count

theorem onPrefix_unindex_other (entry : Entry) {k : Kind} (other : k ≠ .anytls) (start : Bytes) (count : Option Nat) :
    (unindexWrites entry k).foldl (onPrefix d start) count = count := by
  refine onPrefix_silent (fun w member count => ?_) count
  unfold unindexWrites at member
  split at member
  · next key _ =>
    have empty : releaseWrites k key = [] := by cases k <;> first | rfl | exact absurd rfl other
    rw [empty] at member
    rw [List.mem_singleton.mp member]
    rfl
  · cases member

/-- A user's prefix is given back when it starts so. -/
theorem onPrefix_unindex_anytls (entry : Entry) (start : Bytes) (count : Option Nat) :
    (unindexWrites entry .anytls).foldl (onPrefix d start) count =
      if startsWith d start entry then released count else count := by
  have hash : entry.key .anytls = entry.anytlsHash := rfl
  unfold unindexWrites startsWith
  rw [hash]
  cases entry.anytlsHash with
  | none => simp
  | some hash => simp [onPrefix,releaseWrites]

theorem onPrefix_unindex (entry : Entry) (start : Bytes) (count : Option Nat) :
    (retireOrder.flatMap (unindexWrites entry)).foldl (onPrefix d start) count =
      if startsWith d start entry then released count else count := by
  simp [retireOrder,onPrefix_unindex_other,onPrefix_unindex_anytls]

theorem onPrefix_retireWrites (previous entry : Entry) (k : Kind) (start : Bytes) (count : Option Nat) :
    (retireWrites previous entry k).foldl (onPrefix d start) count =
      if k = .anytls ∧ previous.anytlsHash ≠ entry.anytlsHash ∧ startsWith d start previous then released count
      else count := by
  unfold retireWrites
  by_cases anytls : k = .anytls
  · subst anytls
    by_cases kept : previous.anytlsHash = entry.anytlsHash
    · have same : previous.key .anytls = entry.key .anytls := kept
      simp [same,kept]
    · have differ : previous.key .anytls ≠ entry.key .anytls := kept
      simp [differ,kept,onPrefix_unindex_anytls]
  · split <;> simp [anytls,onPrefix_unindex_other]

theorem onPrefix_retirePrevious (previous entry : Entry) (start : Bytes) (count : Option Nat) :
    (retirePrevious (some previous) entry).foldl (onPrefix d start) count =
      if previous.anytlsHash ≠ entry.anytlsHash ∧ startsWith d start previous then released count else count := by
  simp [retirePrevious,retireOrder,onPrefix_retireWrites]

theorem onPrefix_publish (entry : Entry) (order : List Kind) (start : Bytes) (count : Option Nat) :
    (order.flatMap (publishWrites entry)).foldl (onPrefix d start) count = count := by
  refine onPrefix_silent (fun w member count => ?_) count
  obtain ⟨k,_,here⟩ := List.mem_flatMap.mp member
  unfold publishWrites at here
  split at here
  · rw [List.mem_singleton.mp here]; rfl
  · cases here

theorem onPrefix_contextWrites (previous : Option Entry) (address : Nat) (spec : UserSpec) (start : Bytes)
    (count : Option Nat) : (contextWrites previous address spec).foldl (onPrefix d start) count = count := by
  unfold contextWrites
  split <;> rfl

theorem onPrefix_claimWrites (now : Option MemoryUserRegistry) (entry : Entry) (start : Bytes) (count : Option Nat) :
    (claimWrites now entry).foldl (onPrefix d start) count =
      if startsWith d start entry ∧ ∀ hash, entry.anytlsHash = some hash → now.bind (fun r => lookup r .anytls hash) = none
      then claimed count else count := by
  unfold claimWrites startsWith
  cases entry.anytlsHash with
  | none => simp
  | some hash =>
    simp only [Option.map_some,Option.some.injEq,decide_eq_true_eq,forall_eq']
    split
    · next absent => simp only [List.foldl_cons,List.foldl_nil,onPrefix,absent,and_true]
    · next present => simp only [List.foldl_nil,present,and_false,↓reduceIte]

theorem released_nonzero (n : Nat) : released (nonzero (n + 1)) = nonzero n := by
  simp [released,nonzero]

theorem claimed_nonzero (n : Nat) : claimed (nonzero n) = nonzero (n + 1) := by
  unfold claimed nonzero
  split <;> simp_all

/-- When the AnyTLS hash is inserted, its cell still holds what it held before the
    mutation, unless another key of the user lay there. -/
theorem lookup_before_anytls {previous : Option Entry} {entry : Entry} {spec : UserSpec} {now : MemoryUserRegistry}
    (ran : run d r (contextWrites previous entry.context.address spec ++ retirePrevious previous entry ++
      publishOrder.flatMap (publishWrites entry)) = some now) {hash : Bytes} (presents : entry.anytlsHash = some hash) :
    lookup now .anytls hash = lookup r .anytls hash := by
  have after := congrFun (cells_run ran) ⟨.anytls,hash⟩
  change lookup now .anytls hash = _ at after
  rw [after]
  refine store_of_unwritten _ (fun member => ?_)
  obtain ⟨⟨cell,value⟩,member,same⟩ := List.mem_map.mp member
  cases same
  rw [List.filterMap_append,List.filterMap_append,cellWrite_contextWrites,cellWrite_retirePrevious,List.nil_append,
    List.mem_append,mem_optionCells mem_retireOrder] at member
  rcases member with gone | published
  · obtain ⟨old,rfl,held⟩ := Option.bind_eq_some_iff.mp gone.1
    have own : entry.key .anytls = some hash := presents
    split at held
    · next differ => exact differ (held.trans own.symm)
    · cases held
  · obtain ⟨w,written,cell⟩ := List.mem_filterMap.mp published
    obtain ⟨k,order,here⟩ := List.mem_flatMap.mp written
    unfold publishWrites at here
    split at here
    · rw [List.mem_singleton.mp here] at cell
      cases cell
      exact absurd order (by decide)
    · cases here

/-- The prefix counts after the writes of an accepted upsert. -/
theorem prefixAt_upsert (inv : Indexed d r) {entry : Entry} {spec : UserSpec} (accepted : Accepted r entry)
    (ran : run d r (upsertWrites d r r.users[entry.context.id]? entry spec) = some r') (start : Bytes) :
    prefixAt r' start = nonzero (count (startsWith d start) (r.users.insert entry.context.id entry)) := by
  have counted := prefixAt_run ran start
  obtain ⟨now,isNow,split⟩ := upsertWrites_eq (d := d) (r := r) r.users[entry.context.id]? entry spec
  have nowExists : ∃ before, now = some before := by
    rw [upsertWrites,List.append_assoc,List.append_assoc] at ran
    obtain ⟨before,there,_⟩ := run_append_eq_some ran
    exact ⟨before,isNow.trans there⟩
  obtain ⟨before,rfl⟩ := nowExists
  have displaced : ∀ hash, entry.anytlsHash = some hash →
      (some before).bind (fun r => lookup r .anytls hash) = lookup r .anytls hash :=
    fun hash presents => lookup_before_anytls isNow.symm presents
  -- A hash that leads somewhere leads to this user, so it was this user's hash already.
  have freshHash : ∀ hash, entry.anytlsHash = some hash → (lookup r .anytls hash = none ↔
      ∀ previous, r.users[entry.context.id]? = some previous → previous.anytlsHash ≠ entry.anytlsHash) := by
    intro hash presents
    constructor
    · intro absent previous held same
      have led := (inv.indexed .anytls hash previous).mpr ⟨by rw [inv.named _ _ held]; exact held,same.trans presents⟩
      rw [absent] at led
      cases led
    · intro differ
      by_contra present
      obtain ⟨other,led⟩ := Option.ne_none_iff_exists'.mp present
      have owner := accepted.unclaimed .anytls hash other presents led
      obtain ⟨held,carries⟩ := (inv.indexed .anytls hash other).mp led
      rw [owner] at held
      exact differ other held (carries.trans presents.symm)
  rw [split,List.foldl_append,List.foldl_append,onPrefix_contextWrites,upsertIndexWrites,List.foldl_append,
    List.foldl_append,onPrefix_publish,onPrefix_claimWrites,inv.prefixes start] at counted
  have claims : (∀ hash, entry.anytlsHash = some hash → (some before).bind (fun r => lookup r .anytls hash) = none) ↔
      (entry.anytlsHash = none ∨ ∀ previous, r.users[entry.context.id]? = some previous →
        previous.anytlsHash ≠ entry.anytlsHash) := by
    cases hashed : entry.anytlsHash with
    | none => simp
    | some hash =>
      have fresh := freshHash hash hashed
      rw [hashed] at fresh
      simp only [Option.some.injEq,forall_eq',reduceCtorEq,false_or]
      rw [displaced hash hashed,fresh]
  simp only [List.foldl_cons,List.foldl_nil,claims] at counted
  rw [counted,count_insert]
  cases held : r.users[entry.context.id]? with
  | none =>
    simp only [retirePrevious,List.foldl_nil,reduceCtorEq,false_implies,implies_true,or_true,and_true,
      erase_of_unheld held,onPrefix]
    by_cases starts : startsWith d start entry
    · simp [starts,claimed_nonzero]
    · simp [starts]
  | some previous =>
    rw [count_erase (startsWith d start) held]
    simp only [onPrefix_retirePrevious,Option.some.injEq,forall_eq',onPrefix]
    by_cases same : previous.anytlsHash = entry.anytlsHash
    · have startsSame : startsWith d start previous = startsWith d start entry := by simp [startsWith,same]
      by_cases starts : startsWith d start entry
      · have present : entry.anytlsHash ≠ none := by
          intro absent
          simp [startsWith,absent] at starts
        simp [same,startsSame,starts,present]
      · simp [same,startsSame,starts]
    · by_cases startsOld : startsWith d start previous <;> by_cases startsNew : startsWith d start entry <;>
        simp [same,startsOld,startsNew,released_nonzero,claimed_nonzero]

theorem allocated_unindexWrites (inv : Indexed d r) {id : String} {entry : Entry} (held : r.users[id]? = some entry)
    (k : Kind) : ∀ w ∈ unindexWrites entry k, Allocated r w := by
  intro w member
  unfold unindexWrites at member
  split at member
  · next key carries =>
    have index : (r.index k).isSome := by
      rw [inv.allocated]
      exact inv.usable id entry k held (by simp [carries])
    rcases List.mem_cons.mp member with rfl | later
    · exact index
    · cases k <;> simp only [releaseWrites,List.not_mem_nil,List.mem_singleton] at later
      subst later
      change r.anytlsPrefixes.isSome
      rw [inv.prefixAllocated]
      rw [inv.allocated] at index
      exact index
  · cases member

/-- Every index that an accepted upsert writes is allocated. -/
theorem upsert_total (inv : Indexed d r) {entry : Entry} (spec : UserSpec) (accepted : Accepted r entry) :
    ∃ r', run d r (upsertWrites d r r.users[entry.context.id]? entry spec) = some r' := by
  refine run_total (fun w member => ?_)
  obtain ⟨now,_,split⟩ := upsertWrites_eq (d := d) (r := r) r.users[entry.context.id]? entry spec
  rw [split] at member
  rcases List.mem_append.mp member with context | member
  · unfold contextWrites at context
    split at context <;>
      simp only [List.cons_append,List.nil_append,List.mem_cons,List.not_mem_nil,or_false] at context <;>
      rcases context with rfl | rfl | rfl | rfl <;> trivial
  rcases List.mem_append.mp member with member | last
  · unfold upsertIndexWrites at member
    have index : ∀ k, (entry.key k).isSome → (r.index k).isSome := by
      intro k carries
      rw [inv.allocated]
      exact accepted.usable k carries
    rcases List.mem_append.mp member with member | claim
    rcases List.mem_append.mp member with gone | published
    · cases held : r.users[entry.context.id]? with
      | none =>
        rw [held] at gone
        cases gone
      | some old =>
        rw [held] at gone
        obtain ⟨k,_,here⟩ := List.mem_flatMap.mp gone
        unfold retireWrites at here
        split at here
        · exact allocated_unindexWrites inv held k w here
        · cases here
    · obtain ⟨k,_,here⟩ := List.mem_flatMap.mp published
      unfold publishWrites at here
      split at here
      · next key carries =>
        rw [List.mem_singleton.mp here]
        exact index k (by simp [carries])
      · cases here
    · unfold claimWrites at claim
      split at claim
      · next hash carries =>
        split at claim
        · rw [List.mem_singleton.mp claim]
          have anytls := accepted.usable .anytls (by simp [Entry.key,Credentials.key,carries])
          change r.anytlsPrefixes.isSome
          rw [inv.prefixAllocated]
          exact anytls
        · cases claim
      · cases claim
  · rw [List.mem_singleton.mp last]
    trivial

theorem length_contextsAfter (previous : Option Entry) (address : Nat) (spec : UserSpec) (contexts : List UserContext) :
    (contextsAfter previous address spec contexts).length = contexts.length + (if previous.isNone then 1 else 0) := by
  unfold contextsAfter
  split <;> simp

/-- The writes of an accepted upsert keep the maps in agreement. -/
theorem indexed_upsert (inv : Indexed d r) {entry : Entry} {spec : UserSpec} (accepted : Accepted r entry)
    (ran : run d r (upsertWrites d r r.users[entry.context.id]? entry spec) = some r') : Indexed d r' := by
  have maps := run_upsertWrites ran
  obtain ⟨kinds,index,prefixes⟩ := allocation_run ran
  have users : r'.users = r.users.insert entry.context.id entry := by rw [maps]
  have draining : r'.draining = r.draining := by rw [maps]
  have generations : r'.generations = r.generations := by rw [maps]
  have contexts : r'.contexts = contextsAfter r.users[entry.context.id]? entry.context.address spec r.contexts := by
    rw [maps]
  have user (id : String) (other : Entry) : r'.users[id]? = some other ↔
      (entry.context.id = id ∧ other = entry) ∨ (entry.context.id ≠ id ∧ r.users[id]? = some other) := by
    rw [users,lookup_insert]
    by_cases same : entry.context.id = id
    · simp [same,eq_comm]
    · simp [same]
  refine ⟨?_,?_,?_,?_,?_,?_,?_,?_,?_,?_,?_⟩
  · intro k
    rw [index,inv.allocated,kinds]
  · rw [prefixes,inv.prefixAllocated,kinds]
  · intro k key other
    rw [lookup_upsert ran,user]
    by_cases presents : entry.key k = some key
    · rw [if_pos presents,Option.some.injEq]
      constructor
      · rintro rfl
        exact ⟨.inl ⟨rfl,rfl⟩,presents⟩
      · rintro ⟨⟨_,rfl⟩ | ⟨apart,held⟩,carries⟩
        · rfl
        · have led := (inv.indexed k key other).mpr ⟨held,carries⟩
          exact absurd (accepted.unclaimed k key other presents led).symm apart
    · rw [if_neg presents]
      by_cases old : r.users[entry.context.id]?.bind (fun old => old.key k) = some key
      · rw [if_pos old]
        refine ⟨fun impossible => (by cases impossible),?_⟩
        rintro ⟨⟨_,rfl⟩ | ⟨apart,held⟩,carries⟩
        · exact absurd carries presents
        · obtain ⟨previous,there,carried⟩ := Option.bind_eq_some_iff.mp old
          have name := inv.named _ _ there
          have ledOld := (inv.indexed k key previous).mpr ⟨by rw [name]; exact there,carried⟩
          have led := (inv.indexed k key other).mpr ⟨held,carries⟩
          rw [ledOld,Option.some.injEq] at led
          exact absurd (by rw [← led,name]) apart
      · rw [if_neg old,inv.indexed]
        constructor
        · rintro ⟨held,carries⟩
          refine ⟨.inr ⟨fun same => old ?_,held⟩,carries⟩
          rw [same,held,Option.bind_some,carries]
        · rintro ⟨⟨_,rfl⟩ | ⟨_,held⟩,carries⟩
          · exact absurd carries presents
          · exact ⟨held,carries⟩
  · intro id other held
    rcases (user id other).mp held with ⟨same,rfl⟩ | ⟨_,held⟩
    · exact same
    · exact inv.named id other held
  · intro id other k held carries
    rw [kinds]
    rcases (user id other).mp held with ⟨_,rfl⟩ | ⟨_,held⟩
    · exact accepted.usable k carries
    · exact inv.usable id other k held carries
  · intro start
    rw [prefixAt_upsert inv accepted ran,users]
  · intro id other held
    rcases (user id other).mp held with ⟨_,rfl⟩ | ⟨_,held⟩
    · exact accepted.derived
    · exact inv.derived id other held
  · intro id other held
    rw [draining]
    rcases (user id other).mp held with ⟨rfl,rfl⟩ | ⟨_,held⟩
    · exact accepted.undrained
    · exact inv.disjoint id other held
  · intro id generation held
    rw [draining] at held
    rw [generations]
    exact inv.tombstoned id generation held
  · intro id other held
    rw [contexts,length_contextsAfter]
    rcases (user id other).mp held with ⟨rfl,rfl⟩ | ⟨_,held⟩
    · cases there : r.users[other.context.id]? with
      | none => simp [accepted.fresh there]
      | some previous =>
        rw [accepted.kept previous there]
        have bound := inv.recorded _ _ there
        omega
    · have bound := inv.recorded id other held
      omega
  · intro id id' first second held held' shared
    -- A fresh record lies beyond every other, and a kept one was already separate.
    have apart : ∀ id other, r.users[id]? = some other → entry.context.id ≠ id →
        other.context.address ≠ entry.context.address := by
      intro id other held differ equal
      cases there : r.users[entry.context.id]? with
      | none =>
        have bound := inv.recorded id other held
        rw [equal,accepted.fresh there] at bound
        omega
      | some previous =>
        rw [accepted.kept previous there] at equal
        have name := inv.named _ _ there
        exact differ (inv.separate _ _ _ _ held there equal).symm
    rcases (user id first).mp held with ⟨same,rfl⟩ | ⟨differ,held⟩ <;>
      rcases (user id' second).mp held' with ⟨same',rfl⟩ | ⟨differ',held'⟩
    · exact same.symm.trans same'
    · exact absurd shared.symm (apart id' second held' differ')
    · exact absurd shared (apart id first held differ)
    · exact inv.separate id id' first second held held' shared

theorem coherent_republish (inv : Indexed d r) (ran : run d r [.republishVmess] = some r') : Coherent d r' := by
  cases ran
  refine ⟨⟨inv.allocated,inv.prefixAllocated,inv.indexed,inv.named,inv.usable,inv.prefixes,inv.derived,inv.disjoint,
    inv.tombstoned,inv.recorded,inv.separate⟩,fun entry => ?_⟩
  simp only [List.mem_filter,List.mem_map,Prod.exists,exists_eq_right]
  constructor
  · rintro ⟨⟨id,member⟩,present⟩
    have held := (mem_toList r.users).mp member
    rw [inv.named id entry held]
    exact ⟨held,by rw [← inv.derived id entry held]; exact present⟩
  · rintro ⟨held,present⟩
    exact ⟨⟨entry.context.id,(mem_toList r.users).mpr held⟩,by rw [inv.derived _ entry held]; exact present⟩

/-! ### A removal -/

theorem cellWrite_retirement (entry : Entry) (id : String) :
    (retirement entry id).filterMap cellWrite =
      retireOrder.flatMap (fun k => (entry.key k).toList.map (fun key => (⟨k,key⟩,none))) := by
  simp only [retirement,List.filterMap_append,List.filterMap_flatMap,cellWrite_unindexWrites,List.filterMap_cons,
    List.filterMap_nil,cellWrite,List.nil_append,List.append_nil]

theorem nodup_retirementCells (entry : Entry) (id : String) :
    (((retirement entry id).filterMap cellWrite).map Prod.fst).Nodup := by
  rw [cellWrite_retirement]
  exact nodup_optionCells (by decide) _

theorem lookup_retirement {entry : Entry} {id : String} (ran : run d r (retirement entry id) = some r') (k : Kind)
    (key : k.Key) : lookup r' k key = if entry.key k = some key then none else lookup r k key := by
  have after := congrFun (cells_run ran) ⟨k,key⟩
  change lookup r' k key = _ at after
  rw [after]
  split
  · next carries =>
    refine store_of_written _ (nodup_retirementCells entry id) ?_
    rw [cellWrite_retirement,mem_optionCells mem_retireOrder]
    exact ⟨carries,rfl⟩
  · next absent =>
    refine store_of_unwritten _ (fun member => ?_)
    obtain ⟨⟨cell,value⟩,member,same⟩ := List.mem_map.mp member
    cases same
    rw [cellWrite_retirement,mem_optionCells mem_retireOrder] at member
    exact absent member.1

theorem prefixAt_retirement {entry : Entry} {id : String} (ran : run d r (retirement entry id) = some r')
    (start : Bytes) :
    prefixAt r' start = if startsWith d start entry then released (prefixAt r start) else prefixAt r start := by
  rw [prefixAt_run ran,retirement,List.foldl_append,List.foldl_append,onPrefix_unindex]
  rfl

theorem retirement_total (inv : Indexed d r) {entry : Entry} {id : String} (held : r.users[id]? = some entry) :
    ∃ r', run d r (retirement entry id) = some r' := by
  refine run_total (fun w member => ?_)
  rcases List.mem_append.mp member with member | last
  rcases List.mem_append.mp member with first | indexed
  · simp only [List.mem_cons,List.not_mem_nil,or_false] at first
    rcases first with rfl | rfl | rfl <;> trivial
  · obtain ⟨k,_,here⟩ := List.mem_flatMap.mp indexed
    exact allocated_unindexWrites inv held k w here
  · rw [List.mem_singleton.mp last]
    trivial

/-- The maps other than the indexes after the writes of a removal. -/
theorem run_retirement {entry : Entry} {id : String} (ran : run d r (retirement entry id) = some r') :
    ∃ before, run d before [.republishVmess] = some r' ∧ before = { r with
      users := r.users.erase id
      draining := r.draining.insert entry.context.id r.generations.length
      generations := r.generations ++ [⟨entry,none⟩]
      contexts := r.contexts.modify entry.context.address (fun context => { context with revoked := true })
      index := before.index
      anytlsPrefixes := before.anytlsPrefixes } := by
  obtain ⟨before,earlier,last⟩ := run_append_eq_some ran
  obtain ⟨first,removed,indexRun⟩ := run_append_eq_some earlier
  have indexed := run_indexOnly (fun w member => by
    obtain ⟨k,_,here⟩ := List.mem_flatMap.mp member
    exact indexOnly_unindexWrites entry k w here) indexRun
  cases removed
  exact ⟨before,last,indexed⟩

/-- A removal keeps the maps in agreement. -/
theorem coherent_retirement (inv : Indexed d r) {entry : Entry} {id : String} (held : r.users[id]? = some entry)
    (ran : run d r (retirement entry id) = some r') : Coherent d r' := by
  obtain ⟨before,republished,maps⟩ := run_retirement ran
  have name := inv.named id entry held
  obtain ⟨kinds,index,prefixes⟩ := allocation_run ran
  have sameIndex : r'.index = before.index ∧ r'.anytlsPrefixes = before.anytlsPrefixes ∧ r'.kinds = before.kinds := by
    cases republished
    exact ⟨rfl,rfl,rfl⟩
  have sameLookup (k : Kind) (key : k.Key) : lookup before k key = lookup r' k key := by
    simp [lookup,sameIndex.1]
  have user (other : String) (e : Entry) : before.users[other]? = some e ↔ id ≠ other ∧ r.users[other]? = some e := by
    rw [maps,lookup_erase]
    by_cases same : id = other <;> simp [same]
  have contexts : before.contexts.length = r.contexts.length := by rw [maps]; simp
  have generations : before.generations = r.generations ++ [⟨entry,none⟩] := by rw [maps]
  have draining : before.draining = r.draining.insert id r.generations.length := by rw [maps,name]
  refine coherent_republish ⟨?_,?_,?_,?_,?_,?_,?_,?_,?_,?_,?_⟩ republished
  · intro k
    rw [← sameIndex.1,index,inv.allocated,← sameIndex.2.2,kinds]
  · rw [← sameIndex.2.1,prefixes,inv.prefixAllocated,← sameIndex.2.2,kinds]
  · intro k key other
    rw [sameLookup,lookup_retirement ran,user]
    by_cases carries : entry.key k = some key
    · rw [if_pos carries]
      refine ⟨fun impossible => (by cases impossible),?_⟩
      rintro ⟨⟨apart,there⟩,carried⟩
      have led := (inv.indexed k key entry).mpr ⟨by rw [name]; exact held,carries⟩
      have led' := (inv.indexed k key other).mpr ⟨there,carried⟩
      rw [led,Option.some.injEq] at led'
      exact absurd (by rw [← led',name]) apart
    · rw [if_neg carries,inv.indexed]
      constructor
      · rintro ⟨there,carried⟩
        refine ⟨⟨fun same => carries ?_,there⟩,carried⟩
        rw [← same,held,Option.some.injEq] at there
        rw [there,carried]
      · rintro ⟨⟨_,there⟩,carried⟩
        exact ⟨there,carried⟩
  · intro other e there
    exact inv.named other e ((user other e).mp there).2
  · intro other e k there carries
    rw [← sameIndex.2.2,kinds]
    exact inv.usable other e k ((user other e).mp there).2 carries
  · intro start
    have counted := prefixAt_retirement ran start
    have same : prefixAt before start = prefixAt r' start := by simp [prefixAt,sameIndex.2.1]
    have users : before.users = r.users.erase id := by rw [maps]
    rw [same,counted,inv.prefixes,count_erase _ held,users]
    by_cases starts : startsWith d start entry
    · simp [starts,released_nonzero]
    · simp [starts]
  · intro other e there
    exact inv.derived other e ((user other e).mp there).2
  · intro other e there
    obtain ⟨apart,there⟩ := (user other e).mp there
    rw [draining,lookup_insert,if_neg apart]
    exact inv.disjoint other e there
  · intro other generation there
    rw [draining,lookup_insert] at there
    rw [generations]
    split at there
    · next same =>
      cases there
      exact ⟨⟨entry,none⟩,by simp,by rw [name,same]⟩
    · obtain ⟨tombstone,found,named⟩ := inv.tombstoned other generation there
      refine ⟨tombstone,?_,named⟩
      have bound := (List.getElem?_eq_some_iff.mp found).1
      rw [List.getElem?_append_left bound]
      exact found
  · intro other e there
    rw [contexts]
    exact inv.recorded other e ((user other e).mp there).2
  · intro first second e e' there there' shared
    exact inv.separate first second e e' ((user first e).mp there).2 ((user second e').mp there').2 shared

end NodeAgent.RegistryCoherence
