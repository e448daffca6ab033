import Mathlib.Data.List.Flatten
import NodeAgent.RegistryRuns

/-!
Lookups during a mutation. The only writer makes its map writes one at a time and
a reader may look between any two of them; removals that finish and connections
that come and go may interleave as well. A reader never meets a wrong owner, and a
key that keeps its enabled owner is never missing (`readers_never_misled`).
-/
namespace NodeAgent.RegistryReaders
open NodeAgent.Api NodeAgent.Credential NodeAgent.FiniteMap NodeAgent.Cells NodeAgent.Registry
  NodeAgent.RegistryCoherence NodeAgent.RegistryRuns NodeAgent.Transition

variable {d : Derivations} {a b r r' : MemoryUserRegistry}

/-- The registry, the writes that the mutation in progress still has to make, and the
    registry from which it started. -/
structure State where
  registry : MemoryUserRegistry
  pending : List Write
  before : MemoryUserRegistry

inductive Event
  /-- A writer takes the lock for an upsert. -/
  | upsert (spec : UserSpec)
  /-- A writer takes the lock for a removal. -/
  | remove (tag id : String)
  /-- The writer makes its next write. -/
  | write
  /-- A step beside the writer: a snapshot, a cleared tombstone, or traffic. -/
  | complete (generation : Nat) (info : UserInfo)
  | clear (generation : Nat)
  | activity (address : Nat) (tx rx observedAt : UInt64) (conns totalConns : Nat)

/-- The writes that a removal makes, if it removes somebody. -/
def removalWrites (r : MemoryUserRegistry) (id : String) : List Write :=
  match r.users[id]? with
  | some entry => retirement entry id
  | none => []

def upsertPlan (d : Derivations) (r : MemoryUserRegistry) (spec : UserSpec) : List Write :=
  match upsertLocked d r spec with
  | .ok (_,writes) => writes ++ [.republishVmess]
  | .error _ => []

def step (d : Derivations) (s : State) : Event → Option State
  | .upsert spec =>
    match s.pending with
    | [] => some ⟨s.registry,upsertPlan d s.registry spec,s.registry⟩
    | _ => none
  | .remove _ id =>
    match s.pending with
    | [] => some ⟨s.registry,removalWrites s.registry id,s.registry⟩
    | _ => none
  | .write =>
    match s.pending with
    | w :: rest => (apply d s.registry w).map (fun r => ⟨r,rest,s.before⟩)
    | [] => none
  | .complete generation info =>
    (RegistryRuns.step d s.registry (.complete generation info)).map (fun r => { s with registry := r })
  | .clear generation => (RegistryRuns.step d s.registry (.clear generation)).map (fun r => { s with registry := r })
  | .activity address tx rx observedAt conns totalConns =>
    (RegistryRuns.step d s.registry (.activity address tx rx observedAt conns totalConns)).map
      (fun r => { s with registry := r })

/-! ### Steps beside the writer -/

/-- Two registries that differ at most in counters, snapshots and collected tombstones. -/
structure Alike (a b : MemoryUserRegistry) : Prop where
  kinds : b.kinds = a.kinds
  users : b.users = a.users
  index : b.index = a.index
  prefixes : b.anytlsPrefixes = a.anytlsPrefixes
  candidates : b.vmessCandidates = a.vmessCandidates
  enabled : b.contexts.map UserContext.enabled = a.contexts.map UserContext.enabled
  draining : ∀ (id : String) (generation : Nat), b.draining[id]? = some generation → a.draining[id]? = some generation
  entries : b.generations.map DrainingUser.entry = a.generations.map DrainingUser.entry

theorem Alike.refl (r : MemoryUserRegistry) : Alike r r := ⟨rfl,rfl,rfl,rfl,rfl,rfl,fun _ _ held => held,rfl⟩

theorem Alike.trans {c : MemoryUserRegistry} (first : Alike a b) (second : Alike b c) : Alike a c :=
  ⟨second.kinds.trans first.kinds,second.users.trans first.users,second.index.trans first.index,
    second.prefixes.trans first.prefixes,second.candidates.trans first.candidates,second.enabled.trans first.enabled,
    fun id generation held => first.draining id generation (second.draining id generation held),
    second.entries.trans first.entries⟩

theorem Alike.lookup (alike : Alike a b) (k : Kind) (key : k.Key) : lookup b k key = lookup a k key := by
  simp [Registry.lookup,alike.index]

theorem Alike.isEnabled (alike : Alike a b) (context : ContextRef) : isEnabled b context = isEnabled a context := by
  have flag (r : MemoryUserRegistry) : Registry.isEnabled r context =
      ((r.contexts.map UserContext.enabled)[context.address]?).any id := by
    cases held : r.contexts[context.address]? <;> simp [Registry.isEnabled,held]
  rw [flag,flag,alike.enabled]

theorem Alike.coherent (alike : Alike a b) (inv : Coherent d a) : Coherent d b := by
  have length : b.contexts.length = a.contexts.length := by
    have equal := congrArg List.length alike.enabled
    simpa using equal
  refine ⟨⟨?_,?_,?_,?_,?_,?_,?_,?_,?_,?_,?_⟩,?_⟩
  · intro k; rw [alike.index,alike.kinds]; exact inv.allocated k
  · rw [alike.prefixes,alike.kinds]; exact inv.prefixAllocated
  · intro k key entry; rw [alike.lookup,alike.users]; exact inv.indexed k key entry
  · rw [alike.users]; exact inv.named
  · rw [alike.users,alike.kinds]; exact inv.usable
  · intro start
    have same : prefixAt b start = prefixAt a start := by simp [prefixAt,alike.prefixes]
    rw [same,alike.users]
    exact inv.prefixes start
  · rw [alike.users]; exact inv.derived
  · rw [alike.users]
    intro id entry held
    cases there : b.draining[id]? with
    | none => rfl
    | some generation =>
      have absent := inv.disjoint id entry held
      rw [alike.draining id generation there] at absent
      cases absent
  · intro id generation held
    obtain ⟨tombstone,found,named⟩ := inv.tombstoned id generation (alike.draining id generation held)
    have entryThere : (b.generations.map DrainingUser.entry)[generation]? = some tombstone.entry := by
      rw [alike.entries,List.getElem?_map,found]
      rfl
    rw [List.getElem?_map,Option.map_eq_some_iff] at entryThere
    obtain ⟨other,there,same⟩ := entryThere
    exact ⟨other,there,by rw [same,named]⟩
  · rw [alike.users,length]; exact inv.recorded
  · rw [alike.users]; exact inv.separate
  · rw [alike.users,alike.candidates]; exact inv.candidates

private theorem map_modify_of_same {α β : Type} (f : α → β) {g : α → α} (same : ∀ x, f (g x) = f x) (xs : List α)
    (i : Nat) : (xs.modify i g).map f = xs.map f := by
  apply List.ext_getElem?
  intro j
  simp only [List.getElem?_map,List.getElem?_modify]
  cases xs[j]? with
  | none => rfl
  | some x => by_cases here : i = j <;> simp [here,same]

private theorem map_modify_of_const {α β : Type} (f : α → β) {g : α → α} {v : β} (const : ∀ x, f (g x) = v) (xs : List α)
    (i : Nat) : (xs.modify i g).map f = (xs.map f).modify i (fun _ => v) := by
  apply List.ext_getElem?
  intro j
  simp only [List.getElem?_map,List.getElem?_modify]
  cases xs[j]? with
  | none => rfl
  | some x => by_cases here : i = j <;> simp [here,const]

/-- The writer makes the same write whether or not the steps beside it happened. -/
theorem alike_apply (alike : Alike a b) {w : Write} {a' : MemoryUserRegistry} (applied : apply d a w = some a') :
    ∃ b', apply d b w = some b' ∧ Alike a' b' := by
  cases w with
  | newContext =>
    cases applied
    exact ⟨_,rfl,alike.kinds,alike.users,alike.index,alike.prefixes,alike.candidates,by simp [alike.enabled],
      alike.draining,alike.entries⟩
  | setEnabled address enabled =>
    cases applied
    refine ⟨_,rfl,alike.kinds,alike.users,alike.index,alike.prefixes,alike.candidates,?_,alike.draining,alike.entries⟩
    change (b.contexts.modify _ _).map _ = (a.contexts.modify _ _).map _
    rw [map_modify_of_const _ (v := enabled) (fun _ => rfl),map_modify_of_const _ (v := enabled) (fun _ => rfl),
      alike.enabled]
  | setMaxConns | setSpeedLimits | revokeConnections =>
    cases applied
    refine ⟨_,rfl,alike.kinds,alike.users,alike.index,alike.prefixes,alike.candidates,?_,alike.draining,alike.entries⟩
    refine Eq.trans ?_ (alike.enabled.trans (Eq.symm ?_))
    · apply map_modify_of_same
      exact fun _ => rfl
    · apply map_modify_of_same
      exact fun _ => rfl
  | insertUser id entry =>
    cases applied
    exact ⟨_,rfl,alike.kinds,by simp [alike.users],alike.index,alike.prefixes,alike.candidates,alike.enabled,
      alike.draining,alike.entries⟩
  | removeUser id =>
    cases applied
    exact ⟨_,rfl,alike.kinds,by simp [alike.users],alike.index,alike.prefixes,alike.candidates,alike.enabled,
      alike.draining,alike.entries⟩
  | insertDraining entry =>
    cases applied
    have length : b.generations.length = a.generations.length := by
      have equal := congrArg List.length alike.entries
      simpa using equal
    refine ⟨_,rfl,alike.kinds,alike.users,alike.index,alike.prefixes,alike.candidates,alike.enabled,?_,
      by simp [alike.entries]⟩
    intro id generation held
    simp only [lookup_insert,length] at held ⊢
    split at held
    · next same => rw [if_pos same]; exact held
    · next apart => rw [if_neg apart]; exact alike.draining id generation held
  | indexInsert k key | indexRemove k key =>
    obtain ⟨entries,held,rfl⟩ := Option.map_eq_some_iff.mp applied
    refine ⟨_,Option.map_eq_some_iff.mpr ⟨entries,by rw [alike.index]; exact held,rfl⟩,?_⟩
    exact ⟨alike.kinds,alike.users,by rw [alike.index],alike.prefixes,alike.candidates,alike.enabled,alike.draining,
      alike.entries⟩
  | claimAnytlsPrefix hash | releaseAnytlsPrefix hash =>
    obtain ⟨prefixes,held,rfl⟩ := Option.map_eq_some_iff.mp applied
    refine ⟨_,Option.map_eq_some_iff.mpr ⟨prefixes,by rw [alike.prefixes]; exact held,rfl⟩,?_⟩
    exact ⟨alike.kinds,alike.users,alike.index,rfl,alike.candidates,alike.enabled,alike.draining,alike.entries⟩
  | republishVmess =>
    cases applied
    exact ⟨_,rfl,alike.kinds,alike.users,alike.index,alike.prefixes,by simp [alike.users],alike.enabled,
      alike.draining,alike.entries⟩

theorem alike_run (alike : Alike a b) {writes : List Write} {a' : MemoryUserRegistry} (ran : run d a writes = some a') :
    ∃ b', run d b writes = some b' ∧ Alike a' b' := by
  induction writes generalizing a b with
  | nil => cases ran; exact ⟨b,rfl,alike⟩
  | cons w rest ih =>
    obtain ⟨middle,applied,ran⟩ := run_cons_eq_some ran
    obtain ⟨middle',applied',alike'⟩ := alike_apply alike applied
    obtain ⟨b',ran',last⟩ := ih alike' ran
    exact ⟨b',by simp [run,applied',ran'],last⟩

theorem alike_complete (r : MemoryUserRegistry) (generation : Nat) (info : UserInfo) :
    ∃ r', RegistryRuns.step d r (.complete generation info) = some r' ∧ Alike r r' := by
  refine ⟨_,rfl,rfl,rfl,rfl,rfl,rfl,rfl,fun _ _ held => held,?_⟩
  apply map_modify_of_same
  exact fun _ => rfl

theorem alike_clear (r : MemoryUserRegistry) (generation : Nat) :
    ∃ r', RegistryRuns.step d r (.clear generation) = some r' ∧ Alike r r' := by
  refine ⟨_,rfl,?_⟩
  unfold clearDrainingGeneration
  split
  · split
    · refine ⟨rfl,rfl,rfl,rfl,rfl,rfl,?_,rfl⟩
      intro id other held
      simp only [lookup_erase] at held
      split at held
      · cases held
      · exact held
    · exact Alike.refl r
  · exact Alike.refl r

theorem alike_activity (r : MemoryUserRegistry) (address : Nat) (tx rx observedAt : UInt64) (conns totalConns : Nat) :
    ∃ r', RegistryRuns.step d r (.activity address tx rx observedAt conns totalConns) = some r' ∧ Alike r r' := by
  refine ⟨_,rfl,rfl,rfl,rfl,rfl,rfl,?_,fun _ _ held => held,rfl⟩
  apply map_modify_of_same
  exact fun _ => rfl

/-! ### Between two writes -/

/-- What a write does to the enabled flag of an existing record. -/
def onEnabled (address : Nat) (flag : Bool) : Write → Bool
  | .setEnabled touched enabled => if touched = address then enabled else flag
  | _ => flag

theorem enabled_apply {w : Write} {context : UserContext} {address : Nat} (held : r.contexts[address]? = some context)
    (applied : apply d r w = some r') :
    ∃ context', r'.contexts[address]? = some context' ∧ context'.enabled = onEnabled address context.enabled w := by
  cases w with
  | newContext =>
    cases applied
    have bound := (List.getElem?_eq_some_iff.mp held).1
    exact ⟨context,by rw [List.getElem?_append_left bound]; exact held,rfl⟩
  | setEnabled touched enabled =>
    cases applied
    exact ⟨_,modifyContext_at held touched _,by simp only [onEnabled]; split <;> rfl⟩
  | setMaxConns touched | setSpeedLimits touched | revokeConnections touched =>
    cases applied
    exact ⟨_,modifyContext_at held touched _,by simp only [onEnabled]; split <;> rfl⟩
  | indexInsert | indexRemove | claimAnytlsPrefix | releaseAnytlsPrefix =>
    obtain ⟨_,_,rfl⟩ := Option.map_eq_some_iff.mp applied
    exact ⟨context,held,rfl⟩
  | insertUser | removeUser | insertDraining | republishVmess =>
    cases applied
    exact ⟨context,held,rfl⟩

theorem enabled_run {writes : List Write} {context : UserContext} {address : Nat}
    (held : r.contexts[address]? = some context) (ran : run d r writes = some r') :
    ∃ context', r'.contexts[address]? = some context' ∧
      context'.enabled = writes.foldl (onEnabled address) context.enabled := by
  induction writes generalizing r context with
  | nil => cases ran; exact ⟨context,held,rfl⟩
  | cons w rest ih =>
    obtain ⟨middle,applied,ran⟩ := run_cons_eq_some ran
    obtain ⟨context',held',flag⟩ := enabled_apply held applied
    obtain ⟨last,there,flags⟩ := ih held' ran
    exact ⟨last,there,by rw [flags,flag,List.foldl_cons]⟩

/-- Every enabled flag that the writes set is `value`. -/
def SetsOnly (value : Bool) (writes : List Write) : Prop :=
  ∀ w ∈ writes, ∀ address enabled, w = .setEnabled address enabled → enabled = value

theorem onEnabled_setsOnly {writes : List Write} {value : Bool} (only : SetsOnly value writes) (address : Nat)
    (flag : Bool) :
    writes.foldl (onEnabled address) flag = flag ∨ writes.foldl (onEnabled address) flag = value := by
  induction writes generalizing flag with
  | nil => exact .inl rfl
  | cons w rest ih =>
    have first : onEnabled address flag w = flag ∨ onEnabled address flag w = value := by
      cases w with
      | setEnabled touched enabled =>
        have same := only _ List.mem_cons_self touched enabled rfl
        by_cases here : touched = address
        · right; simp [onEnabled,here,same]
        · left; simp [onEnabled,here]
      | _ => exact .inl rfl
    have later := ih (fun w member => only w (List.mem_cons_of_mem _ member)) (onEnabled address flag w)
    rw [List.foldl_cons]
    rcases first with kept | set
    · rw [kept] at later ⊢; exact later
    · rw [set] at later ⊢; exact .inr (later.elim id id)

/-- A record that is enabled before and after a mutation is enabled throughout. -/
theorem enabled_midway {done rest : List Write} {value : Bool} (only : SetsOnly value (done ++ rest)) {address : Nat}
    (after : (done ++ rest).foldl (onEnabled address) true = true) : done.foldl (onEnabled address) true = true := by
  have onlyDone : SetsOnly value done := fun w member => only w (List.mem_append_left _ member)
  have onlyRest : SetsOnly value rest := fun w member => only w (List.mem_append_right _ member)
  rcases onEnabled_setsOnly onlyDone address true with kept | set
  · exact kept
  · rw [set]
    cases value with
    | true => rfl
    | false =>
      rw [List.foldl_append,set] at after
      rcases onEnabled_setsOnly onlyRest address false with last | last <;> rw [last] at after <;> cases after

/-- The writes that give back a prefix. -/
def releases (d : Derivations) (start : Bytes) : Write → Bool
  | .releaseAnytlsPrefix hash => d.passwordSha256Prefix hash = start
  | _ => false

/-- A count goes down by at most one per release. -/
theorem onPrefix_bound (start : Bytes) (writes : List Write) (n : Nat) :
    ∃ m, writes.foldl (onPrefix d start) (nonzero n) = nonzero m ∧ n ≤ m + writes.countP (releases d start) := by
  induction writes generalizing n with
  | nil => exact ⟨n,rfl,by simp⟩
  | cons w rest ih =>
    have first : ∃ m, onPrefix d start (nonzero n) w = nonzero m ∧ n ≤ m + (if releases d start w then 1 else 0) := by
      cases w with
      | claimAnytlsPrefix hash =>
        by_cases here : d.passwordSha256Prefix hash = start
        · exact ⟨n + 1,by simp [onPrefix,here,claimed_nonzero],by omega⟩
        · exact ⟨n,by simp [onPrefix,here],by omega⟩
      | releaseAnytlsPrefix hash =>
        by_cases here : d.passwordSha256Prefix hash = start
        · cases n with
          | zero => exact ⟨0,by simp [onPrefix,here,nonzero,released],by omega⟩
          | succ n => exact ⟨n,by simp [onPrefix,here,released_nonzero],by simp [releases,here]⟩
        · exact ⟨n,by simp [onPrefix,here],by omega⟩
      | _ => exact ⟨n,rfl,by omega⟩
    obtain ⟨m,stepped,bound⟩ := first
    obtain ⟨last,folded,rest_bound⟩ := ih m
    refine ⟨last,by rw [List.foldl_cons,stepped,folded],?_⟩
    rw [List.countP_cons]
    omega

theorem countP_flatMap_unindex (entry : Entry) (start : Bytes) :
    (retireOrder.flatMap (unindexWrites entry)).countP (releases d start) = if startsWith d start entry then 1 else 0 := by
  have others : ∀ k, k ≠ .anytls → (unindexWrites entry k).countP (releases d start) = 0 := by
    intro k other
    unfold unindexWrites
    cases entry.key k with
    | none => rfl
    | some key => cases k <;> first | rfl | exact absurd rfl other
  have own : (unindexWrites entry .anytls).countP (releases d start) = if startsWith d start entry then 1 else 0 := by
    have hash : entry.key .anytls = entry.anytlsHash := rfl
    unfold unindexWrites startsWith
    rw [hash]
    cases entry.anytlsHash with
    | none => simp
    | some hash => by_cases here : d.passwordSha256Prefix hash = start <;> simp [releaseWrites,releases,here]
  simp [retireOrder,others,own]

/-- An upsert gives a prefix back only for a hash that it retires. -/
theorem countP_retirePrevious (previous entry : Entry) (start : Bytes) :
    (retirePrevious (some previous) entry).countP (releases d start) ≤
      if previous.anytlsHash ≠ entry.anytlsHash ∧ startsWith d start previous then 1 else 0 := by
  by_cases kept : previous.anytlsHash = entry.anytlsHash
  · have none_released : (retirePrevious (some previous) entry).countP (releases d start) = 0 := by
      rw [List.countP_eq_zero]
      intro w member
      obtain ⟨k,_,here⟩ := List.mem_flatMap.mp member
      unfold retireWrites at here
      split at here
      · next differ =>
        unfold unindexWrites at here
        split at here
        · rcases List.mem_cons.mp here with rfl | later
          · simp [releases]
          · cases k <;> simp only [releaseWrites,List.not_mem_nil] at later
            exact absurd kept differ
        · cases here
      · cases here
    simp [none_released]
  · have sub : List.Sublist (retirePrevious (some previous) entry) (retireOrder.flatMap (unindexWrites previous)) := by
      unfold retirePrevious
      refine List.Sublist.flatMap_right _ (fun k _ => ?_)
      unfold retireWrites
      split
      · exact List.Sublist.refl _
      · exact List.nil_sublist _
    have bound := sub.countP_le (p := releases d start)
    rw [countP_flatMap_unindex] at bound
    simpa [kept] using bound

/-- Of all the writes of an upsert, only the retirement gives prefixes back. -/
theorem countP_upsertPlan (previous : Option Entry) (entry : Entry) (spec : UserSpec) (start : Bytes) :
    (upsertWrites d r previous entry spec ++ [Write.republishVmess]).countP (releases d start) =
      (retirePrevious previous entry).countP (releases d start) := by
  have publish : ∀ order : List Kind, (order.flatMap (publishWrites entry)).countP (releases d start) = 0 := by
    intro order
    rw [List.countP_eq_zero]
    intro w member
    obtain ⟨k,_,here⟩ := List.mem_flatMap.mp member
    unfold publishWrites at here
    split at here
    · rw [List.mem_singleton.mp here]; simp [releases]
    · cases here
  have claim : ∀ now, (claimWrites now entry).countP (releases d start) = 0 := by
    intro now
    unfold claimWrites
    split
    · split <;> rfl
    · rfl
  have context : (contextWrites previous entry.context.address spec).countP (releases d start) = 0 := by
    unfold contextWrites
    split <;> rfl
  obtain ⟨now,_,split⟩ := upsertWrites_eq (d := d) (r := r) previous entry spec
  rw [split,upsertIndexWrites]
  simp only [List.countP_append,publish,claim,context]
  simp [releases]

/-- A whole mutation, from one coherent registry to the next. -/
structure Mutation (d : Derivations) (before after : MemoryUserRegistry) (writes : List Write) : Prop where
  coherent : Coherent d before
  ran : run d before writes = some after
  coherentAfter : Coherent d after
  /-- No index cell is written twice. -/
  distinct : ((writes.filterMap cellWrite).map Prod.fst).Nodup
  sets : ∃ value, SetsOnly value writes
  /-- A user who stays keeps the accounting record. -/
  sameRecord : ∀ (id : String) (entry entry' : Entry), before.users[id]? = some entry → after.users[id]? = some entry' →
    entry.context = entry'.context
  /-- A prefix that a user keeps presenting is not given back by everybody. -/
  keepsPrefix : ∀ (start : Bytes) (id : String) (entry entry' : Entry), before.users[id]? = some entry →
    after.users[id]? = some entry' → entry.anytlsHash = entry'.anytlsHash → startsWith d start entry →
    writes.countP (releases d start) < count (startsWith d start) before.users

theorem mutation_nil (inv : Coherent d r) : Mutation d r r [] := by
  refine ⟨inv,rfl,inv,List.nodup_nil,⟨true,fun _ member => by cases member⟩,?_,?_⟩
  · intro id entry entry' held held'
    rw [held,Option.some.injEq] at held'
    rw [held']
  · intro start id entry entry' held _ _ starts
    exact count_pos.mpr ⟨id,entry,held,starts⟩

theorem count_erase_pos {users : Map String Entry} (test : Entry → Bool) {id other : String} {entry : Entry}
    (held : users[other]? = some entry) (apart : id ≠ other) (passes : test entry) : 0 < count test (users.erase id) :=
  count_pos.mpr ⟨other,entry,by rw [lookup_erase,if_neg apart]; exact held,passes⟩

theorem mutation_upsert (inv : Coherent d r) {entry : Entry} {spec : UserSpec} (accepted : Accepted r entry) :
    ∃ after, Mutation d r after (upsertWrites d r r.users[entry.context.id]? entry spec ++ [.republishVmess]) := by
  obtain ⟨middle,ran⟩ := upsert_total inv.toIndexed spec accepted
  have republished : ∃ after, run d middle [.republishVmess] = some after ∧ after.users = middle.users := ⟨_,rfl,rfl⟩
  obtain ⟨after,last,sameUsers⟩ := republished
  have users : after.users = r.users.insert entry.context.id entry := by
    rw [sameUsers,run_upsertWrites ran]
  refine ⟨after,inv,by rw [run_append,ran,Option.bind_some,last],coherent_republish (indexed_upsert inv.toIndexed accepted ran)
    last,?_,⟨spec.enabled,?_⟩,?_,?_⟩
  · have cells : (upsertWrites d r r.users[entry.context.id]? entry spec ++ [Write.republishVmess]).filterMap cellWrite =
        (upsertWrites d r r.users[entry.context.id]? entry spec).filterMap cellWrite := by
      simp only [List.filterMap_append,List.filterMap_cons,List.filterMap_nil,cellWrite,List.append_nil]
    rw [cells]
    exact nodup_upsertCells r _ entry spec
  · intro w member address enabled same
    subst same
    rcases List.mem_append.mp member with member | last
    · obtain ⟨now,_,split⟩ := upsertWrites_eq (d := d) (r := r) r.users[entry.context.id]? entry spec
      rw [split] at member
      rcases List.mem_append.mp member with context | member
      · unfold contextWrites at context
        split at context <;> simp at context <;> exact context.2
      rcases List.mem_append.mp member with index | last
      · exact absurd (indexOnly_upsertIndexWrites now _ entry _ index) (by simp [IndexOnly])
      · simp at last
    · simp at last
  · intro id first second held held'
    rw [users,lookup_insert] at held'
    split at held'
    · next same =>
      cases held'
      rw [accepted.kept first (by rw [same]; exact held)]
    · rw [held,Option.some.injEq] at held'
      rw [held']
  · intro start id first second held held' same starts
    rw [countP_upsertPlan]
    have holder : 0 < count (startsWith d start) r.users := count_pos.mpr ⟨id,first,held,starts⟩
    cases there : r.users[entry.context.id]? with
    | none => exact holder
    | some previous =>
      have bound := countP_retirePrevious (d := d) previous entry start
      by_cases mutated : entry.context.id = id
      · subst mutated
        rw [there,Option.some.injEq] at held
        rw [users,lookup_insert,if_pos rfl,Option.some.injEq] at held'
        subst held held'
        simp only [same,ne_eq,not_true_eq_false,false_and,↓reduceIte] at bound
        omega
      · have others := count_erase_pos (startsWith d start) held mutated starts
        rw [count_erase (startsWith d start) there]
        by_cases gone : previous.anytlsHash ≠ entry.anytlsHash ∧ startsWith d start previous
        · rw [if_pos gone] at bound
          rw [if_pos gone.2]
          omega
        · rw [if_neg gone] at bound
          omega

theorem mutation_retirement (inv : Coherent d r) {entry : Entry} {id : String} (held : r.users[id]? = some entry) :
    ∃ after, Mutation d r after (retirement entry id) := by
  obtain ⟨after,ran⟩ := retirement_total inv.toIndexed held
  obtain ⟨before,last,maps⟩ := run_retirement ran
  have users : after.users = r.users.erase id := by
    have same : after.users = before.users := by cases last; rfl
    rw [same,maps]
  have stays (other : String) (e : Entry) (there : after.users[other]? = some e) : id ≠ other ∧ r.users[other]? = some e := by
    rw [users,lookup_erase] at there
    split at there
    · cases there
    · next apart => exact ⟨apart,there⟩
  refine ⟨after,inv,ran,coherent_retirement inv.toIndexed held ran,nodup_retirementCells entry id,⟨true,?_⟩,?_,?_⟩
  · intro w member address enabled same
    subst same
    rcases List.mem_append.mp member with member | last
    rcases List.mem_append.mp member with first | index
    · simp at first
    · obtain ⟨k,_,here⟩ := List.mem_flatMap.mp index
      exact absurd (indexOnly_unindexWrites entry k _ here) (by simp [IndexOnly])
    · simp at last
  · intro other first second there there'
    rw [(stays other second there').2,Option.some.injEq] at there
    rw [there]
  · intro start other first second there there' _ starts
    have apart := (stays other second there').1
    have counted : (retirement entry id).countP (releases d start) = if startsWith d start entry then 1 else 0 := by
      simp only [retirement,List.countP_append,countP_flatMap_unindex]
      simp [releases]
    have others := count_erase_pos (startsWith d start) there apart starts
    rw [counted,count_erase (startsWith d start) held]
    omega

/-! ### Readers -/

/-- The user of this record is in the table and carries the key. -/
def Held (r : MemoryUserRegistry) (k : Kind) (key : k.Key) (context : ContextRef) : Prop :=
  ∃ entry, r.users[context.id]? = some entry ∧ entry.context = context ∧ entry.key k = some key

/-- A lookup of this form returns the record. -/
def Answers (r : MemoryUserRegistry) : (k : Kind) → k.Key → ContextRef → Prop
  | .uuid, uuid, context => findUuid r uuid = some context ∨ ∃ password, findTuicUuid r uuid = some (context,password)
  | .trojan, hash, context => findTrojanHash r hash = some context
  | .password, password, context => findPassword r password = some context
  | .psk, hash, context => ∃ psk, findShadowsocksPskHash r hash = some (context,psk)
  | .anytls, hash, context => findPasswordSha256 r hash = some context
  | .naive, encoded, context => findNaiveBasic r encoded = some context

/-- The same user carries the key before and after, and is enabled both times. -/
structure Stable (before after : MemoryUserRegistry) (k : Kind) (key : k.Key) (entry entry' : Entry) : Prop where
  held : before.users[entry.context.id]? = some entry
  heldAfter : after.users[entry.context.id]? = some entry'
  carries : entry.key k = some key
  carriesAfter : entry'.key k = some key
  enabled : isEnabled before entry.context
  enabledAfter : isEnabled after entry'.context

/-- What a reader can rely on while a mutation leads from `before` to `after`. -/
structure NeverMisled (d : Derivations) (before after now : MemoryUserRegistry) : Prop where
  /-- Nobody but the owner before or after is ever returned. -/
  owner : ∀ (k : Kind) (key : k.Key) (context : ContextRef), Answers now k key context →
    Held before k key context ∨ Held after k key context
  /-- A key that keeps its enabled owner is never absent. -/
  present : ∀ (k : Kind) (key : k.Key) (entry entry' : Entry), Stable before after k key entry entry' →
    Answers now k key entry.context
  presentTuic : ∀ (uuid : Bytes) (entry entry' : Entry), Stable before after .uuid uuid entry entry' →
    entry.tuicPassword.isSome → entry'.tuicPassword.isSome →
    ∃ password, findTuicUuid now uuid = some (entry.context,password)
  presentPrefix : ∀ (hash : Bytes) (entry entry' : Entry), before.users[entry.context.id]? = some entry →
    after.users[entry.context.id]? = some entry' → entry.anytlsHash = some hash → entry'.anytlsHash = some hash →
    hasPasswordSha256Prefix now (d.passwordSha256Prefix hash) = true

theorem answers_lookup {k : Kind} {key : k.Key} {context : ContextRef} (answers : Answers r k key context) :
    ∃ entry, lookup r k key = some entry ∧ entry.context = context := by
  have generic {k : Kind} {key : k.Key} (found : find r k key = some context) :
      ∃ entry, lookup r k key = some entry ∧ entry.context = context := by
    simp only [find,Option.bind_eq_bind,Option.bind_eq_some_iff,accept] at found
    obtain ⟨entry,led,_,_,accepted⟩ := found
    split at accepted
    · cases accepted
    · cases accepted; exact ⟨entry,led,rfl⟩
  cases k with
  | uuid =>
    rcases answers with found | ⟨password,found⟩
    · exact generic found
    · simp only [findTuicUuid,Option.bind_eq_bind,Option.bind_eq_some_iff] at found
      obtain ⟨entry,led,_,_,_,_,accepted⟩ := found
      split at accepted
      · cases accepted
      · cases accepted; exact ⟨entry,led,rfl⟩
  | psk =>
    obtain ⟨psk,found⟩ := answers
    simp only [findShadowsocksPskHash,Option.bind_eq_bind,Option.bind_eq_some_iff] at found
    obtain ⟨entry,led,_,_,accepted⟩ := found
    split at accepted
    · cases accepted
    · cases accepted; exact ⟨entry,led,rfl⟩
  | trojan | password | anytls | naive => exact generic answers

theorem answers_of_lookup {k : Kind} {key : k.Key} {entry : Entry} (led : lookup r k key = some entry)
    (carries : entry.key k = some key) (enabled : isEnabled r entry.context) : Answers r k key entry.context := by
  have generic : find r k key = some entry.context := by simp [find,led,carries,accept,enabled]
  cases k with
  | uuid => exact .inl generic
  | psk =>
    simp only [Entry.key,Credentials.key,Option.map_eq_some_iff] at carries
    obtain ⟨credential,carried,rfl⟩ := carries
    exact ⟨credential.psk,by simp [findShadowsocksPskHash,led,carried,enabled]⟩
  | trojan | password | anytls | naive => exact generic

section midway
variable {before after mid : MemoryUserRegistry} {done rest : List Write}

/-- Between two writes an index key leads where it led before the mutation or where it
    leads after it. -/
theorem lookup_midway (mutation : Mutation d before after (done ++ rest)) (ran : run d before done = some mid) (k : Kind)
    (key : k.Key) : lookup mid k key = lookup before k key ∨ lookup mid k key = lookup after k key := by
  have distinct := mutation.distinct
  rw [List.filterMap_append] at distinct
  have either := store_midway (cells before) distinct ⟨k,key⟩
  rw [← List.filterMap_append,← cells_run ran,← cells_run mutation.ran] at either
  exact either

theorem enabled_mid (mutation : Mutation d before after (done ++ rest)) (ran : run d before done = some mid)
    {context : ContextRef} (recorded : context.address < before.contexts.length)
    (enabled : isEnabled before context) (enabledAfter : isEnabled after context) : isEnabled mid context := by
  obtain ⟨value,only⟩ := mutation.sets
  have held : before.contexts[context.address]? = some before.contexts[context.address] := by simp [recorded]
  have flag : before.contexts[context.address].enabled = true := by simpa [isEnabled,held] using enabled
  obtain ⟨last,there,lastFlag⟩ := enabled_run held mutation.ran
  obtain ⟨middle,here,middleFlag⟩ := enabled_run held ran
  rw [flag] at lastFlag middleFlag
  have lastEnabled : last.enabled = true := by simpa [isEnabled,there] using enabledAfter
  rw [lastFlag] at lastEnabled
  simp [isEnabled,here,middleFlag,enabled_midway only lastEnabled]

/-- At every point of a mutation, what is found for a stable key is the user's entry
    from before or from after, and the user is enabled. -/
theorem stable_midway (mutation : Mutation d before after (done ++ rest)) (ran : run d before done = some mid) {k : Kind}
    {key : k.Key} {entry entry' : Entry} (stable : Stable before after k key entry entry') :
    ∃ found, (found = entry ∨ found = entry') ∧ lookup mid k key = some found ∧ found.context = entry.context ∧
      found.key k = some key ∧ isEnabled mid entry.context := by
  have sameContext := mutation.sameRecord _ _ _ stable.held stable.heldAfter
  have enabled := enabled_mid mutation ran (mutation.coherent.recorded _ _ stable.held) stable.enabled
    (by rw [sameContext]; exact stable.enabledAfter)
  have ledBefore := (mutation.coherent.indexed k key entry).mpr ⟨stable.held,stable.carries⟩
  have ledAfter := (mutation.coherentAfter.indexed k key entry').mpr
    ⟨by rw [← sameContext]; exact stable.heldAfter,stable.carriesAfter⟩
  rcases lookup_midway mutation ran k key with led | led
  · exact ⟨entry,.inl rfl,led.trans ledBefore,rfl,stable.carries,enabled⟩
  · exact ⟨entry',.inr rfl,led.trans ledAfter,sameContext.symm,stable.carriesAfter,enabled⟩

theorem neverMisled_midway (mutation : Mutation d before after (done ++ rest)) (ran : run d before done = some mid) :
    NeverMisled d before after mid := by
  refine ⟨?_,?_,?_,?_⟩
  · intro k key context answers
    obtain ⟨entry,led,rfl⟩ := answers_lookup answers
    rcases lookup_midway mutation ran k key with same | same
    · rw [led] at same
      obtain ⟨held,carries⟩ := (mutation.coherent.indexed k key entry).mp same.symm
      exact .inl ⟨entry,held,rfl,carries⟩
    · rw [led] at same
      obtain ⟨held,carries⟩ := (mutation.coherentAfter.indexed k key entry).mp same.symm
      exact .inr ⟨entry,held,rfl,carries⟩
  · intro k key entry entry' stable
    obtain ⟨found,_,led,context,carries,enabled⟩ := stable_midway mutation ran stable
    rw [← context] at enabled ⊢
    exact answers_of_lookup led carries enabled
  · intro uuid entry entry' stable keyed keyedAfter
    obtain ⟨found,either,led,context,carries,enabled⟩ := stable_midway mutation ran stable
    have secret : found.tuicPassword.isSome := by rcases either with rfl | rfl <;> assumption
    obtain ⟨password,secret⟩ := Option.isSome_iff_exists.mp secret
    have presented : found.uuid = some uuid := carries
    rw [← context] at enabled ⊢
    exact ⟨password,by simp [findTuicUuid,led,secret,presented,enabled]⟩
  · intro hash entry entry' held heldAfter carries carriesAfter
    have starts : startsWith d (d.passwordSha256Prefix hash) entry := by simp [startsWith,carries]
    have kept := mutation.keepsPrefix _ _ _ _ held heldAfter (carries.trans carriesAfter.symm) starts
    have counted := prefixAt_run ran (d.passwordSha256Prefix hash)
    rw [mutation.coherent.prefixes] at counted
    obtain ⟨m,folded,bound⟩ := onPrefix_bound (d := d) (d.passwordSha256Prefix hash) done
      (count (startsWith d (d.passwordSha256Prefix hash)) before.users)
    rw [folded] at counted
    have sub : done.countP (releases d (d.passwordSha256Prefix hash)) ≤
        (done ++ rest).countP (releases d (d.passwordSha256Prefix hash)) := by
      rw [List.countP_append]
      omega
    change (prefixAt mid _).isSome = true
    rw [counted,nonzero,if_neg (by omega)]
    rfl

end midway

theorem Alike.answers (alike : Alike a b) {k : Kind} {key : k.Key} {context : ContextRef} :
    Answers b k key context ↔ Answers a k key context := by
  cases k <;> simp only [Answers,findUuid,findTuicUuid,findTrojanHash,findPassword,findShadowsocksPskHash,
    findPasswordSha256,findNaiveBasic,find,accept,alike.lookup,alike.isEnabled]

theorem NeverMisled.alike {before after after' now now' : MemoryUserRegistry} (kept : NeverMisled d before after now)
    (alikeAfter : Alike after after') (alike : Alike now now') : NeverMisled d before after' now' := by
  have stable {k : Kind} {key : k.Key} {entry entry' : Entry} (given : Stable before after' k key entry entry') :
      Stable before after k key entry entry' :=
    ⟨given.held,by rw [← alikeAfter.users]; exact given.heldAfter,given.carries,given.carriesAfter,given.enabled,
      by rw [← alikeAfter.isEnabled]; exact given.enabledAfter⟩
  refine ⟨?_,?_,?_,?_⟩
  · intro k key context answers
    unfold Held
    rw [alikeAfter.users]
    exact kept.owner k key context (alike.answers.mp answers)
  · intro k key entry entry' given
    exact alike.answers.mpr (kept.present k key entry entry' (stable given))
  · intro uuid entry entry' given keyed keyedAfter
    obtain ⟨password,found⟩ := kept.presentTuic uuid entry entry' (stable given) keyed keyedAfter
    refine ⟨password,?_⟩
    simp only [findTuicUuid,alike.lookup,alike.isEnabled]
    exact found
  · intro hash entry entry' held heldAfter carries carriesAfter
    rw [alikeAfter.users] at heldAfter
    unfold hasPasswordSha256Prefix
    rw [alike.prefixes]
    exact kept.presentPrefix hash entry entry' held heldAfter carries carriesAfter

/-- The writes made so far and those pending are one mutation. -/
def Midway (d : Derivations) (s : State) : Prop :=
  ∃ done shadow after, Mutation d s.before after (done ++ s.pending) ∧ run d s.before done = some shadow ∧
    Alike shadow s.registry

theorem Midway.coherent {s : State} (mid : Midway d s) (idle : s.pending = []) : Coherent d s.registry := by
  obtain ⟨done,shadow,after,mutation,ran,alike⟩ := mid
  rw [idle,List.append_nil] at mutation
  have same : shadow = after := by
    have whole := mutation.ran
    rw [ran,Option.some.injEq] at whole
    exact whole
  subst same
  exact alike.coherent mutation.coherentAfter

theorem midway_begin {writes : List Write} (planned : ∃ after, Mutation d r after writes) : Midway d ⟨r,writes,r⟩ := by
  obtain ⟨after,mutation⟩ := planned
  exact ⟨[],r,after,mutation,rfl,Alike.refl r⟩

theorem midway_beside {s : State} (mid : Midway d s) {r' : MemoryUserRegistry} (alike : Alike s.registry r') :
    Midway d { s with registry := r' } := by
  obtain ⟨done,shadow,after,mutation,ran,earlier⟩ := mid
  exact ⟨done,shadow,after,mutation,ran,earlier.trans alike⟩

theorem midway_step {s s' : State} {event : Event} (mid : Midway d s) (taken : step d s event = some s') :
    Midway d s' := by
  cases event with
  | upsert spec =>
    simp only [step] at taken
    split at taken
    · next idle =>
      cases taken
      have inv := mid.coherent idle
      refine midway_begin ?_
      unfold upsertPlan
      split
      · next entry writes planned =>
        obtain ⟨_,accepted,rfl⟩ := upsertLocked_ok inv.toIndexed planned
        exact mutation_upsert inv accepted
      · exact ⟨_,mutation_nil inv⟩
    · cases taken
  | remove tag id =>
    simp only [step] at taken
    split at taken
    · next idle =>
      cases taken
      have inv := mid.coherent idle
      refine midway_begin ?_
      unfold removalWrites
      split
      · next entry held => exact mutation_retirement inv held
      · exact ⟨_,mutation_nil inv⟩
    · cases taken
  | write =>
    simp only [step] at taken
    split at taken
    · next w rest pending =>
      obtain ⟨r',applied,rfl⟩ := Option.map_eq_some_iff.mp taken
      obtain ⟨done,shadow,after,mutation,ran,alike⟩ := mid
      rw [pending] at mutation
      have whole := mutation.ran
      rw [run_append,ran,Option.bind_some] at whole
      obtain ⟨shadow',applied',_⟩ := run_cons_eq_some whole
      obtain ⟨other,same,alike'⟩ := alike_apply alike applied'
      rw [applied,Option.some.injEq] at same
      subst same
      refine ⟨done ++ [w],shadow',after,by simpa using mutation,?_,alike'⟩
      rw [run_append,ran,Option.bind_some]
      simp [run,applied']
    · cases taken
  | complete generation info =>
    obtain ⟨r',stepped,alike⟩ := alike_complete (d := d) s.registry generation info
    simp only [step,stepped,Option.map_some,Option.some.injEq] at taken
    subst taken
    exact midway_beside mid alike
  | clear generation =>
    obtain ⟨r',stepped,alike⟩ := alike_clear (d := d) s.registry generation
    simp only [step,stepped,Option.map_some,Option.some.injEq] at taken
    subst taken
    exact midway_beside mid alike
  | activity address tx rx observedAt conns totalConns =>
    obtain ⟨r',stepped,alike⟩ := alike_activity (d := d) s.registry address tx rx observedAt conns totalConns
    simp only [step,stepped,Option.map_some,Option.some.injEq] at taken
    subst taken
    exact midway_beside mid alike

/-- In every interleaving of map writes and lookups, a lookup returns nobody but the
    owner before or after the mutation in progress, and a key that keeps its enabled
    owner is found. -/
theorem readers_never_misled (d : Derivations) (kinds : CredentialKinds) (users : List UserSpec)
    (start : MemoryUserRegistry) (built : fromUsers d kinds users = some (.ok start)) {events : List Event} {s : State}
    (run : Run (step d) ⟨start,[],start⟩ events s) :
    ∃ after, Registry.run d s.registry s.pending = some after ∧ NeverMisled d s.before after s.registry := by
  obtain ⟨result,done,kept⟩ := fromUsers_coherent d kinds users
  rw [built,Option.some.injEq] at done
  have inv : Midway d s :=
    run.invariant (midway_begin ⟨start,mutation_nil (kept start done.symm)⟩) (fun _ _ _ before taken => midway_step before taken)
  obtain ⟨made,shadow,after,mutation,ran,alike⟩ := inv
  have whole := mutation.ran
  rw [run_append,ran,Option.bind_some] at whole
  obtain ⟨after',ran',alikeAfter⟩ := alike_run alike whole
  exact ⟨after',ran',(neverMisled_midway mutation ran).alike alikeAfter alike⟩

/-- A reader in the middle of a password rotation. -/
theorem readers_never_misled_rotation :
    ∃ start s after, fromUsers underived plainPassword [passwordUser "alice" "secret"] = some (.ok start) ∧
      Run (step underived) ⟨start,[],start⟩ [.upsert (passwordUser "alice" "hidden"),.write,.write,.write,.write] s ∧
      Registry.run underived s.registry s.pending = some after ∧ NeverMisled underived s.before after s.registry := by
  have followed : (((fromUsers underived plainPassword [passwordUser "alice" "secret"]).bind Except.toOption).bind (fun start =>
      follow (step underived) ⟨start,[],start⟩
        [.upsert (passwordUser "alice" "hidden"),.write,.write,.write,.write])).isSome = true := by decide
  obtain ⟨s,followed⟩ := Option.isSome_iff_exists.mp followed
  obtain ⟨start,built,reached⟩ := Option.bind_eq_some_iff.mp followed
  have built := fromUsers_of_toOption built
  have run := Run.of_follow reached
  obtain ⟨after,ran,kept⟩ := readers_never_misled underived plainPassword _ start built run
  exact ⟨start,s,after,built,run,ran,kept⟩

end NodeAgent.RegistryReaders
