import Mathlib.Algebra.Group.Prod
import NodeAgent.RegistryRuns
import NodeAgent.Tally

/-!
One accounting generation per user id. Removals run as tasks: a call retires the
user under the writer lock, then it or a detached finalizer waits until the
generation's connections are closed, publishes the final record once, and the call
clears the tombstone of exactly that generation. Calls may be cancelled, finalizers
may die, and re-adding and removing the same id may overtake them
(`one_accounting_generation`).
-/
namespace NodeAgent.Draining
open NodeAgent.Api NodeAgent.Credential NodeAgent.FiniteMap NodeAgent.Registry NodeAgent.RegistryCoherence
  NodeAgent.RegistryRuns NodeAgent.Tally NodeAgent.Transition

/-- Where a removal task stands. -/
inductive Phase
  /-- Inside `finish`, awaiting the result or the last connection. -/
  | waiting
  /-- `wait_for_connections_closed` has returned; `complete` is next. -/
  | closing
  /-- `finish` has returned. -/
  | done (info : UserInfo)
  /-- Awaiting the handle of the finalizer. -/
  | joining (finalizer : Nat)
  /-- The tombstone was cleared and the call returned its record. -/
  | returned (info : UserInfo)
  /-- The finalizer was aborted, or the call returned its error. -/
  | failed
  | cancelled
deriving DecidableEq

structure Task where
  generation : Nat
  /-- A finalizer, which no caller can cancel and which clears nothing. -/
  detached : Bool
  phase : Phase
deriving DecidableEq

structure State where
  registry : MemoryUserRegistry
  tasks : List Task
  /-- Bytes metered on each record, and bytes that `take_*` calls returned from it. -/
  metered : List (Nat × UInt64 × UInt64)
  taken : List (Nat × UInt64 × UInt64)

def initial (registry : MemoryUserRegistry) : State := ⟨registry,[],[],[]⟩

inductive Event
  | upsert (spec : UserSpec)
  /-- `remove` up to its first await; off a runtime it waits inline. -/
  | remove (tag id : String) (onRuntime : Bool)
  /-- `finish` finds the result. -/
  | observe (task : Nat)
  /-- `wait_for_connections_closed` returns. -/
  | close (task : Nat)
  | complete (task : Nat)
  /-- The finalizer's handle yields its record. -/
  | join (task : Nat)
  /-- The finalizer is aborted at its await. -/
  | abort (task : Nat)
  /-- The finalizer's handle yields an error. -/
  | joinError (task : Nat)
  /-- The call clears the tombstone and returns. -/
  | collect (task : Nat)
  /-- The caller drops the call at its await. -/
  | cancel (task : Nat)
  | openConnection (address : Nat)
  | closeConnection (address : Nat)
  | meter (address : Nat) (tx rx observedAt : UInt64)
  /-- `take_traffic` of one user, also as one step of a sweep. -/
  | takeTraffic (id : String)

/-- `complete`: the first snapshot stays. -/
def complete (r : MemoryUserRegistry) (generation : Nat) (tombstone : DrainingUser) : UserInfo × MemoryUserRegistry :=
  let info := tombstone.result.getD (userInfo r tombstone.entry.context)
  (info,{ r with generations := r.generations.set generation { tombstone with result := some info } })

def setPhase (s : State) (i : Nat) (task : Task) (phase : Phase) : State :=
  { s with tasks := s.tasks.set i { task with phase := phase } }

def conns (r : MemoryUserRegistry) (context : ContextRef) : Nat := (userInfo r context).conns

def step (d : Derivations) (s : State) : Event → Option State
  | .upsert spec => (upsert d s.registry spec).map (fun result => { s with registry := result.2 })
  | .remove tag id onRuntime =>
    match beginRemove d s.registry tag id with
    | none => none
    | some (.error _,r) => some { s with registry := r }
    | some (.ok (generation,newlyRemoved),r) =>
      if newlyRemoved && onRuntime then
        some { s with registry := r, tasks := s.tasks ++ [⟨generation,true,.waiting⟩,⟨generation,false,.joining s.tasks.length⟩] }
      else some { s with registry := r, tasks := s.tasks ++ [⟨generation,false,.waiting⟩] }
  | .observe i => do
    let task ← s.tasks[i]?
    let tombstone ← s.registry.generations[task.generation]?
    let info ← tombstone.result
    if task.phase = .waiting then some (setPhase s i task (.done info)) else none
  | .close i => do
    let task ← s.tasks[i]?
    let tombstone ← s.registry.generations[task.generation]?
    if task.phase = .waiting ∧ conns s.registry tombstone.entry.context = 0 then some (setPhase s i task .closing) else none
  | .complete i => do
    let task ← s.tasks[i]?
    let tombstone ← s.registry.generations[task.generation]?
    if task.phase = .closing then
      let completed := complete s.registry task.generation tombstone
      some { setPhase s i task (.done completed.1) with registry := completed.2 }
    else none
  | .join i => do
    let task ← s.tasks[i]?
    match task.phase with
    | .joining finalizer =>
      match (s.tasks[finalizer]?).map Task.phase with
      | some (.done info) => some (setPhase s i task (.done info))
      | _ => none
    | _ => none
  | .abort i => do
    let task ← s.tasks[i]?
    if task.detached ∧ task.phase = .waiting then some (setPhase s i task .failed) else none
  | .joinError i => do
    let task ← s.tasks[i]?
    let tombstone ← s.registry.generations[task.generation]?
    match task.phase with
    | .joining finalizer =>
      match (s.tasks[finalizer]?).map Task.phase with
      | some .failed =>
        if conns s.registry tombstone.entry.context = 0 then
          some { setPhase s i task .failed with registry := (complete s.registry task.generation tombstone).2 }
        else some (setPhase s i task .failed)
      | _ => none
    | _ => none
  | .collect i => do
    let task ← s.tasks[i]?
    match task.phase with
    | .done info =>
      if task.detached then none
      else some { setPhase s i task (.returned info) with registry := clearDrainingGeneration s.registry task.generation }
    | _ => none
  | .cancel i => do
    let task ← s.tasks[i]?
    match task.phase with
    | .waiting => if task.detached then none else some (setPhase s i task .cancelled)
    | .joining _ => some (setPhase s i task .cancelled)
    | _ => none
  | .openConnection address => do
    let context ← s.registry.contexts[address]?
    -- Registration fails closed once the record is revoked.
    if context.revoked then none
    else some { s with registry := modifyContext s.registry address (fun context =>
      { context with conns := context.conns + 1, totalConns := context.totalConns + 1 }) }
  | .closeConnection address => do
    let context ← s.registry.contexts[address]?
    if context.conns = 0 then none
    else some { s with registry := modifyContext s.registry address (fun context =>
      { context with conns := context.conns - 1 }) }
  | .meter address tx rx observedAt => do
    let context ← s.registry.contexts[address]?
    -- Only an open connection meters.
    if context.conns = 0 then none
    else some { s with
      registry := modifyContext s.registry address (fun context =>
        { context with tx := context.tx + tx, rx := context.rx + rx, lastTrafficObservedAtUnixMillis := observedAt })
      metered := s.metered ++ [(address,tx,rx)] }
  | .takeTraffic id => do
    let entry ← s.registry.users[id]?
    let context ← s.registry.contexts[entry.context.address]?
    some { s with
      registry := modifyContext s.registry entry.context.address (fun context => { context with tx := 0, rx := 0 })
      taken := s.taken ++ [(entry.context.address,context.tx,context.rx)] }

/-! ### What the operations of the registry do -/

variable {d : Derivations} {r r' : MemoryUserRegistry}

/-- The registry after an upsert. -/
theorem upsert_cases (inv : Coherent d r) {spec : UserSpec} {result : Except EngineError UserInfo}
    (done : upsert d r spec = some (result,r')) :
    r' = r ∨ ∃ entry, Accepted r entry ∧ r'.users = r.users.insert entry.context.id entry ∧ r'.draining = r.draining ∧
      r'.generations = r.generations ∧
      r'.contexts = contextsAfter r.users[entry.context.id]? entry.context.address spec r.contexts := by
  unfold upsert at done
  split at done
  · cases done; exact .inl rfl
  · next entry writes planned =>
    obtain ⟨_,accepted,rfl⟩ := upsertLocked_ok inv.toIndexed planned
    obtain ⟨after,ran,same⟩ := Option.map_eq_some_iff.mp done
    cases same
    obtain ⟨middle,first,last⟩ := run_append_eq_some ran
    have maps := run_upsertWrites first
    cases last
    exact .inr ⟨entry,accepted,by rw [maps],by rw [maps],by rw [maps],by rw [maps]⟩

/-- The registry after the locked part of a removal. -/
theorem beginRemove_cases (inv : Coherent d r) {tag id : String} {result : Except EngineError (Nat × Bool)}
    (done : beginRemove d r tag id = some (result,r')) :
    (∃ entry, r.users[id]? = some entry ∧ result = .ok (r.generations.length,true) ∧ r'.users = r.users.erase id ∧
      r'.draining = r.draining.insert id r.generations.length ∧ r'.generations = r.generations ++ [⟨entry,none⟩] ∧
      r'.contexts = r.contexts.modify entry.context.address (fun context => { context with revoked := true })) ∨
    (∃ generation, r.users[id]? = none ∧ r.draining[id]? = some generation ∧ result = .ok (generation,false) ∧ r' = r) ∨
    (result = .error (.unknownUser tag id) ∧ r' = r) := by
  unfold beginRemove at done
  split at done
  · next entry held =>
    obtain ⟨after,ran,same⟩ := Option.map_eq_some_iff.mp done
    cases same
    obtain ⟨before,last,maps⟩ := run_retirement ran
    have name := inv.named id entry held
    cases last
    exact .inl ⟨entry,held,rfl,by rw [maps],by rw [maps,name],by rw [maps],by rw [maps]⟩
  · next absent =>
    split at done
    · next generation there =>
      cases done
      exact .inr (.inl ⟨generation,absent,there,rfl,rfl⟩)
    · cases done
      exact .inr (.inr ⟨rfl,rfl⟩)

theorem userInfo_congr {context : ContextRef} (same : r'.contexts[context.address]? = r.contexts[context.address]?) :
    userInfo r' context = userInfo r context := by
  simp [userInfo,same]

theorem contextsAfter_other {previous : Option Entry} {address other : Nat} (spec : UserSpec) {contexts : List UserContext}
    (apart : address ≠ other) (bound : other < contexts.length) :
    (contextsAfter previous address spec contexts)[other]? = contexts[other]? := by
  simp [contextsAfter,apart,List.getElem?_append_left bound]

/-! ### The invariant -/

def bytes (context : UserContext) : UInt64 × UInt64 := (context.tx,context.rx)

/-- The bytes that a record still counts. -/
def counter (r : MemoryUserRegistry) (address : Nat) : UInt64 × UInt64 := ((r.contexts[address]?).map bytes).getD 0

def ledger (address : Nat) (entries : List (Nat × UInt64 × UInt64)) : UInt64 × UInt64 :=
  tally Prod.fst Prod.snd address entries

/-- What a task knows of its generation. -/
def Knows (r : MemoryUserRegistry) (tombstone : DrainingUser) : Phase → Prop
  | .closing => conns r tombstone.entry.context = 0
  | .done info => tombstone.result = some info
  | .returned info => tombstone.result = some info
  | _ => True

theorem Knows.congr {t : DrainingUser} {phase : Phase}
    (same : userInfo r' t.entry.context = userInfo r t.entry.context) (knows : Knows r t phase) : Knows r' t phase := by
  cases phase with
  | closing =>
    change conns _ _ = 0
    unfold conns
    rw [same]
    exact knows
  | waiting | done | joining | returned | failed | cancelled => exact knows

structure Inv (d : Derivations) (s : State) : Prop where
  coherent : Coherent d s.registry
  /-- A removed record is revoked, and its snapshot, once taken, is final. -/
  tombstone : ∀ (g : Nat) (t : DrainingUser), s.registry.generations[g]? = some t →
    ∃ context, s.registry.contexts[t.entry.context.address]? = some context ∧ context.revoked = true ∧
      ∀ info, t.result = some info → context.conns = 0 ∧ info = userInfo s.registry t.entry.context
  apart : ∀ (g : Nat) (t : DrainingUser) (id : String) (entry : Entry), s.registry.generations[g]? = some t →
    s.registry.users[id]? = some entry → t.entry.context.address ≠ entry.context.address
  distinct : ∀ (g g' : Nat) (t t' : DrainingUser), s.registry.generations[g]? = some t →
    s.registry.generations[g']? = some t' → t.entry.context.address = t'.entry.context.address → g = g'
  tasks : ∀ (i : Nat) (task : Task), s.tasks[i]? = some task →
    ∃ t, s.registry.generations[task.generation]? = some t ∧ Knows s.registry t task.phase
  joins : ∀ (i : Nat) (task : Task) (finalizer : Nat), s.tasks[i]? = some task → task.phase = .joining finalizer →
    ∃ other, s.tasks[finalizer]? = some other ∧ other.generation = task.generation
  /-- A tombstone stays until a call of its generation returned the record. -/
  collected : ∀ (g : Nat) (t : DrainingUser), s.registry.generations[g]? = some t →
    s.registry.draining[t.entry.context.id]? = some g ∨
      ∃ (i : Nat) (info : UserInfo), s.tasks[i]? = some ⟨g,false,.returned info⟩
  /-- Metered bytes are taken or still counted. -/
  balance : ∀ address, ledger address s.metered = ledger address s.taken + counter s.registry address
  allocated : ∀ (address : Nat), s.registry.contexts.length ≤ address →
    ledger address s.metered = 0 ∧ ledger address s.taken = 0

theorem inv_initial (coherent : Coherent d r) (none_removed : r.generations = [])
    (unused : ∀ context ∈ r.contexts, bytes context = 0) : Inv d (initial r) := by
  refine ⟨coherent,?_,?_,?_,?_,?_,?_,?_,?_⟩
  · intro g t found; simp [initial,none_removed] at found
  · intro g t id entry found; simp [initial,none_removed] at found
  · intro g g' t t' found; simp [initial,none_removed] at found
  · intro i task found; simp [initial] at found
  · intro i task finalizer found; simp [initial] at found
  · intro g t found; simp [initial,none_removed] at found
  · intro address
    have zero : counter r address = 0 := by
      unfold counter
      cases held : r.contexts[address]? with
      | none => rfl
      | some context => simpa using unused context (List.mem_of_getElem? held)
    simp [initial,ledger,zero]
  · intro address _
    simp [initial,ledger]

/-- A task moves to a phase that its generation bears out. -/
theorem inv_setPhase {s : State} (inv : Inv d s) {i : Nat} {task : Task} (held : s.tasks[i]? = some task) {phase : Phase}
    (knows : ∀ t, s.registry.generations[task.generation]? = some t → Knows s.registry t phase)
    (unreturned : ∀ info, task.phase ≠ .returned info) (notJoining : ∀ finalizer, phase ≠ .joining finalizer) :
    Inv d (setPhase s i task phase) := by
  have bound := (List.getElem?_eq_some_iff.mp held).1
  have at_index (j : Nat) : (s.tasks.set i { task with phase := phase })[j]? =
      if i = j then some { task with phase := phase } else s.tasks[j]? := by
    rw [List.getElem?_set]
    by_cases same : i = j
    · subst same; simp [bound]
    · simp [same]
  refine ⟨inv.coherent,inv.tombstone,inv.apart,inv.distinct,?_,?_,?_,inv.balance,inv.allocated⟩
  · intro j other found
    simp only [setPhase,at_index] at found
    split at found
    · cases found
      obtain ⟨t,there,_⟩ := inv.tasks i task held
      exact ⟨t,there,knows t there⟩
    · exact inv.tasks j other found
  · intro j other finalizer found joining
    simp only [setPhase,at_index] at found ⊢
    split at found
    · cases found
      exact absurd joining (notJoining finalizer)
    · obtain ⟨target,there,same⟩ := inv.joins j other finalizer found joining
      by_cases moved : i = finalizer
      · subst moved
        rw [held,Option.some.injEq] at there
        exact ⟨{ task with phase := phase },by simp,by rw [← same,← there]⟩
      · exact ⟨target,by simp [moved,there],same⟩
  · intro g t found
    rcases inv.collected g t found with draining | ⟨j,info,returned⟩
    · exact .inl draining
    · refine .inr ⟨j,info,?_⟩
      simp only [setPhase,at_index]
      by_cases same : i = j
      · subst same
        rw [held,Option.some.injEq] at returned
        exact absurd (by rw [returned]) (unreturned info)
      · rw [if_neg same]
        exact returned

/-- New tasks of a known generation. -/
theorem inv_spawn {s : State} (inv : Inv d s) {added : List Task}
    (known : ∀ task ∈ added, ∃ t, s.registry.generations[task.generation]? = some t ∧ Knows s.registry t task.phase)
    (joins : ∀ task ∈ added, ∀ finalizer, task.phase = .joining finalizer →
      ∃ other, (s.tasks ++ added)[finalizer]? = some other ∧ other.generation = task.generation) :
    Inv d { s with tasks := s.tasks ++ added } := by
  have earlier {j : Nat} {task : Task} (found : s.tasks[j]? = some task) : (s.tasks ++ added)[j]? = some task := by
    rw [List.getElem?_append_left (List.getElem?_eq_some_iff.mp found).1]
    exact found
  have cases_of {j : Nat} {task : Task} (found : (s.tasks ++ added)[j]? = some task) :
      s.tasks[j]? = some task ∨ task ∈ added := by
    rw [List.getElem?_append] at found
    split at found
    · exact .inl found
    · exact .inr (List.mem_of_getElem? found)
  refine ⟨inv.coherent,inv.tombstone,inv.apart,inv.distinct,?_,?_,?_,inv.balance,inv.allocated⟩
  · intro j task found
    rcases cases_of found with old | new
    · exact inv.tasks j task old
    · exact known task new
  · intro j task finalizer found joining
    rcases cases_of found with old | new
    · obtain ⟨other,there,same⟩ := inv.joins j task finalizer old joining
      exact ⟨other,earlier there,same⟩
    · exact joins task new finalizer joining
  · intro g t found
    rcases inv.collected g t found with draining | ⟨j,info,returned⟩
    · exact .inl draining
    · exact .inr ⟨j,info,earlier returned⟩

theorem counter_modify {r : MemoryUserRegistry} {touched : Nat} {context : UserContext}
    (held : r.contexts[touched]? = some context) (change : UserContext → UserContext) (address : Nat) :
    counter (modifyContext r touched change) address =
      if touched = address then bytes (change context) else counter r address := by
  by_cases same : touched = address
  · subst same; simp [counter,modifyContext,held]
  · simp [counter,modifyContext,same]

/-- A record changes that belongs to no generation with its connections closed. -/
theorem inv_modify {s : State} (inv : Inv d s) {touched : Nat} {context : UserContext}
    (held : s.registry.contexts[touched]? = some context) {change : UserContext → UserContext}
    (busy : ∀ (g : Nat) (t : DrainingUser), s.registry.generations[g]? = some t → t.entry.context.address = touched → context.conns ≠ 0)
    (revoked : (change context).revoked = context.revoked) {metered taken : List (Nat × UInt64 × UInt64)}
    (balance : ledger touched metered = ledger touched taken + bytes (change context))
    (others : ∀ address, touched ≠ address →
      ledger address metered = ledger address s.metered ∧ ledger address taken = ledger address s.taken) :
    Inv d { s with registry := modifyContext s.registry touched change, metered := metered, taken := taken } := by
  have recordAt (address : Nat) (c : UserContext) (there : s.registry.contexts[address]? = some c) :=
    modifyContext_at there touched change
  have keepsInfo {g : Nat} {t : DrainingUser} (found : s.registry.generations[g]? = some t)
      (quiet : conns s.registry t.entry.context = 0) :
      (modifyContext s.registry touched change).contexts[t.entry.context.address]? =
        s.registry.contexts[t.entry.context.address]? := by
    obtain ⟨c,there,_⟩ := inv.tombstone g t found
    have zero : c.conns = 0 := by simpa [conns,userInfo,there] using quiet
    rw [recordAt _ c there,there]
    by_cases same : touched = t.entry.context.address
    · rw [same] at held
      rw [there,Option.some.injEq] at held
      exact absurd (by rw [← held]; exact zero) (busy g t found same.symm)
    · rw [if_neg same]
  refine ⟨coherent_modifyContext inv.coherent touched change,?_,inv.apart,inv.distinct,?_,inv.joins,inv.collected,?_,?_⟩
  · intro g t found
    obtain ⟨c,there,gone,final⟩ := inv.tombstone g t found
    refine ⟨_,recordAt _ c there,?_,?_⟩
    · by_cases same : touched = t.entry.context.address
      · subst same
        rw [there,Option.some.injEq] at held
        rw [if_pos rfl,held,revoked,← held,gone]
      · rw [if_neg same,gone]
    · intro info result
      obtain ⟨zero,snapshot⟩ := final info result
      have quiet : conns s.registry t.entry.context = 0 := by simp [conns,userInfo,there,zero]
      have same := keepsInfo found quiet
      rw [recordAt _ c there,there,Option.some.injEq] at same
      rw [same]
      exact ⟨zero,by rw [snapshot,userInfo_congr (keepsInfo found quiet)]⟩
  · intro i task found
    obtain ⟨t,there,knows⟩ := inv.tasks i task found
    refine ⟨t,there,?_⟩
    cases phase : task.phase with
    | closing =>
      rw [phase] at knows
      exact knows.congr (userInfo_congr (keepsInfo there knows))
    | waiting | done | joining | returned | failed | cancelled =>
      rw [phase] at knows
      exact knows
  · intro address
    rw [counter_modify held]
    by_cases same : touched = address
    · subst same; rw [if_pos rfl]; exact balance
    · rw [if_neg same,(others address same).1,(others address same).2]
      exact inv.balance address
  · intro address beyond
    have bound := (List.getElem?_eq_some_iff.mp held).1
    have length : (modifyContext s.registry touched change).contexts.length = s.registry.contexts.length := by
      simp [modifyContext]
    rw [length] at beyond
    have apart : touched ≠ address := by omega
    rw [(others address apart).1,(others address apart).2]
    exact inv.allocated address beyond

theorem complete_generations {g : Nat} {t : DrainingUser} (found : r.generations[g]? = some t) :
    (complete r g t).2 = { r with generations := r.generations.modify g (fun tombstone =>
      { tombstone with result := some (complete r g t).1 }) } := by
  have bound := (List.getElem?_eq_some_iff.mp found).1
  have lists : r.generations.set g { t with result := some (complete r g t).1 } =
      r.generations.modify g (fun tombstone => { tombstone with result := some (complete r g t).1 }) := by
    apply List.ext_getElem?
    intro j
    rw [List.getElem?_set,List.getElem?_modify]
    by_cases same : g = j
    · subst same
      rw [if_pos rfl,if_pos bound,found]
      simp
    · simp [same]
  rw [← lists]
  rfl

/-- The first snapshot of a generation with no open connection is published. -/
theorem inv_complete {s : State} (inv : Inv d s) {g : Nat} {t : DrainingUser}
    (found : s.registry.generations[g]? = some t) (quiet : conns s.registry t.entry.context = 0) :
    Inv d { s with registry := (complete s.registry g t).2 } ∧
      (complete s.registry g t).2.generations[g]? = some { t with result := some (complete s.registry g t).1 } := by
  have bound := (List.getElem?_eq_some_iff.mp found).1
  have at_index (j : Nat) : (complete s.registry g t).2.generations[j]? =
      if g = j then some { t with result := some (complete s.registry g t).1 } else s.registry.generations[j]? := by
    unfold complete
    simp only [List.getElem?_set]
    by_cases same : g = j
    · subst same; simp [bound]
    · simp [same]
  -- Every generation keeps its entry, and keeps a result that it had.
  have sameEntry (j : Nat) (t' : DrainingUser) (there : (complete s.registry g t).2.generations[j]? = some t') :
      ∃ old, s.registry.generations[j]? = some old ∧ old.entry = t'.entry ∧ ∀ info, old.result = some info →
        t'.result = some info := by
    rw [at_index] at there
    split at there
    · next same =>
      cases there
      refine ⟨t,by rw [← same]; exact found,rfl,fun info had => ?_⟩
      simp [complete,had]
    · exact ⟨t',there,rfl,fun _ had => had⟩
  have kept (j : Nat) (old : DrainingUser) (there : s.registry.generations[j]? = some old) :
      ∃ t', (complete s.registry g t).2.generations[j]? = some t' ∧ old.entry = t'.entry ∧ ∀ info,
        old.result = some info → t'.result = some info := by
    rw [at_index]
    by_cases same : g = j
    · subst same
      rw [there,Option.some.injEq] at found
      subst found
      refine ⟨_,if_pos rfl,rfl,fun info had => ?_⟩
      simp [complete,had]
    · exact ⟨old,by rw [if_neg same]; exact there,rfl,fun _ had => had⟩
  refine ⟨⟨?_,?_,?_,?_,?_,inv.joins,?_,inv.balance,inv.allocated⟩,by rw [at_index,if_pos rfl]⟩
  · have coherent := coherent_complete inv.coherent g (some (complete s.registry g t).1)
    rw [← complete_generations found] at coherent
    exact coherent
  · intro j t' there
    rw [at_index] at there
    split at there
    · cases there
      obtain ⟨context,held,gone,final⟩ := inv.tombstone g t found
      refine ⟨context,held,gone,fun info same => ?_⟩
      have zero : context.conns = 0 := by simpa [conns,userInfo,held] using quiet
      refine ⟨zero,?_⟩
      cases same
      cases had : t.result with
      | none => simp only [complete,had,Option.getD_none]; rfl
      | some first =>
        simp only [complete,had,Option.getD_some]
        exact (final first had).2
    · exact inv.tombstone j t' there
  · intro j t' id entry there held
    obtain ⟨old,found',same,_⟩ := sameEntry j t' there
    rw [← same]
    exact inv.apart j old id entry found' held
  · intro j j' t' t'' there there' shared
    obtain ⟨old,found',same,_⟩ := sameEntry j t' there
    obtain ⟨old',found'',same',_⟩ := sameEntry j' t'' there'
    rw [← same,← same'] at shared
    exact inv.distinct j j' old old' found' found'' shared
  · intro i task held
    obtain ⟨old,there,knows⟩ := inv.tasks i task held
    obtain ⟨t',there',same,results⟩ := kept _ old there
    refine ⟨t',there',?_⟩
    cases phase : task.phase with
    | closing =>
      rw [phase] at knows
      change conns _ _ = 0
      rw [← same]
      exact knows
    | done info | returned info =>
      rw [phase] at knows
      exact results info knows
    | waiting | joining | failed | cancelled => trivial
  · intro j t' there
    obtain ⟨old,found',same,_⟩ := sameEntry j t' there
    rw [← same]
    exact inv.collected j old found'

/-- Clearing touches the tombstone of its own generation and no other. -/
theorem clear_draining {g : Nat} {id : String} {other : Nat} (held : r.draining[id]? = some other) (apart : other ≠ g) :
    (clearDrainingGeneration r g).draining[id]? = some other := by
  unfold clearDrainingGeneration
  split
  · next t _ =>
    split
    · next current =>
      rw [lookup_erase]
      split
      · next same =>
        rw [same,held,Option.some.injEq] at current
        exact absurd current apart
      · exact held
    · exact held
  · exact held

theorem clear_frame (r : MemoryUserRegistry) (g : Nat) :
    (clearDrainingGeneration r g).users = r.users ∧ (clearDrainingGeneration r g).generations = r.generations ∧
      (clearDrainingGeneration r g).contexts = r.contexts := by
  unfold clearDrainingGeneration
  split
  · split <;> exact ⟨rfl,rfl,rfl⟩
  · exact ⟨rfl,rfl,rfl⟩

/-- A call that returned its record may clear the tombstone of its generation. -/
theorem inv_clear {s : State} (inv : Inv d s) {i : Nat} {g : Nat} {info : UserInfo}
    (returned : s.tasks[i]? = some ⟨g,false,.returned info⟩) :
    Inv d { s with registry := clearDrainingGeneration s.registry g } := by
  obtain ⟨users,generations,contexts⟩ := clear_frame s.registry g
  have sameInfo (context : ContextRef) :
      userInfo (clearDrainingGeneration s.registry g) context = userInfo s.registry context :=
    userInfo_congr (by rw [contexts])
  refine ⟨coherent_clear inv.coherent g,?_,?_,?_,?_,inv.joins,?_,?_,?_⟩
  · simp only [generations,contexts,sameInfo]; exact inv.tombstone
  · simp only [generations,users]; exact inv.apart
  · simp only [generations]; exact inv.distinct
  · intro j task held
    obtain ⟨t,there,knows⟩ := inv.tasks j task held
    exact ⟨t,by rw [generations]; exact there,knows.congr (sameInfo _)⟩
  · intro other t found
    rw [generations] at found
    by_cases same : other = g
    · subst same; exact .inr ⟨i,info,returned⟩
    · rcases inv.collected other t found with draining | collected
      · exact .inl (clear_draining draining same)
      · exact .inr collected
  · intro address
    simp only [counter,contexts]
    exact inv.balance address
  · simp only [contexts]; exact inv.allocated

theorem contextsAfter_self {previous : Option Entry} {address : Nat} (spec : UserSpec) {contexts : List UserContext} :
    (contextsAfter previous address spec contexts)[address]? =
      ((contexts ++ (if previous.isNone then [UserContext.new] else []))[address]?).map (configured spec) := by
  simp [contextsAfter]

/-- An accepted upsert configures the user's own record and no other. -/
theorem inv_upsert {s : State} (inv : Inv d s) {spec : UserSpec} {result : Except EngineError UserInfo}
    {r' : MemoryUserRegistry} (done : upsert d s.registry spec = some (result,r')) : Inv d { s with registry := r' } := by
  have coherent : Coherent d r' := by
    obtain ⟨_,after,same,kept,_⟩ := upsert_spec inv.coherent spec
    rw [same,Option.some.injEq,Prod.mk.injEq] at done
    rw [← done.2]
    exact kept
  rcases upsert_cases inv.coherent done with rfl | ⟨entry,accepted,users,draining,generations,contexts⟩
  · exact inv
  -- The configured record belongs to no removed generation.
  have foreign (g : Nat) (t : DrainingUser) (found : s.registry.generations[g]? = some t) :
      entry.context.address ≠ t.entry.context.address := by
    cases held : s.registry.users[entry.context.id]? with
    | none =>
      obtain ⟨context,there,_⟩ := inv.tombstone g t found
      have bound := (List.getElem?_eq_some_iff.mp there).1
      rw [accepted.fresh held]
      omega
    | some previous =>
      rw [accepted.kept previous held]
      exact (inv.apart g t _ previous found held).symm
  have sameRecord (g : Nat) (t : DrainingUser) (found : s.registry.generations[g]? = some t) :
      r'.contexts[t.entry.context.address]? = s.registry.contexts[t.entry.context.address]? := by
    obtain ⟨context,there,_⟩ := inv.tombstone g t found
    rw [contexts]
    exact contextsAfter_other spec (foreign g t found) (List.getElem?_eq_some_iff.mp there).1
  have sameInfo (g : Nat) (t : DrainingUser) (found : s.registry.generations[g]? = some t) :
      userInfo r' t.entry.context = userInfo s.registry t.entry.context := userInfo_congr (sameRecord g t found)
  have sameCounter (address : Nat) : counter r' address = counter s.registry address := by
    unfold counter
    rw [contexts]
    by_cases same : entry.context.address = address
    · subst same
      rw [contextsAfter_self]
      cases held : s.registry.users[entry.context.id]? with
      | none =>
        rw [accepted.fresh held]
        simp [bytes,configured,UserContext.new]
      | some previous =>
        cases there : s.registry.contexts[entry.context.address]? <;> simp [there,bytes,configured]
    · by_cases bound : address < s.registry.contexts.length
      · rw [contextsAfter_other spec same bound]
      · have fresh : (contextsAfter s.registry.users[entry.context.id]? entry.context.address spec
            s.registry.contexts)[address]? = none := by
          rw [List.getElem?_eq_none_iff,length_contextsAfter]
          split
          · next unheld =>
            have unheld : s.registry.users[entry.context.id]? = none := by simpa using unheld
            have last := accepted.fresh unheld
            omega
          · omega
        rw [fresh,List.getElem?_eq_none (by omega)]
  refine ⟨coherent,?_,?_,?_,?_,inv.joins,?_,?_,?_⟩
  · intro g t found
    rw [generations] at found
    rw [sameRecord g t found,sameInfo g t found]
    exact inv.tombstone g t found
  · intro g t id other found held
    rw [generations] at found
    rw [users,lookup_insert] at held
    split at held
    · cases held
      exact (foreign g t found).symm
    · exact inv.apart g t id other found held
  · rw [generations]; exact inv.distinct
  · intro i task held
    obtain ⟨t,there,knows⟩ := inv.tasks i task held
    exact ⟨t,by rw [generations]; exact there,knows.congr (sameInfo _ t there)⟩
  · rw [generations,draining]; exact inv.collected
  · intro address
    rw [sameCounter]
    exact inv.balance address
  · intro address beyond
    refine inv.allocated address ?_
    rw [contexts,length_contextsAfter] at beyond
    omega

/-- A removal moves the user's record to a new generation. -/
theorem inv_retire {s : State} (inv : Inv d s) {tag id : String} {entry : Entry} {r' : MemoryUserRegistry}
    {result : Except EngineError (Nat × Bool)} (done : beginRemove d s.registry tag id = some (result,r'))
    (held : s.registry.users[id]? = some entry) (users : r'.users = s.registry.users.erase id)
    (draining : r'.draining = s.registry.draining.insert id s.registry.generations.length)
    (generations : r'.generations = s.registry.generations ++ [⟨entry,none⟩])
    (contexts : r'.contexts = s.registry.contexts.modify entry.context.address (fun context => { context with revoked := true })) :
    Inv d { s with registry := r' } := by
  have coherent : Coherent d r' := by
    obtain ⟨_,after,same,kept,_⟩ := beginRemove_spec inv.coherent tag id
    rw [same,Option.some.injEq,Prod.mk.injEq] at done
    rw [← done.2]
    exact kept
  have name := inv.coherent.named id entry held
  have recorded := inv.coherent.recorded id entry held
  have generation (g : Nat) (t : DrainingUser) (found : r'.generations[g]? = some t) :
      s.registry.generations[g]? = some t ∨ (g = s.registry.generations.length ∧ t = ⟨entry,none⟩) := by
    rw [generations,List.getElem?_append] at found
    split at found
    · exact .inl found
    · obtain ⟨bound,same⟩ := List.getElem?_eq_some_iff.mp found
      simp only [List.length_singleton] at bound
      right
      refine ⟨by omega,?_⟩
      simpa using same.symm
  have sameRecord (g : Nat) (t : DrainingUser) (found : s.registry.generations[g]? = some t) :
      r'.contexts[t.entry.context.address]? = s.registry.contexts[t.entry.context.address]? := by
    rw [contexts]
    simp [(inv.apart g t id entry found held).symm]
  have sameInfo (g : Nat) (t : DrainingUser) (found : s.registry.generations[g]? = some t) :
      userInfo r' t.entry.context = userInfo s.registry t.entry.context := userInfo_congr (sameRecord g t found)
  have earlier {g : Nat} {t : DrainingUser} (found : s.registry.generations[g]? = some t) : r'.generations[g]? = some t := by
    rw [generations,List.getElem?_append_left (List.getElem?_eq_some_iff.mp found).1]
    exact found
  refine ⟨coherent,?_,?_,?_,?_,inv.joins,?_,?_,?_⟩
  · intro g t found
    rcases generation g t found with old | ⟨_,rfl⟩
    · rw [sameRecord g t old,sameInfo g t old]
      exact inv.tombstone g t old
    · refine ⟨{ s.registry.contexts[entry.context.address] with revoked := true },?_,rfl,fun info none_yet => by cases none_yet⟩
      rw [contexts]
      simp [recorded]
  · intro g t other e found there
    rw [users,lookup_erase] at there
    split at there
    · cases there
    next apart =>
    rcases generation g t found with old | ⟨_,rfl⟩
    · exact inv.apart g t other e old there
    · exact fun shared => apart (inv.coherent.separate id other entry e held there shared)
  · intro g g' t t' found found' shared
    rcases generation g t found with old | ⟨here,rfl⟩ <;> rcases generation g' t' found' with old' | ⟨here',rfl⟩
    · exact inv.distinct g g' t t' old old' shared
    · exact absurd shared (inv.apart g t id entry old held)
    · exact absurd shared.symm (inv.apart g' t' id entry old' held)
    · rw [here,here']
  · intro i task there
    obtain ⟨t,found,knows⟩ := inv.tasks i task there
    exact ⟨t,earlier found,knows.congr (sameInfo _ t found)⟩
  · intro g t found
    rw [draining,lookup_insert]
    rcases generation g t found with old | ⟨here,rfl⟩
    · rcases inv.collected g t old with current | collected
      · have absent := inv.coherent.disjoint id entry held
        by_cases same : id = t.entry.context.id
        · rw [← same,absent] at current
          cases current
        · exact .inl (by rw [if_neg same]; exact current)
      · exact .inr collected
    · exact .inl (by rw [name,if_pos rfl,here])
  · intro address
    have same : counter r' address = counter s.registry address := by
      unfold counter
      rw [contexts,List.getElem?_modify]
      cases s.registry.contexts[address]? with
      | none => rfl
      | some context => by_cases here : entry.context.address = address <;> simp [here,bytes]
    rw [same]
    exact inv.balance address
  · intro address beyond
    refine inv.allocated address ?_
    simpa [contexts] using beyond

theorem ledger_append (address touched : Nat) (entries : List (Nat × UInt64 × UInt64)) (amount : UInt64 × UInt64) :
    ledger address (entries ++ [(touched,amount)]) = ledger address entries + (if touched = address then amount else 0) := by
  simp [ledger]

/-- Every step keeps the invariant. -/
theorem inv_step {s s' : State} {event : Event} (inv : Inv d s) (taken : step d s event = some s') : Inv d s' := by
  cases event with
  | upsert spec =>
    obtain ⟨⟨result,r'⟩,done,rfl⟩ := Option.map_eq_some_iff.mp taken
    exact inv_upsert inv done
  | remove tag id onRuntime =>
    simp only [step] at taken
    split at taken
    · cases taken
    · next error r' done =>
      cases taken
      rcases beginRemove_cases inv.coherent done with ⟨_,_,impossible,_⟩ | ⟨_,_,_,impossible,_⟩ | ⟨_,rfl⟩
      · cases impossible
      · cases impossible
      · exact inv
    · next generation newlyRemoved r' done =>
      have after : Inv d { s with registry := r' } ∧ ∃ t, r'.generations[generation]? = some t := by
        rcases beginRemove_cases inv.coherent done with
          ⟨entry,held,same,users,draining,generations,contexts⟩ | ⟨g,_,there,same,rfl⟩ | ⟨impossible,_⟩
        · cases same
          exact ⟨inv_retire inv done held users draining generations contexts,⟨entry,none⟩,by rw [generations]; simp⟩
        · cases same
          obtain ⟨t,found,_⟩ := inv.coherent.tombstoned id generation there
          exact ⟨inv,t,found⟩
        · cases impossible
      obtain ⟨kept,t,found⟩ := after
      split at taken
      · cases taken
        refine inv_spawn kept ?_ ?_
        · intro task member
          simp only [List.mem_cons,List.not_mem_nil,or_false] at member
          rcases member with rfl | rfl <;> exact ⟨t,found,trivial⟩
        · intro task member finalizer joining
          simp only [List.mem_cons,List.not_mem_nil,or_false] at member
          rcases member with rfl | rfl
          · cases joining
          · cases joining
            exact ⟨⟨generation,true,.waiting⟩,by simp,rfl⟩
      · cases taken
        refine inv_spawn kept ?_ ?_
        · intro task member
          rw [List.mem_singleton.mp member]
          exact ⟨t,found,trivial⟩
        · intro task member finalizer joining
          rw [List.mem_singleton.mp member] at joining
          cases joining
  | observe i =>
    simp only [step,Option.bind_eq_bind,Option.bind_eq_some_iff] at taken
    obtain ⟨task,held,t,found,info,result,taken⟩ := taken
    split at taken
    · next waiting =>
      cases taken
      refine inv_setPhase inv held ?_ (by simp [waiting]) (by simp)
      intro t' there
      rw [found,Option.some.injEq] at there
      rw [← there]
      exact result
    · cases taken
  | close i =>
    simp only [step,Option.bind_eq_bind,Option.bind_eq_some_iff] at taken
    obtain ⟨task,held,t,found,taken⟩ := taken
    split at taken
    · next closes =>
      cases taken
      refine inv_setPhase inv held ?_ (by simp [closes.1]) (by simp)
      intro t' there
      rw [found,Option.some.injEq] at there
      rw [← there]
      exact closes.2
    · cases taken
  | complete i =>
    simp only [step,Option.bind_eq_bind,Option.bind_eq_some_iff] at taken
    obtain ⟨task,held,t,found,taken⟩ := taken
    split at taken
    · next closing =>
      cases taken
      obtain ⟨t',there,knows⟩ := inv.tasks i task held
      rw [found,Option.some.injEq] at there
      subst there
      rw [closing] at knows
      obtain ⟨kept,published⟩ := inv_complete inv found knows
      refine inv_setPhase (s := { s with registry := (complete s.registry task.generation t).2 }) kept held ?_
        (by simp [closing]) (by simp)
      intro t' there
      change (complete s.registry task.generation t).2.generations[task.generation]? = some t' at there
      rw [published,Option.some.injEq] at there
      rw [← there]
      rfl
    · cases taken
  | join i =>
    simp only [step,Option.bind_eq_bind,Option.bind_eq_some_iff] at taken
    obtain ⟨task,held,taken⟩ := taken
    split at taken
    · next finalizer joining =>
      split at taken
      · next info done =>
        cases taken
        refine inv_setPhase inv held ?_ (by simp [joining]) (by simp)
        intro t there
        obtain ⟨other,found,same⟩ := inv.joins i task finalizer held joining
        obtain ⟨t',there',knows⟩ := inv.tasks finalizer other found
        have finished : other.phase = .done info := by simpa [found] using done
        rw [finished] at knows
        rw [same,there,Option.some.injEq] at there'
        rw [there']
        exact knows
      · cases taken
    · cases taken
  | abort i =>
    simp only [step,Option.bind_eq_bind,Option.bind_eq_some_iff] at taken
    obtain ⟨task,held,taken⟩ := taken
    split at taken
    · next aborts =>
      cases taken
      exact inv_setPhase inv held (fun _ _ => trivial) (by simp [aborts.2]) (by simp)
    · cases taken
  | joinError i =>
    simp only [step,Option.bind_eq_bind,Option.bind_eq_some_iff] at taken
    obtain ⟨task,held,t,found,taken⟩ := taken
    split at taken
    · next finalizer joining =>
      split at taken
      · split at taken
        · next quiet =>
          cases taken
          obtain ⟨kept,_⟩ := inv_complete inv found quiet
          exact inv_setPhase (s := { s with registry := (complete s.registry task.generation t).2 }) kept held
            (fun _ _ => trivial) (by simp [joining]) (by simp)
        · cases taken
          exact inv_setPhase inv held (fun _ _ => trivial) (by simp [joining]) (by simp)
      · cases taken
    · cases taken
  | collect i =>
    simp only [step,Option.bind_eq_bind,Option.bind_eq_some_iff] at taken
    obtain ⟨task,held,taken⟩ := taken
    split at taken
    · next info done =>
      split at taken
      · cases taken
      next attached =>
      cases taken
      have returned : Inv d (setPhase s i task (.returned info)) := by
        refine inv_setPhase inv held ?_ (by simp [done]) (by simp)
        intro t there
        obtain ⟨t',there',knows⟩ := inv.tasks i task held
        rw [there,Option.some.injEq] at there'
        rw [done] at knows
        rw [there']
        exact knows
      have bound := (List.getElem?_eq_some_iff.mp held).1
      rw [Bool.not_eq_true] at attached
      have there : (setPhase s i task (.returned info)).tasks[i]? = some ⟨task.generation,false,.returned info⟩ := by
        simp only [setPhase,List.getElem?_set,bound,↓reduceIte]
        rw [← attached]
      exact inv_clear returned there
    · cases taken
  | cancel i =>
    simp only [step,Option.bind_eq_bind,Option.bind_eq_some_iff] at taken
    obtain ⟨task,held,taken⟩ := taken
    split at taken
    · next waiting =>
      split at taken
      · cases taken
      · cases taken
        exact inv_setPhase inv held (fun _ _ => trivial) (by simp [waiting]) (by simp)
    · next joining =>
      cases taken
      exact inv_setPhase inv held (fun _ _ => trivial) (by simp [joining]) (by simp)
    · cases taken
  | openConnection address =>
    simp only [step,Option.bind_eq_bind,Option.bind_eq_some_iff] at taken
    obtain ⟨context,held,taken⟩ := taken
    split at taken
    · cases taken
    next admitted =>
    cases taken
    refine inv_modify inv held ?_ rfl ?_ (fun _ _ => ⟨rfl,rfl⟩)
    · intro g t found same
      obtain ⟨other,there,gone,_⟩ := inv.tombstone g t found
      rw [same,held,Option.some.injEq] at there
      rw [there] at admitted
      exact absurd gone admitted
    · have balance := inv.balance address
      simp only [counter,held,Option.map_some,Option.getD_some] at balance
      exact balance
  | closeConnection address =>
    simp only [step,Option.bind_eq_bind,Option.bind_eq_some_iff] at taken
    obtain ⟨context,held,taken⟩ := taken
    split at taken
    · cases taken
    next busy =>
    cases taken
    refine inv_modify inv held (fun _ _ _ _ => busy) rfl ?_ (fun _ _ => ⟨rfl,rfl⟩)
    have balance := inv.balance address
    simp only [counter,held,Option.map_some,Option.getD_some] at balance
    exact balance
  | meter address tx rx observedAt =>
    simp only [step,Option.bind_eq_bind,Option.bind_eq_some_iff] at taken
    obtain ⟨context,held,taken⟩ := taken
    split at taken
    · cases taken
    next busy =>
    cases taken
    refine inv_modify inv held (fun _ _ _ _ => busy) rfl ?_ (fun other apart => ⟨?_,rfl⟩)
    · have balance := inv.balance address
      simp only [counter,held,Option.map_some,Option.getD_some] at balance
      rw [ledger_append,if_pos rfl,balance,add_assoc]
      rfl
    · rw [ledger_append,if_neg apart,add_zero]
  | takeTraffic id =>
    simp only [step,Option.bind_eq_bind,Option.bind_eq_some_iff] at taken
    obtain ⟨entry,user,context,held,taken⟩ := taken
    cases taken
    refine inv_modify inv held ?_ rfl ?_ (fun other apart => ⟨rfl,?_⟩)
    · intro g t found same
      exact absurd same (inv.apart g t id entry found user)
    · have balance := inv.balance entry.context.address
      simp only [counter,held,Option.map_some,Option.getD_some] at balance
      rw [ledger_append,if_pos rfl,balance,add_assoc]
      congr 1
      simp [bytes]
    · rw [ledger_append,if_neg apart,add_zero]

/-! ### Whole runs -/

/-- What holds of every id and every removed generation. -/
structure OneGeneration (s : State) : Prop where
  /-- An id is never both registered and draining. -/
  exclusive : ∀ (id : String) (entry : Entry), s.registry.users[id]? = some entry → s.registry.draining[id]? = none
  /-- A generation none of whose calls returned is the id's only one. -/
  uncollected : ∀ (g : Nat) (t : DrainingUser), s.registry.generations[g]? = some t →
    (∀ (i : Nat) (info : UserInfo), s.tasks[i]? ≠ some ⟨g,false,.returned info⟩) →
      s.registry.draining[t.entry.context.id]? = some g ∧ s.registry.users[t.entry.context.id]? = none
  /-- The final record is the record with every connection closed. -/
  final : ∀ (g : Nat) (t : DrainingUser) (info : UserInfo), s.registry.generations[g]? = some t → t.result = some info →
    conns s.registry t.entry.context = 0 ∧ info = userInfo s.registry t.entry.context
  /-- Every task that has a record has the one that its generation stores. -/
  shared : ∀ (i g : Nat) (detached : Bool) (info : UserInfo),
    s.tasks[i]? = some ⟨g,detached,.done info⟩ ∨ s.tasks[i]? = some ⟨g,detached,.returned info⟩ →
    ∃ t, s.registry.generations[g]? = some t ∧ t.result = some info
  /-- A generation's bytes were taken or are in its final record. -/
  accounted : ∀ (g : Nat) (t : DrainingUser) (info : UserInfo), s.registry.generations[g]? = some t → t.result = some info →
    ledger t.entry.context.address s.metered = ledger t.entry.context.address s.taken + (info.tx,info.rx)
  /-- A registered user's bytes were taken or are still counted. -/
  counted : ∀ (id : String) (entry : Entry), s.registry.users[id]? = some entry →
    ledger entry.context.address s.metered =
      ledger entry.context.address s.taken + ((userInfo s.registry entry.context).tx,(userInfo s.registry entry.context).rx)
  /-- Generations and users have records of their own. -/
  separate : ∀ (g : Nat) (t : DrainingUser), s.registry.generations[g]? = some t →
    (∀ (g' : Nat) (t' : DrainingUser), s.registry.generations[g']? = some t' →
      t.entry.context.address = t'.entry.context.address → g = g') ∧
    ∀ (id : String) (entry : Entry), s.registry.users[id]? = some entry → t.entry.context.address ≠ entry.context.address

theorem counter_eq_userInfo {context : ContextRef} {record : UserContext}
    (held : r.contexts[context.address]? = some record) :
    counter r context.address = ((userInfo r context).tx,(userInfo r context).rx) := by
  simp [counter,userInfo,held,bytes]

theorem Inv.oneGeneration {s : State} (inv : Inv d s) : OneGeneration s := by
  refine ⟨inv.coherent.disjoint,?_,?_,?_,?_,?_,?_⟩
  · intro g t found pending
    rcases inv.collected g t found with draining | ⟨i,info,returned⟩
    · refine ⟨draining,?_⟩
      cases held : s.registry.users[t.entry.context.id]? with
      | none => rfl
      | some entry =>
        rw [inv.coherent.disjoint _ entry held] at draining
        cases draining
    · exact absurd returned (pending i info)
  · intro g t info found result
    obtain ⟨context,held,_,final⟩ := inv.tombstone g t found
    obtain ⟨zero,snapshot⟩ := final info result
    exact ⟨by simp [conns,userInfo,held,zero],snapshot⟩
  · intro i g detached info has
    rcases has with done | returned
    · exact inv.tasks i _ done
    · exact inv.tasks i _ returned
  · intro g t info found result
    obtain ⟨context,held,_,final⟩ := inv.tombstone g t found
    rw [(final info result).2,← counter_eq_userInfo held]
    exact inv.balance _
  · intro id entry user
    have bound := inv.coherent.recorded id entry user
    rw [← counter_eq_userInfo (List.getElem?_eq_getElem bound)]
    exact inv.balance _
  · intro g t found
    exact ⟨fun g' t' found' shared => inv.distinct g g' t t' found found' shared,
      fun id entry user => inv.apart g t id entry found user⟩

/-- A tombstone goes only when a call of its own generation returns the record. -/
theorem draining_step {s s' : State} {event : Event} (inv : Inv d s) (taken : step d s event = some s') {id : String}
    {g : Nat} (held : s.registry.draining[id]? = some g) (gone : s'.registry.draining[id]? ≠ some g) :
    ∃ (i : Nat) (info : UserInfo), event = .collect i ∧ s.tasks[i]? = some ⟨g,false,.done info⟩ ∧
      s'.tasks[i]? = some ⟨g,false,.returned info⟩ := by
  cases event with
  | upsert spec =>
    obtain ⟨⟨result,r'⟩,done,rfl⟩ := Option.map_eq_some_iff.mp taken
    rcases upsert_cases inv.coherent done with rfl | ⟨_,_,_,draining,_⟩
    · exact absurd held gone
    · exact absurd (by rw [draining]; exact held) gone
  | remove tag other onRuntime =>
    simp only [step] at taken
    have kept (result : Except EngineError (Nat × Bool)) (r' : MemoryUserRegistry)
        (done : beginRemove d s.registry tag other = some (result,r')) : r'.draining[id]? = some g := by
      rcases beginRemove_cases inv.coherent done with ⟨entry,user,_,_,draining,_⟩ | ⟨_,_,_,_,rfl⟩ | ⟨_,rfl⟩
      · rw [draining,lookup_insert]
        split
        · next same =>
          rw [← same,inv.coherent.disjoint other entry user] at held
          cases held
        · exact held
      · exact held
      · exact held
    split at taken
    · cases taken
    · next error r' done =>
      cases taken
      exact absurd (kept _ _ done) gone
    · next generation newlyRemoved r' done =>
      split at taken <;> cases taken <;> exact absurd (kept _ _ done) gone
  | collect i =>
    simp only [step,Option.bind_eq_bind,Option.bind_eq_some_iff] at taken
    obtain ⟨task,there,taken⟩ := taken
    split at taken
    · next info done =>
      split at taken
      · cases taken
      next attached =>
      cases taken
      rw [Bool.not_eq_true] at attached
      have own : task.generation = g := by
        by_contra apart
        exact gone (clear_draining held (fun same => apart same.symm))
      have shape : task = ⟨g,false,.done info⟩ := by
        rw [← own,← attached,← done]
      have bound := (List.getElem?_eq_some_iff.mp there).1
      refine ⟨i,info,rfl,by rw [there,shape],?_⟩
      simp [setPhase,bound,shape]
    · cases taken
  | takeTraffic user =>
    simp only [step,Option.bind_eq_bind,Option.bind_eq_some_iff] at taken
    obtain ⟨entry,_,context,_,taken⟩ := taken
    cases taken
    exact absurd held gone
  | observe i | close i | complete i | join i | abort i | joinError i | cancel i | openConnection i | closeConnection i
  | meter i =>
    have same : s'.registry.draining = s.registry.draining := by
      simp only [step,Option.bind_eq_bind,Option.bind_eq_some_iff] at taken
      repeat obtain ⟨_,_,taken⟩ := taken
      repeat' split at taken
      all_goals cases taken
      all_goals rfl
    exact absurd (by rw [same]; exact held) gone

/-- A registry under construction has removed nobody and metered nothing. -/
def Unused (r : MemoryUserRegistry) : Prop := r.generations = [] ∧ ∀ context ∈ r.contexts, bytes context = 0

theorem unused_upsertWrites (unused : Unused r) {previous : Option Entry} {entry : Entry} {spec : UserSpec}
    (ran : Registry.run d r (upsertWrites d r previous entry spec) = some r') : Unused r' := by
  have maps := run_upsertWrites ran
  have contexts : r'.contexts = contextsAfter previous entry.context.address spec r.contexts := by rw [maps]
  refine ⟨by rw [maps]; exact unused.1,fun context member => ?_⟩
  rw [contexts,contextsAfter] at member
  obtain ⟨i,found⟩ := List.mem_iff_getElem?.mp member
  rw [List.getElem?_modify] at found
  have before (c : UserContext) (there : (r.contexts ++ (if previous.isNone then [UserContext.new] else []))[i]? = some c) :
      bytes c = 0 := by
    rcases List.mem_append.mp (List.mem_of_getElem? there) with old | fresh
    · exact unused.2 c old
    · split at fresh
      · rw [List.mem_singleton.mp fresh]; rfl
      · cases fresh
  obtain ⟨c,there,rfl⟩ := Option.map_eq_some_iff.mp found
  split
  · exact before c there
  · exact before c there

theorem unused_insertUsers (inv : Indexed d r) (unused : Unused r) {users : List UserSpec}
    (done : insertUsers d r users = some (.ok r')) : Unused r' := by
  induction users generalizing r with
  | nil => cases done; exact unused
  | cons user rest ih =>
    unfold insertUsers at done
    split at done
    · cases done
    split at done
    · cases done
    split at done
    · cases done
    · next entry writes planned =>
      obtain ⟨_,accepted,rfl⟩ := upsertLocked_ok inv planned
      obtain ⟨middle,ran,later⟩ := Option.bind_eq_some_iff.mp done
      exact ih (indexed_upsert inv accepted ran) (unused_upsertWrites unused ran) later

theorem unused_fromUsers {kinds : CredentialKinds} {users : List UserSpec} {start : MemoryUserRegistry}
    (built : fromUsers d kinds users = some (.ok start)) : Unused start := by
  unfold fromUsers at built
  split at built
  · cases built
  · cases built
  · next r done =>
    have unused := unused_insertUsers (indexed_new d kinds) ⟨rfl,by simp [new]⟩ done
    obtain ⟨last,republished,same⟩ := Option.map_eq_some_iff.mp built
    cases same
    cases republished
    exact unused

/-- For every interleaving of upserts, removals, finalizers, cancellations, connections
    and sweeps: an id has one live generation, a generation's record is final, shared and
    complete, and only its own calls clear its tombstone. -/
theorem one_accounting_generation (d : Derivations) (kinds : CredentialKinds) (users : List UserSpec)
    {start : MemoryUserRegistry} (built : fromUsers d kinds users = some (.ok start)) {events : List Event} {s : State}
    (run : Run (step d) (initial start) events s) :
    OneGeneration s ∧ ∀ (event : Event) (s' : State) (id : String) (g : Nat), step d s event = some s' →
      s.registry.draining[id]? = some g → s'.registry.draining[id]? ≠ some g →
      ∃ (i : Nat) (info : UserInfo), event = .collect i ∧ s.tasks[i]? = some ⟨g,false,.done info⟩ ∧
        s'.tasks[i]? = some ⟨g,false,.returned info⟩ := by
  have coherent : Coherent d start := by
    obtain ⟨result,done,kept⟩ := fromUsers_coherent d kinds users
    rw [built,Option.some.injEq] at done
    exact kept start done.symm
  have unused := unused_fromUsers built
  have inv : Inv d s :=
    run.invariant (inv_initial coherent unused.1 unused.2) (fun _ _ _ before taken => inv_step before taken)
  exact ⟨inv.oneGeneration,fun event s' id g taken held gone => draining_step inv taken held gone⟩

/-- A user is removed with a connection open, the caller gives up, the connection
    meters and closes, the finalizer completes, and a second call collects. -/
theorem one_accounting_generation_retry : ∃ start s,
    fromUsers underived plainPassword [passwordUser "alice" "secret"] = some (.ok start) ∧
    Run (step underived) (initial start)
      [.openConnection 0,.remove "in" "alice" true,.cancel 1,.meter 0 3 5 7,.closeConnection 0,.close 0,.complete 0,
        .remove "in" "alice" true,.observe 2,.collect 2] s ∧
    s.tasks[2]?.map Task.phase = some (.returned ⟨"alice",true,3,5,7,0,1,0,0,0⟩) ∧ OneGeneration s := by
  have followed : ((fromUsers underived plainPassword [passwordUser "alice" "secret"]).bind Except.toOption).bind (fun start =>
      (follow (step underived) (initial start)
        [.openConnection 0,.remove "in" "alice" true,.cancel 1,.meter 0 3 5 7,.closeConnection 0,.close 0,.complete 0,
          .remove "in" "alice" true,.observe 2,.collect 2]).bind (fun s => s.tasks[2]?.map Task.phase)) =
      some (.returned ⟨"alice",true,3,5,7,0,1,0,0,0⟩) := by decide
  obtain ⟨start,built,followed⟩ := Option.bind_eq_some_iff.mp followed
  obtain ⟨s,reached,collected⟩ := Option.bind_eq_some_iff.mp followed
  have built := fromUsers_of_toOption built
  have run := Run.of_follow reached
  exact ⟨start,s,built,run,collected,(one_accounting_generation underived plainPassword _ built run).1⟩

end NodeAgent.Draining
