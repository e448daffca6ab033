import NodeAgent.ReplayLineages

/-!
Listen addresses of an engine. Adds, updates and removals are tasks over the control
lock; each runs without interruption from one await to the next, and its future may
be dropped at any await. `bound` always names exactly the keys of registered inbounds
and of the one being removed, a failed or dropped add leaves nothing behind, and a
removal leaves no key claimed however it ends (`addresses_owned`).
-/
namespace NodeAgent.AddressOwnership
open NodeAgent.Api NodeAgent.FiniteMap NodeAgent.Transition
open NodeAgent.ReplayLineages (Admission PreparedReplay Owner)

inductive SocketKind | tcp | udp
deriving DecidableEq

inductive SocketAddr
  | v4 (ip : UInt32) (port : UInt16)
  | v6 (ip : BitVec 128) (port : UInt16) (flowinfo scopeId : UInt32)
deriving DecidableEq

inductive BindKey
  | socket (address : SocketAddr) (kind : SocketKind)
  | path (path : String)
deriving DecidableEq

/-- The resolved listen targets of one server config. -/
inductive BindTargets
  | addresses (listen : List SocketAddr) (kind : SocketKind)
  | path (path : String)
deriving DecidableEq

/-- Everything a target claims. -/
def BindTargets.keys : BindTargets → List BindKey
  | .addresses listen kind => listen.map (fun address => .socket address kind)
  | .path file => [.path file]

/-- The keys that get a pre-flight bind: a unix path gets none. -/
def BindTargets.probed : BindTargets → List BindKey
  | .addresses listen kind => listen.map (fun address => .socket address kind)
  | .path _ => []

structure InboundSlot where
  keys : List BindKey
  /-- The listeners that back the inbound. -/
  handles : List Nat

inductive Kind
  | add (tag : String) (targets : List BindTargets) (admission : Admission)
  | update (tag : String)
  | remove (tag : String) (hard : Bool)

/-- Where a task stands while it does not hold the control lock. -/
inductive Phase
  /-- Before its first look at the registry. -/
  | queued
  /-- Resolving names or preparing a candidate, without the lock. -/
  | resolving
  /-- Holding the lock; see `Guarded`. -/
  | locked
  | ended (error : Option EngineError)
  | dropped

/-- What the holder of the control lock awaits. -/
inductive Guarded
  /-- An add that starts its listeners. -/
  | starting (tag : String) (claimed : List BindKey) (replay : PreparedReplay) (started : List Nat) (remaining : Nat)
  /-- An add that waits for the health probe. -/
  | probing (tag : String) (claimed : List BindKey) (replay : PreparedReplay) (started : List Nat)
  /-- A failed add that waits for its stopped listeners. -/
  | abandoning (error : EngineError)
  | reloading
  /-- A removal that waits for its listeners. -/
  | removing (tag : String) (slot : InboundSlot)

structure Task where
  kind : Kind
  phase : Phase

structure State where
  inbounds : Map String InboundSlot
  bound : BindKey → Option String
  replay : ReplayLineages.State
  /-- Listeners that nobody has told to stop. -/
  running : List Nat
  nextListener : Nat
  /-- The task that holds the control lock, and what it awaits. -/
  control : Option (Nat × Guarded)
  tasks : List Task

def initial (limit : Nat) : State := ⟨∅,fun _ => none,ReplayLineages.initial limit,[],0,none,[]⟩

/-- The text of a key in errors. -/
abbrev KeyText := BindKey → String

/-- The keys of one target, checked against the registry and the payload's own. -/
def claimTarget (text : KeyText) (bound : BindKey → Option String) (tag : String) :
    List BindKey → List BindKey → Except EngineError (List BindKey)
  | claimed, [] => .ok claimed
  | claimed, key :: rest =>
    match bound key with
    | some owner => .error (.addressInUse (text key) owner)
    | none =>
      if key ∈ claimed then .error (.addressInUse (text key) tag)
      else claimTarget text bound tag (claimed ++ [key]) rest

/-- The claims of a payload; `probe` is the operating system's answer to a pre-flight
    bind. -/
def claimKeys (text : KeyText) (bound : BindKey → Option String) (tag : String) (probe : BindKey → Option String) :
    List BindKey → List BindTargets → Except EngineError (List BindKey)
  | claimed, [] => .ok claimed
  | claimed, target :: rest =>
    match claimTarget text bound tag claimed target.keys with
    | .error error => .error error
    | .ok claimed' =>
      match target.probed.findSome? probe with
      | some reason => .error (.io reason)
      | none => claimKeys text bound tag probe claimed' rest

/-- `bound.insert` of every key. -/
def bindAll (bound : BindKey → Option String) (tag : String) (keys : List BindKey) : BindKey → Option String :=
  keys.foldl (fun bound key => Function.update bound key (some tag)) bound

/-- `bound.remove` of every key. -/
def releaseAll (bound : BindKey → Option String) (keys : List BindKey) : BindKey → Option String :=
  keys.foldl (fun bound key => Function.update bound key none) bound

/-- `hard_stop` or `stop_accepting` on each listener. -/
def stop (running : List Nat) (handles : List Nat) : List Nat := running.filter (fun listener => listener ∉ handles)

def setPhase (s : State) (i : Nat) (phase : Phase) : State :=
  { s with tasks := s.tasks.modify i (fun task => { task with phase := phase }) }

/-- The lock is let go and the task is over; the pending replay start goes with it. -/
def finish (s : State) (i : Nat) (phase : Phase) : State :=
  { setPhase s i phase with control := none, replay := { s.replay with pending := none } }

/-- The task keeps the lock across its next await. -/
def hold (s : State) (i : Nat) (guarded : Guarded) : State := { setPhase s i .locked with control := some (i,guarded) }

/-- The guarded section of an add once it has the lock, up to its first await. -/
def beginAdd (quote : String → String) (text : KeyText) (s : State) (i : Nat) (tag : String) (targets : List BindTargets)
    (admission : Admission) (probe : BindKey → Option String) : State :=
  if (s.inbounds[tag]?).isSome then setPhase s i (.ended (some (.duplicateTag tag)))
  else match ReplayLineages.prepare quote s.replay tag admission with
  | .error error => setPhase { s with replay := ReplayLineages.prune s.replay } i (.ended (some error))
  | .ok (replay,prepared) =>
    match claimKeys text s.bound tag probe [] targets with
    | .error error => setPhase { s with replay := prepared } i (.ended (some error))
    | .ok claimed =>
      hold { s with replay := { prepared with pending := some (tag,replay) } } i
        (.starting tag claimed replay [] targets.length)

/-- The guarded section of a removal, up to the drain. -/
def beginRemove (s : State) (i : Nat) (tag : String) (hard : Bool) : State :=
  match s.inbounds[tag]? with
  | none => setPhase s i (.ended (some (.unknownTag tag)))
  | some slot =>
    hold { s with
      inbounds := s.inbounds.erase tag
      running := if hard then stop s.running slot.handles else s.running } i (.removing tag slot)

/-- `ReleaseOnDrop`: the listeners are stopped and every key is let go. -/
def release (s : State) (slot : InboundSlot) : State :=
  { s with running := stop s.running slot.handles, bound := releaseAll s.bound slot.keys }

/-- The healthy add becomes an inbound. -/
def register (s : State) (tag : String) (claimed : List BindKey) (replay : PreparedReplay) (started : List Nat) : State :=
  { s with
    inbounds := s.inbounds.insert tag ⟨claimed,started⟩
    bound := bindAll s.bound tag claimed
    replay := { ReplayLineages.publish s.replay tag replay with
      owners := s.replay.owners ++ [.slot tag replay.lineage replay.state] } }

inductive Event
  | spawn (kind : Kind)
  /-- The first, brief look at the registry. -/
  | check (task : Nat)
  /-- The task gets the lock and runs to its next await. -/
  | acquire (task : Nat) (probe : BindKey → Option String)
  /-- The next server config of an add starts. -/
  | startListener (task : Nat)
  /-- The await of a task ends in an error: validation, resolution, a start, a reload. -/
  | fail (task : Nat) (error : EngineError)
  /-- Every listener is alive after the grace period. -/
  | healthy (task : Nat)
  /-- The stopped listeners have let go of their sockets, or an update is through. -/
  | finished (task : Nat)
  /-- The caller drops the future at an await. -/
  | drop (task : Nat)
  /-- Slots, leases and handlers come and go beside the lock. -/
  | share (owner : Nat)
  | lease (owner : Nat)
  | dropOwner (owner : Nat)

/-- The effect of an owner event on the replay registry. -/
def ownerStep (quote : String → String) (s : State) (event : ReplayLineages.Event) : Option State :=
  (ReplayLineages.step quote s.replay event).map (fun replay => { s with replay := replay })

/-- What the task awaits under the lock, if it holds it. -/
def guarded (s : State) (i : Nat) : Option Guarded :=
  match s.control with
  | some (holder,guarded) => if holder = i then some guarded else none
  | none => none

/-- A task that does not hold the lock fails or is dropped. -/
def leave (s : State) (i : Nat) (phase : Phase) : Option State := do
  let task ← s.tasks[i]?
  match task.phase with
  | .queued => some (setPhase s i phase)
  | .resolving => some (setPhase s i phase)
  | _ => none

def step (quote : String → String) (text : KeyText) (s : State) : Event → Option State
  | .spawn kind => some { s with tasks := s.tasks ++ [⟨kind,.queued⟩] }
  | .check i => do
    let task ← s.tasks[i]?
    match s.control, task.phase, task.kind with
    | none, .queued, .add tag _ _ =>
      if (s.inbounds[tag]?).isSome then some (setPhase s i (.ended (some (.duplicateTag tag))))
      else some (setPhase s i .resolving)
    | none, .queued, .update tag =>
      if (s.inbounds[tag]?).isSome then some (setPhase s i .resolving)
      else some (setPhase s i (.ended (some (.unknownTag tag))))
    | _, _, _ => none
  | .acquire i probe => do
    let task ← s.tasks[i]?
    match s.control, task.phase, task.kind with
    | none, .resolving, .add tag targets admission => some (beginAdd quote text s i tag targets admission probe)
    | none, .resolving, .update _ => some (hold s i .reloading)
    | none, .queued, .remove tag hard => some (beginRemove s i tag hard)
    | _, _, _ => none
  | .startListener i =>
    match guarded s i with
    | some (.starting tag claimed replay started (remaining + 1)) =>
      let started := started ++ [s.nextListener]
      some (hold { s with
        running := s.running ++ [s.nextListener]
        nextListener := s.nextListener + 1
        replay := { s.replay with owners := s.replay.owners ++ [.handler replay.scope] } } i
        (if remaining = 0 then .probing tag claimed replay started else .starting tag claimed replay started remaining))
    | _ => none
  | .fail i error =>
    match guarded s i with
    | some (.starting _ _ _ started _) => some (hold { s with running := stop s.running started } i (.abandoning error))
    | some (.probing _ _ _ started) => some (hold { s with running := stop s.running started } i (.abandoning error))
    | some .reloading => some (finish s i (.ended (some error)))
    | some _ => none
    | none => leave s i (.ended (some error))
  | .healthy i =>
    match guarded s i with
    | some (.probing tag claimed replay started) => some (finish (register s tag claimed replay started) i (.ended none))
    | _ => none
  | .finished i =>
    match guarded s i with
    | some (.abandoning error) => some (finish s i (.ended (some error)))
    | some .reloading => some (finish s i (.ended none))
    | some (.removing _ slot) => some (finish (release s slot) i (.ended none))
    | _ => none
  | .drop i =>
    match guarded s i with
    | some (.starting _ _ _ started _) => some (finish { s with running := stop s.running started } i .dropped)
    | some (.probing _ _ _ started) => some (finish { s with running := stop s.running started } i .dropped)
    | some (.abandoning _) => some (finish s i .dropped)
    | some .reloading => some (finish s i .dropped)
    | some (.removing _ slot) => some (finish (release s slot) i .dropped)
    | none => leave s i .dropped
  | .share owner => ownerStep quote s (.share owner)
  | .lease owner => ownerStep quote s (.lease owner)
  | .dropOwner owner => ownerStep quote s (.drop owner)

/-! ### Claims -/

theorem bindAll_at (bound : BindKey → Option String) (tag : String) (keys : List BindKey) (key : BindKey) :
    bindAll bound tag keys key = if key ∈ keys then some tag else bound key := by
  unfold bindAll
  induction keys generalizing bound with
  | nil => simp
  | cons first rest ih =>
    rw [List.foldl_cons,ih]
    by_cases later : key ∈ rest
    · simp [later]
    · by_cases same : key = first
      · simp [same]
      · simp [later,same]

theorem releaseAll_at (bound : BindKey → Option String) (keys : List BindKey) (key : BindKey) :
    releaseAll bound keys key = if key ∈ keys then none else bound key := by
  unfold releaseAll
  induction keys generalizing bound with
  | nil => simp
  | cons first rest ih =>
    rw [List.foldl_cons,ih]
    by_cases later : key ∈ rest
    · simp [later]
    · by_cases same : key = first
      · simp [same]
      · simp [later,same]

theorem claimTarget_unbound {text : KeyText} {bound : BindKey → Option String} {tag : String} {keys claimed result : List BindKey}
    (unbound : ∀ key ∈ claimed, bound key = none) (claims : claimTarget text bound tag claimed keys = .ok result) :
    ∀ key ∈ result, bound key = none := by
  induction keys generalizing claimed with
  | nil => cases claims; exact unbound
  | cons first rest ih =>
    unfold claimTarget at claims
    split at claims
    · cases claims
    next free =>
    split at claims
    · cases claims
    refine ih ?_ claims
    intro key member
    rcases List.mem_append.mp member with old | new
    · exact unbound key old
    · rw [List.mem_singleton.mp new]; exact free

/-- Every key that an add claims is free. -/
theorem claimKeys_unbound {text : KeyText} {bound : BindKey → Option String} {tag : String} {probe : BindKey → Option String}
    {targets : List BindTargets} {claimed result : List BindKey} (unbound : ∀ key ∈ claimed, bound key = none)
    (claims : claimKeys text bound tag probe claimed targets = .ok result) : ∀ key ∈ result, bound key = none := by
  induction targets generalizing claimed with
  | nil => cases claims; exact unbound
  | cons target rest ih =>
    unfold claimKeys at claims
    split at claims
    · cases claims
    next taken =>
    split at claims
    · cases claims
    exact ih (claimTarget_unbound unbound taken) claims

/-! ### The invariant -/

/-- The listeners that the holder of the lock answers for. -/
def Guarded.listeners : Guarded → List Nat
  | .starting _ _ _ started _ => started
  | .probing _ _ _ started => started
  | .removing _ slot => slot.handles
  | _ => []

/-- The tag and the keys that an add under the lock is going to register. -/
def Guarded.claim : Guarded → Option (String × List BindKey)
  | .starting tag claimed _ _ _ => some (tag,claimed)
  | .probing tag claimed _ _ => some (tag,claimed)
  | _ => none

/-- What a task of each kind may await under the lock. -/
def Guarded.fits : Guarded → Kind → Prop
  | .starting tag _ _ _ _, .add other _ _ => tag = other
  | .probing tag _ _ _, .add other _ _ => tag = other
  | .abandoning _, .add _ _ _ => True
  | .reloading, .update _ => True
  | .removing tag _, .remove other _ => tag = other
  | _, _ => False

/-- The key belongs to the registered inbound of this tag. -/
def Registered (s : State) (key : BindKey) (tag : String) : Prop :=
  ∃ slot : InboundSlot, s.inbounds[tag]? = some slot ∧ key ∈ slot.keys

/-- The key belongs to the inbound whose removal holds the control lock. -/
def Removing (s : State) (key : BindKey) (tag : String) : Prop :=
  ∃ i slot, s.control = some (i,.removing tag slot) ∧ key ∈ slot.keys

/-- Somebody who can still stop the listener answers for it. -/
def Answered (s : State) (listener : Nat) : Prop :=
  (∃ (tag : String) (slot : InboundSlot), s.inbounds[tag]? = some slot ∧ listener ∈ slot.handles) ∨
    ∃ i guarded, s.control = some (i,guarded) ∧ listener ∈ guarded.listeners

structure Inv (s : State) : Prop where
  bound : ∀ key tag, s.bound key = some tag ↔ Registered s key tag ∨ Removing s key tag
  removing : ∀ i tag slot, s.control = some (i,.removing tag slot) → s.inbounds[tag]? = none
  claim : ∀ i guarded tag claimed, s.control = some (i,guarded) → guarded.claim = some (tag,claimed) →
    s.inbounds[tag]? = none ∧ ∀ key ∈ claimed, s.bound key = none
  answered : ∀ listener ∈ s.running, Answered s listener
  holder : ∀ i guarded, s.control = some (i,guarded) →
    ∃ task, s.tasks[i]? = some task ∧ task.phase = .locked ∧ guarded.fits task.kind

theorem inv_initial (limit : Nat) : Inv (initial limit) := by
  constructor
  · intro key tag
    simp [initial,Registered,Removing]
  · intro i tag slot held; cases held
  · intro i guarded tag claimed held; cases held
  · intro listener member; cases member
  · intro i guarded held; cases held

theorem lookup_setPhase (s : State) (i j : Nat) (phase : Phase) :
    (setPhase s i phase).tasks[j]? = (s.tasks[j]?).map (fun task => if i = j then { task with phase := phase } else task) := by
  show (s.tasks.modify i _)[j]? = _
  rw [List.getElem?_modify]
  cases s.tasks[j]? with
  | none => rfl
  | some task => by_cases same : i = j <;> simp [same]

/-- A task that does not hold the lock changes its own phase. -/
theorem holder_setPhase {s : State} {i : Nat} {phase : Phase} (inv : Inv s)
    (free : ∀ guarded, s.control ≠ some (i,guarded)) (j : Nat) (guarded : Guarded)
    (held : s.control = some (j,guarded)) :
    ∃ task, (setPhase s i phase).tasks[j]? = some task ∧ task.phase = .locked ∧ guarded.fits task.kind := by
  obtain ⟨task,there,locked,fits⟩ := inv.holder j guarded held
  have apart : i ≠ j := fun same => free guarded (by rw [same]; exact held)
  refine ⟨task,?_,locked,fits⟩
  rw [lookup_setPhase,there]
  simp [apart]

/-- A change of phases and of the replay registry keeps everything else. -/
theorem inv_phase {s : State} (inv : Inv s) {i : Nat} {phase : Phase} (replay : ReplayLineages.State)
    (free : ∀ guarded, s.control ≠ some (i,guarded)) : Inv (setPhase { s with replay := replay } i phase) :=
  ⟨inv.bound,inv.removing,inv.claim,inv.answered,fun j guarded held => holder_setPhase inv free j guarded held⟩

theorem guarded_iff {s : State} {i : Nat} {awaited : Guarded} : guarded s i = some awaited ↔ s.control = some (i,awaited) := by
  unfold guarded
  cases held : s.control with
  | none => simp
  | some holding =>
    obtain ⟨j,other⟩ := holding
    by_cases same : j = i <;> simp [same]

/-- The holder of the lock turns to another await, or takes the free lock. Nothing is
    registered or released; `running` is what is left of it. -/
theorem inv_hold {s : State} (inv : Inv s) {i : Nat} {task : Task} (there : s.tasks[i]? = some task)
    (mine : ∀ j awaited, s.control = some (j,awaited) → j = i ∧ ∀ tag slot, awaited ≠ .removing tag slot)
    (replay : ReplayLineages.State) (running : List Nat) (nextListener : Nat) {awaits : Guarded} (fits : awaits.fits task.kind)
    (keeps : ∀ tag slot, awaits ≠ .removing tag slot)
    (claim : ∀ tag claimed, awaits.claim = some (tag,claimed) →
      s.inbounds[tag]? = none ∧ ∀ key ∈ claimed, s.bound key = none)
    (answered : ∀ listener ∈ running, listener ∈ awaits.listeners ∨
      ∃ (tag : String) (slot : InboundSlot), s.inbounds[tag]? = some slot ∧ listener ∈ slot.handles) :
    Inv (hold { s with replay := replay, running := running, nextListener := nextListener } i awaits) := by
  constructor
  · intro key tag
    show s.bound key = some tag ↔ _
    rw [inv.bound key tag]
    constructor
    · rintro (registered | ⟨j,slot,held,_⟩)
      · exact .inl registered
      · exact absurd rfl ((mine j _ held).2 tag slot)
    · rintro (registered | ⟨j,slot,held,_⟩)
      · exact .inl registered
      · cases held; exact absurd rfl (keeps tag slot)
  · intro j tag slot held
    cases held; exact absurd rfl (keeps tag slot)
  · intro j awaited tag claimed held claims
    cases held
    exact claim tag claimed claims
  · intro listener member
    rcases answered listener member with own | registered
    · exact .inr ⟨i,awaits,rfl,own⟩
    · exact .inl registered
  · intro j awaited held
    cases held
    refine ⟨{ task with phase := .locked },?_,rfl,fits⟩
    show (setPhase s i .locked).tasks[i]? = _
    rw [lookup_setPhase,there]
    simp

/-- The holder lets go of the lock, having stopped what only it answered for. -/
theorem inv_finish {s : State} (inv : Inv s) {i : Nat} {awaited : Guarded} (held : s.control = some (i,awaited))
    (keeps : ∀ tag slot, awaited ≠ .removing tag slot) (phase : Phase) (running : List Nat)
    (answered : ∀ listener ∈ running, ∃ (tag : String) (slot : InboundSlot), s.inbounds[tag]? = some slot ∧ listener ∈ slot.handles) :
    Inv (finish { s with running := running } i phase) := by
  constructor
  · intro key tag
    show s.bound key = some tag ↔ _
    rw [inv.bound key tag]
    constructor
    · rintro (registered | ⟨j,slot,removal,_⟩)
      · exact .inl registered
      · rw [held] at removal
        cases removal; exact absurd rfl (keeps tag slot)
    · rintro (registered | ⟨j,slot,removal,_⟩)
      · exact .inl registered
      · cases removal
  · intro j tag slot removal; cases removal
  · intro j other tag claimed removal; cases removal
  · exact fun listener member => .inl (answered listener member)
  · intro j other removal; cases removal

/-- A listener that is left after the holder's own are stopped is a registered one's. -/
theorem answered_stop {s : State} (inv : Inv s) {i : Nat} {awaited : Guarded} (held : s.control = some (i,awaited))
    {listener : Nat} (left : listener ∈ stop s.running awaited.listeners) :
    ∃ (tag : String) (slot : InboundSlot), s.inbounds[tag]? = some slot ∧ listener ∈ slot.handles := by
  obtain ⟨member,other⟩ := List.mem_filter.mp left
  rcases inv.answered listener member with registered | ⟨j,guarded,again,own⟩
  · exact registered
  · rw [held] at again
    cases again
    simp [own] at other

/-- A healthy add is registered under the keys it found free. -/
theorem inv_register {s : State} (inv : Inv s) {i : Nat} {tag : String} {claimed : List BindKey} {replay : PreparedReplay}
    {started : List Nat} (held : s.control = some (i,.probing tag claimed replay started)) :
    Inv (finish (register s tag claimed replay started) i (.ended none)) := by
  obtain ⟨absent,free⟩ := inv.claim i _ tag claimed held rfl
  have lookup (other : String) : (s.inbounds.insert tag ⟨claimed,started⟩)[other]? =
      if tag = other then some ⟨claimed,started⟩ else s.inbounds[other]? := lookup_insert _ _ _ other
  constructor
  · intro key other
    show bindAll s.bound tag claimed key = some other ↔
      (∃ slot : InboundSlot, (s.inbounds.insert tag ⟨claimed,started⟩)[other]? = some slot ∧ key ∈ slot.keys) ∨ _
    rw [bindAll_at,lookup]
    constructor
    · intro owns
      left
      split at owns
      · next member =>
        cases owns
        exact ⟨⟨claimed,started⟩,by rw [if_pos rfl],member⟩
      · rcases (inv.bound key other).mp owns with ⟨slot,there,member⟩ | ⟨j,slot,removal,_⟩
        · have apart : tag ≠ other := by
            rintro rfl
            rw [absent] at there
            cases there
          exact ⟨slot,by rw [if_neg apart]; exact there,member⟩
        · rw [held] at removal; cases removal
    · rintro (⟨slot,there,member⟩ | ⟨j,slot,removal,_⟩)
      · split at there
        · next same =>
          cases there
          rw [if_pos member,same]
        · have owns := (inv.bound key other).mpr (.inl ⟨slot,there,member⟩)
          rw [if_neg]
          · exact owns
          · intro mine
            rw [free key mine] at owns
            cases owns
      · cases removal
  · intro j other slot removal; cases removal
  · intro j guarded other keys removal; cases removal
  · intro listener member
    left
    show ∃ (other : String) (slot : InboundSlot), (s.inbounds.insert tag ⟨claimed,started⟩)[other]? = some slot ∧ _
    rcases inv.answered listener member with ⟨other,slot,there,own⟩ | ⟨j,guarded,again,own⟩
    · refine ⟨other,slot,?_,own⟩
      rw [lookup,if_neg]
      · exact there
      · rintro rfl
        rw [absent] at there
        cases there
    · rw [held] at again
      cases again
      exact ⟨tag,⟨claimed,started⟩,by rw [lookup,if_pos rfl],own⟩
  · intro j guarded removal; cases removal

/-- A removal takes its inbound out and keeps the keys until it ends. -/
theorem inv_beginRemove {s : State} (inv : Inv s) {i : Nat} {task : Task} {tag : String} {hard : Bool} (there : s.tasks[i]? = some task)
    (kind : task.kind = .remove tag hard) (free : s.control = none) : Inv (beginRemove s i tag hard) := by
  have unheld : ∀ guarded, s.control ≠ some (i,guarded) := by
    intro guarded held
    rw [free] at held
    cases held
  unfold beginRemove
  split
  · exact inv_phase inv s.replay unheld
  next slot present =>
  have lookup (other : String) : (s.inbounds.erase tag)[other]? = if tag = other then none else s.inbounds[other]? :=
    lookup_erase _ _ other
  constructor
  · intro key other
    show s.bound key = some other ↔ (∃ slot : InboundSlot, (s.inbounds.erase tag)[other]? = some slot ∧ key ∈ slot.keys) ∨
      ∃ j removed, some (i,Guarded.removing tag slot) = some (j,.removing other removed) ∧ key ∈ removed.keys
    rw [inv.bound key other,lookup]
    constructor
    · rintro (⟨found,held,member⟩ | ⟨j,removed,held,_⟩)
      · by_cases same : tag = other
        · subst same
          rw [present] at held
          cases held
          exact .inr ⟨i,slot,rfl,member⟩
        · exact .inl ⟨found,by rw [if_neg same]; exact held,member⟩
      · rw [free] at held; cases held
    · rintro (⟨found,held,member⟩ | ⟨j,removed,held,member⟩)
      · split at held
        · cases held
        · exact .inl ⟨found,held,member⟩
      · cases held
        exact .inl ⟨slot,present,member⟩
  · intro j other removed held
    cases held
    show (s.inbounds.erase tag)[tag]? = none
    rw [lookup,if_pos rfl]
  · intro j guarded other claimed held claims
    cases held
    cases claims
  · intro listener member
    have running : listener ∈ s.running := by
      change listener ∈ (if hard then stop s.running slot.handles else s.running) at member
      split at member
      · exact (List.mem_filter.mp member).1
      · exact member
    rcases inv.answered listener running with ⟨other,found,held,own⟩ | ⟨j,guarded,held,_⟩
    · by_cases same : tag = other
      · subst same
        rw [present] at held
        cases held
        exact .inr ⟨i,_,rfl,own⟩
      · refine .inl ⟨other,found,?_,own⟩
        show (s.inbounds.erase tag)[other]? = some found
        rw [lookup,if_neg same]
        exact held
    · rw [free] at held; cases held
  · intro j guarded held
    cases held
    refine ⟨{ task with phase := .locked },?_,rfl,?_⟩
    · show (setPhase s i .locked).tasks[i]? = _
      rw [lookup_setPhase,there]
      simp
    · show Guarded.fits (.removing tag slot) task.kind
      rw [kind]
      rfl

/-- However a removal ends, its keys are free and its listeners are told to stop. -/
theorem inv_release {s : State} (inv : Inv s) {i : Nat} {tag : String} {slot : InboundSlot}
    (held : s.control = some (i,.removing tag slot)) (phase : Phase) : Inv (finish (release s slot) i phase) := by
  have absent := inv.removing i tag slot held
  constructor
  · intro key other
    show releaseAll s.bound slot.keys key = some other ↔ _
    rw [releaseAll_at]
    constructor
    · intro owns
      split at owns
      · cases owns
      next kept =>
      rcases (inv.bound key other).mp owns with registered | ⟨j,removed,again,member⟩
      · exact .inl registered
      · rw [held] at again
        cases again
        exact absurd member kept
    · rintro (⟨found,there,member⟩ | ⟨j,removed,removal,_⟩)
      · have owns := (inv.bound key other).mpr (.inl ⟨found,there,member⟩)
        rw [if_neg]
        · exact owns
        · intro mine
          have removed := (inv.bound key tag).mpr (.inr ⟨i,slot,held,mine⟩)
          rw [owns,Option.some.injEq] at removed
          subst removed
          change s.inbounds[other]? = some found at there
          rw [absent] at there
          cases there
      · cases removal
  · intro j other removed removal; cases removal
  · intro j guarded other claimed removal; cases removal
  · intro listener member
    exact .inl (answered_stop inv held member)
  · intro j guarded removal; cases removal

theorem inv_beginAdd {quote : String → String} {text : KeyText} {s : State} (inv : Inv s) {i : Nat} {task : Task} {tag : String}
    {targets : List BindTargets} {admission : Admission} (there : s.tasks[i]? = some task)
    (kind : task.kind = .add tag targets admission) (free : s.control = none) (probe : BindKey → Option String) :
    Inv (beginAdd quote text s i tag targets admission probe) := by
  have unheld : ∀ guarded, s.control ≠ some (i,guarded) := by
    intro guarded held
    rw [free] at held
    cases held
  unfold beginAdd
  split
  · exact inv_phase inv s.replay unheld
  next absent =>
  split
  · exact inv_phase inv _ unheld
  split
  · exact inv_phase inv _ unheld
  next claims =>
  refine inv_hold inv there ?_ _ s.running s.nextListener ?_ ?_ ?_ ?_
  · intro j awaited held
    rw [free] at held
    cases held
  · rw [kind]; rfl
  · intro other slot same; cases same
  · intro other keys claim
    cases claim
    exact ⟨by simpa using absent,claimKeys_unbound (by simp) claims⟩
  · intro listener member
    rcases inv.answered listener member with registered | ⟨j,guarded,held,_⟩
    · exact .inr registered
    · rw [free] at held; cases held

/-- The holder of an add's await goes on to another one. -/
theorem inv_advance {s : State} (inv : Inv s) {i : Nat} {awaited : Guarded} (held : s.control = some (i,awaited))
    (keeps : ∀ tag slot, awaited ≠ .removing tag slot) (replay : ReplayLineages.State) (running : List Nat) (nextListener : Nat)
    {awaits : Guarded} (fits : ∀ kind, awaited.fits kind → awaits.fits kind) (keeps' : ∀ tag slot, awaits ≠ .removing tag slot)
    (claim : ∀ tag claimed, awaits.claim = some (tag,claimed) → awaited.claim = some (tag,claimed))
    (answered : ∀ listener ∈ running, listener ∈ awaits.listeners ∨
      ∃ (tag : String) (slot : InboundSlot), s.inbounds[tag]? = some slot ∧ listener ∈ slot.handles) :
    Inv (hold { s with replay := replay, running := running, nextListener := nextListener } i awaits) := by
  obtain ⟨task,there,_,fitting⟩ := inv.holder i awaited held
  refine inv_hold inv there ?_ replay running nextListener (fits _ fitting) keeps' ?_ answered
  · intro j other again
    rw [held] at again
    cases again
    exact ⟨rfl,keeps⟩
  · intro tag claimed claims
    exact inv.claim i awaited tag claimed held (claim tag claimed claims)

theorem inv_leave {s s' : State} (inv : Inv s) {i : Nat} {phase : Phase} (free : guarded s i = none)
    (left : leave s i phase = some s') : Inv s' := by
  have unheld : ∀ awaited, s.control ≠ some (i,awaited) := by
    intro awaited held
    rw [guarded_iff.mpr held] at free
    cases free
  obtain ⟨task,_,left⟩ := Option.bind_eq_some_iff.mp left
  split at left
  · cases left; exact inv_phase inv s.replay unheld
  · cases left; exact inv_phase inv s.replay unheld
  · cases left

theorem inv_step {quote : String → String} {text : KeyText} {s s' : State} {event : Event} (inv : Inv s)
    (taken : step quote text s event = some s') : Inv s' := by
  have stopped {i : Nat} {awaited : Guarded} (held : s.control = some (i,awaited)) (awaits : Guarded) :
      ∀ listener ∈ stop s.running awaited.listeners, listener ∈ awaits.listeners ∨
        ∃ (tag : String) (slot : InboundSlot), s.inbounds[tag]? = some slot ∧ listener ∈ slot.handles :=
    fun _ left => .inr (answered_stop inv held left)
  -- An await with no listeners of its own: every running listener is a registered one's.
  have quiet {i : Nat} {awaited : Guarded} (held : s.control = some (i,awaited)) (none_own : awaited.listeners = []) :
      ∀ listener ∈ s.running, ∃ (tag : String) (slot : InboundSlot), s.inbounds[tag]? = some slot ∧ listener ∈ slot.handles := by
    intro listener member
    refine answered_stop inv held ?_
    rw [none_own]
    exact List.mem_filter.mpr ⟨member,by simp⟩
  cases event with
  | spawn kind =>
    cases taken
    refine ⟨inv.bound,inv.removing,inv.claim,inv.answered,?_⟩
    intro i awaited held
    obtain ⟨task,there,rest⟩ := inv.holder i awaited held
    exact ⟨task,(List.getElem?_append_left (List.getElem?_eq_some_iff.mp there).1).trans there,rest⟩
  | check i =>
    obtain ⟨task,there,taken⟩ := Option.bind_eq_some_iff.mp taken
    split at taken
    · next free _ _ =>
      have unheld : ∀ awaited, s.control ≠ some (i,awaited) := by
        intro awaited held
        rw [free] at held
        cases held
      split at taken <;> cases taken <;> exact inv_phase inv s.replay unheld
    · next free _ _ =>
      have unheld : ∀ awaited, s.control ≠ some (i,awaited) := by
        intro awaited held
        rw [free] at held
        cases held
      split at taken <;> cases taken <;> exact inv_phase inv s.replay unheld
    · cases taken
  | acquire i probe =>
    obtain ⟨task,there,taken⟩ := Option.bind_eq_some_iff.mp taken
    split at taken
    · next free _ kind => cases taken; exact inv_beginAdd inv there kind free probe
    · next free _ kind =>
      cases taken
      refine inv_hold inv there ?_ s.replay s.running s.nextListener ?_ ?_ ?_ ?_
      · intro j awaited held
        rw [free] at held
        cases held
      · rw [kind]; trivial
      · intro tag slot same; cases same
      · intro tag claimed claim; cases claim
      · intro listener member
        rcases inv.answered listener member with registered | ⟨j,guarded,held,_⟩
        · exact .inr registered
        · rw [free] at held; cases held
    · next free _ kind => cases taken; exact inv_beginRemove inv there kind free
    · cases taken
  | startListener i =>
    simp only [step] at taken
    split at taken
    · next tag claimed replay started remaining awaiting =>
      cases taken
      have held := guarded_iff.mp awaiting
      refine inv_advance inv held (by intro tag slot same; cases same) _ _ _ ?_ ?_ ?_ ?_
      · intro kind fits
        split <;> cases kind <;> exact fits
      · intro other slot same
        split at same <;> cases same
      · intro other keys claim
        split at claim <;> exact claim
      · have own : (if remaining = 0 then Guarded.probing tag claimed replay (started ++ [s.nextListener])
            else .starting tag claimed replay (started ++ [s.nextListener]) remaining).listeners = started ++ [s.nextListener] := by
          split <;> rfl
        intro listener member
        rw [own]
        rcases List.mem_append.mp member with old | new
        · rcases inv.answered listener old with registered | ⟨j,guarded,again,mine⟩
          · exact .inr registered
          · rw [held] at again
            cases again
            exact .inl (List.mem_append_left _ mine)
        · exact .inl (List.mem_append_right _ new)
    · cases taken
  | fail i error =>
    simp only [step] at taken
    split at taken
    · next awaiting =>
      cases taken
      have held := guarded_iff.mp awaiting
      exact inv_advance inv held (by intro tag slot same; cases same) s.replay _ s.nextListener
        (fun kind fits => by cases kind <;> trivial) (by intro tag slot same; cases same)
        (by intro tag claimed claim; cases claim) (stopped held (.abandoning error))
    · next awaiting =>
      cases taken
      have held := guarded_iff.mp awaiting
      exact inv_advance inv held (by intro tag slot same; cases same) s.replay _ s.nextListener
        (fun kind fits => by cases kind <;> trivial) (by intro tag slot same; cases same)
        (by intro tag claimed claim; cases claim) (stopped held (.abandoning error))
    · next awaiting =>
      cases taken
      have held := guarded_iff.mp awaiting
      exact inv_finish inv held (by intro tag slot same; cases same) _ s.running (quiet held rfl)
    · cases taken
    · next free => exact inv_leave inv free taken
  | healthy i =>
    simp only [step] at taken
    split at taken
    · next awaiting => cases taken; exact inv_register inv (guarded_iff.mp awaiting)
    · cases taken
  | finished i =>
    simp only [step] at taken
    split at taken
    · next awaiting =>
      cases taken
      have held := guarded_iff.mp awaiting
      exact inv_finish inv held (by intro tag slot same; cases same) _ s.running (quiet held rfl)
    · next awaiting =>
      cases taken
      have held := guarded_iff.mp awaiting
      exact inv_finish inv held (by intro tag slot same; cases same) _ s.running (quiet held rfl)
    · next awaiting => cases taken; exact inv_release inv (guarded_iff.mp awaiting) _
    · cases taken
  | drop i =>
    simp only [step] at taken
    split at taken
    · next awaiting =>
      cases taken
      have held := guarded_iff.mp awaiting
      exact inv_finish inv held (by intro tag slot same; cases same) _ _ (fun _ left => answered_stop inv held left)
    · next awaiting =>
      cases taken
      have held := guarded_iff.mp awaiting
      exact inv_finish inv held (by intro tag slot same; cases same) _ _ (fun _ left => answered_stop inv held left)
    · next awaiting =>
      cases taken
      have held := guarded_iff.mp awaiting
      exact inv_finish inv held (by intro tag slot same; cases same) _ s.running (quiet held rfl)
    · next awaiting =>
      cases taken
      have held := guarded_iff.mp awaiting
      exact inv_finish inv held (by intro tag slot same; cases same) _ s.running (quiet held rfl)
    · next awaiting => cases taken; exact inv_release inv (guarded_iff.mp awaiting) _
    · next free => exact inv_leave inv free taken
  | share owner | lease owner | dropOwner owner =>
    obtain ⟨replay,_,rfl⟩ := Option.map_eq_some_iff.mp taken
    exact ⟨inv.bound,inv.removing,inv.claim,inv.answered,inv.holder⟩

/-! ### Failed and dropped tasks -/

/-- The task that an event belongs to. -/
def Event.task : Event → Option Nat
  | .check i => some i
  | .acquire i _ => some i
  | .startListener i => some i
  | .fail i _ => some i
  | .healthy i => some i
  | .finished i => some i
  | .drop i => some i
  | _ => none

def Kind.isAdd : Kind → Bool
  | .add _ _ _ => true
  | _ => false

/-- An add would take this lease. -/
def Admits (quote : String → String) (s : State) (tag : String) (lineage state : Nat) : Prop :=
  ∃ admitted, ReplayLineages.prepare quote s.replay tag (.preserved state lineage) = .ok admitted

/-- The registered inbounds, the claimed keys, and which of the leases in hand the
    engine admits. -/
structure Unchanged (quote : String → String) (s s' : State) : Prop where
  inbounds : s'.inbounds = s.inbounds
  bound : s'.bound = s.bound
  authorities : ∀ tag lineage state, .lease tag lineage state ∈ s.replay.owners →
    (Admits quote s' tag lineage state ↔ Admits quote s tag lineage state)

theorem unchanged_of_entries {quote : String → String} {s s' : State} (inbounds : s'.inbounds = s.inbounds)
    (bound : s'.bound = s.bound) (owners : ∀ owner ∈ s.replay.owners, owner ∈ s'.replay.owners)
    (entries : s'.replay.entries = s.replay.entries) : Unchanged quote s s' := by
  refine ⟨inbounds,bound,?_⟩
  intro tag lineage state leased
  unfold Admits
  rw [ReplayLineages.prepare_preserved_iff leased,ReplayLineages.prepare_preserved_iff (owners _ leased),entries]

/-- The start of an add prunes the replay registry, which no lease in hand can see. -/
theorem unchanged_of_prune {quote : String → String} {s s' : State} (inbounds : s'.inbounds = s.inbounds)
    (bound : s'.bound = s.bound) (owners : s'.replay.owners = s.replay.owners)
    (entries : s'.replay.entries = (ReplayLineages.prune s.replay).entries) : Unchanged quote s s' := by
  refine ⟨inbounds,bound,?_⟩
  intro tag lineage state leased
  have leased' : .lease tag lineage state ∈ s'.replay.owners := by rw [owners]; exact leased
  unfold Admits
  rw [ReplayLineages.prepare_preserved_iff leased,ReplayLineages.prepare_preserved_iff leased',entries]
  exact ReplayLineages.prune_keeps_leased leased

theorem unchanged_beginAdd (quote : String → String) (text : KeyText) (s : State) (i : Nat) (tag : String)
    (targets : List BindTargets) (admission : Admission) (probe : BindKey → Option String) :
    Unchanged quote s (beginAdd quote text s i tag targets admission probe) := by
  unfold beginAdd
  split
  · exact unchanged_of_entries rfl rfl (fun _ member => member) rfl
  split
  · exact unchanged_of_prune rfl rfl rfl rfl
  next prepared =>
  obtain ⟨entries,owners,_⟩ := ReplayLineages.prepare_keeps prepared
  split
  · exact unchanged_of_prune rfl rfl owners entries
  · exact unchanged_of_prune rfl rfl owners entries

theorem unchanged_leave {quote : String → String} {s s' : State} {i : Nat} {phase : Phase} (left : leave s i phase = some s') :
    Unchanged quote s s' := by
  obtain ⟨task,_,left⟩ := Option.bind_eq_some_iff.mp left
  split at left
  · cases left; exact unchanged_of_entries rfl rfl (fun _ member => member) rfl
  · cases left; exact unchanged_of_entries rfl rfl (fun _ member => member) rfl
  · cases left

/-- Until an add is healthy, none of its steps can be seen. -/
theorem add_step_unchanged {quote : String → String} {text : KeyText} {s s' : State} {event : Event} (inv : Inv s)
    {i : Nat} {task : Task} (mine : event.task = some i) (there : s.tasks[i]? = some task) (add : task.kind.isAdd = true)
    (unhealthy : event ≠ .healthy i) (taken : step quote text s event = some s') : Unchanged quote s s' := by
  have same {phase : Phase} : Unchanged quote s (setPhase s i phase) :=
    unchanged_of_entries rfl rfl (fun _ member => member) rfl
  -- What an add can await.
  have fits {awaited : Guarded} (awaiting : guarded s i = some awaited) : awaited.fits task.kind := by
    obtain ⟨other,again,_,fitting⟩ := inv.holder i awaited (guarded_iff.mp awaiting)
    rw [there] at again
    cases again
    exact fitting
  have kinds : ∃ tag targets admission, task.kind = .add tag targets admission := by
    cases shape : task.kind with
    | add tag targets admission => exact ⟨tag,targets,admission,rfl⟩
    | update | remove => rw [shape] at add; cases add
  obtain ⟨tag,targets,admission,kind⟩ := kinds
  rw [kind] at fits
  cases event with
  | check j =>
    cases mine
    obtain ⟨other,again,taken⟩ := Option.bind_eq_some_iff.mp taken
    split at taken
    · split at taken <;> cases taken <;> exact same
    · split at taken <;> cases taken <;> exact same
    · cases taken
  | acquire j probe =>
    cases mine
    obtain ⟨other,again,taken⟩ := Option.bind_eq_some_iff.mp taken
    rw [there] at again
    cases again
    split at taken
    · cases taken; exact unchanged_beginAdd quote text s i _ _ _ probe
    · next other => rw [kind] at other; cases other
    · next other => rw [kind] at other; cases other
    · cases taken
  | startListener j =>
    cases mine
    simp only [step] at taken
    split at taken
    · cases taken
      exact unchanged_of_entries rfl rfl (fun _ member => List.mem_append_left _ member) rfl
    · cases taken
  | fail j error =>
    cases mine
    simp only [step] at taken
    split at taken
    · cases taken; exact unchanged_of_entries rfl rfl (fun _ member => member) rfl
    · cases taken; exact unchanged_of_entries rfl rfl (fun _ member => member) rfl
    · next awaiting => exact (fits awaiting).elim
    · cases taken
    · exact unchanged_leave taken
  | healthy j => cases mine; exact absurd rfl unhealthy
  | finished j =>
    cases mine
    simp only [step] at taken
    split at taken
    · cases taken; exact unchanged_of_entries rfl rfl (fun _ member => member) rfl
    · next awaiting => exact (fits awaiting).elim
    · next awaiting => exact (fits awaiting).elim
    · cases taken
  | drop j =>
    cases mine
    simp only [step] at taken
    split at taken
    · cases taken; exact unchanged_of_entries rfl rfl (fun _ member => member) rfl
    · cases taken; exact unchanged_of_entries rfl rfl (fun _ member => member) rfl
    · cases taken; exact unchanged_of_entries rfl rfl (fun _ member => member) rfl
    · next awaiting => exact (fits awaiting).elim
    · next awaiting => exact (fits awaiting).elim
    · exact unchanged_leave taken
  | spawn | share | lease | dropOwner => cases mine

/-- The phase of a task. -/
def phaseOf (s : State) (i : Nat) : Option Phase := (s.tasks[i]?).map Task.phase

/-- The task has returned an error or was dropped. -/
def Failed (s : State) (i : Nat) : Prop := (∃ error, phaseOf s i = some (.ended (some error))) ∨ phaseOf s i = some .dropped

theorem phaseOf_setPhase (s : State) (i j : Nat) (phase : Phase) :
    phaseOf (setPhase s i phase) j = if i = j then (phaseOf s j).map (fun _ => phase) else phaseOf s j := by
  unfold phaseOf
  rw [lookup_setPhase]
  cases s.tasks[j]? with
  | none => simp
  | some task => by_cases same : i = j <;> simp [same]

/-- A task that is over stays as it is: every event of a task finds it queued, resolving
    or holding the lock. -/
theorem ended_step {quote : String → String} {text : KeyText} {s s' : State} {event : Event} (inv : Inv s) {i : Nat}
    {result : Option EngineError} (ended : phaseOf s i = some (.ended result)) (taken : step quote text s event = some s') :
    phaseOf s' i = some (.ended result) := by
  have awake {j : Nat} {awaited : Guarded} (awaiting : guarded s j = some awaited) : j ≠ i := by
    rintro rfl
    obtain ⟨task,there,locked,_⟩ := inv.holder j awaited (guarded_iff.mp awaiting)
    rw [phaseOf,there,Option.map_some,locked] at ended
    cases ended
  have early {j : Nat} {task : Task} (there : s.tasks[j]? = some task) (phase : task.phase = .queued ∨ task.phase = .resolving) :
      j ≠ i := by
    rintro rfl
    rw [phaseOf,there,Option.map_some] at ended
    rcases phase with queued | resolving
    · rw [queued] at ended; cases ended
    · rw [resolving] at ended; cases ended
  have other {t : State} {j : Nat} {phase : Phase} (tasks : t.tasks = s.tasks) (apart : j ≠ i) :
      phaseOf (setPhase t j phase) i = some (.ended result) := by
    rw [phaseOf_setPhase,if_neg apart]
    unfold phaseOf at ended ⊢
    rw [tasks]
    exact ended
  have left {j : Nat} {phase : Phase} (leaves : leave s j phase = some s') : phaseOf s' i = some (.ended result) := by
    obtain ⟨task,there,leaves⟩ := Option.bind_eq_some_iff.mp leaves
    split at leaves
    · next queued => cases leaves; exact other rfl (early there (.inl queued))
    · next resolving => cases leaves; exact other rfl (early there (.inr resolving))
    · cases leaves
  cases event with
  | spawn kind =>
    cases taken
    obtain ⟨task,there,same⟩ := Option.map_eq_some_iff.mp ended
    show ((s.tasks ++ [⟨kind,.queued⟩])[i]?).map Task.phase = _
    rw [List.getElem?_append_left (List.getElem?_eq_some_iff.mp there).1,there,Option.map_some,same]
  | check j =>
    obtain ⟨task,there,taken⟩ := Option.bind_eq_some_iff.mp taken
    split at taken
    · next queued _ => split at taken <;> cases taken <;> exact other rfl (early there (.inl queued))
    · next queued _ => split at taken <;> cases taken <;> exact other rfl (early there (.inl queued))
    · cases taken
  | acquire j probe =>
    obtain ⟨task,there,taken⟩ := Option.bind_eq_some_iff.mp taken
    split at taken
    · next resolving _ =>
      cases taken
      have apart := early there (.inr resolving)
      unfold beginAdd
      split
      · exact other rfl apart
      split
      · exact other rfl apart
      split
      · exact other rfl apart
      · exact @other _ j .locked rfl apart
    · next resolving _ => cases taken; exact @other s j .locked rfl (early there (.inr resolving))
    · next queued _ =>
      cases taken
      have apart := early there (.inl queued)
      unfold beginRemove
      split
      · exact other rfl apart
      · exact @other _ j .locked rfl apart
    · cases taken
  | startListener j =>
    simp only [step] at taken
    split at taken
    · next awaiting => cases taken; exact @other _ j .locked rfl (awake awaiting)
    · cases taken
  | fail j error =>
    simp only [step] at taken
    split at taken
    · next awaiting => cases taken; exact @other _ j .locked rfl (awake awaiting)
    · next awaiting => cases taken; exact @other _ j .locked rfl (awake awaiting)
    · next awaiting => cases taken; exact @other _ j (.ended _) rfl (awake awaiting)
    · cases taken
    · exact left taken
  | healthy j =>
    simp only [step] at taken
    split at taken
    · next awaiting => cases taken; exact @other _ j (.ended _) rfl (awake awaiting)
    · cases taken
  | finished j =>
    simp only [step] at taken
    split at taken
    · next awaiting => cases taken; exact @other _ j (.ended _) rfl (awake awaiting)
    · next awaiting => cases taken; exact @other _ j (.ended _) rfl (awake awaiting)
    · next awaiting => cases taken; exact @other _ j (.ended _) rfl (awake awaiting)
    · cases taken
  | drop j =>
    simp only [step] at taken
    split at taken
    · next awaiting => cases taken; exact @other _ j .dropped rfl (awake awaiting)
    · next awaiting => cases taken; exact @other _ j .dropped rfl (awake awaiting)
    · next awaiting => cases taken; exact @other _ j .dropped rfl (awake awaiting)
    · next awaiting => cases taken; exact @other _ j .dropped rfl (awake awaiting)
    · next awaiting => cases taken; exact @other _ j .dropped rfl (awake awaiting)
    · exact left taken
  | share owner | lease owner | dropOwner owner =>
    obtain ⟨replay,_,rfl⟩ := Option.map_eq_some_iff.mp taken
    exact ended

/-- A registration ends its add without an error. -/
theorem healthy_ends {quote : String → String} {text : KeyText} {s s' : State} {i : Nat} (inv : Inv s)
    (taken : step quote text s (.healthy i) = some s') : phaseOf s' i = some (.ended none) := by
  simp only [step] at taken
  split at taken
  · next tag claimed replay started awaiting =>
    cases taken
    obtain ⟨task,there,_⟩ := inv.holder i _ (guarded_iff.mp awaiting)
    show phaseOf (setPhase (register s tag claimed replay started) i (.ended none)) i = _
    have phase : phaseOf (register s tag claimed replay started) i = some task.phase := by
      show (s.tasks[i]?).map Task.phase = _
      rw [there]
      rfl
    rw [phaseOf_setPhase,if_pos rfl,phase]
    rfl
  · cases taken

/-- The listeners that an add under the lock has started are told to stop when it fails
    or is dropped. -/
theorem failure_stops {quote : String → String} {text : KeyText} {s s' : State} {event : Event} {i : Nat} {awaited : Guarded}
    (awaiting : guarded s i = some awaited) (ends : event = .drop i ∨ ∃ error, event = .fail i error)
    (taken : step quote text s event = some s') : ∀ listener ∈ awaited.listeners, listener ∉ s'.running := by
  have gone (handles : List Nat) : ∀ listener ∈ handles, listener ∉ stop s.running handles := by
    intro listener own left
    have other := (List.mem_filter.mp left).2
    simp [own] at other
  rcases ends with rfl | ⟨error,rfl⟩
  · simp only [step,awaiting] at taken
    cases awaited with
    | starting | probing => cases taken; exact gone _
    | abandoning | reloading => intro listener own; cases own
    | removing => cases taken; exact gone _
  · simp only [step,awaiting] at taken
    cases awaited with
    | starting | probing => cases taken; exact gone _
    | abandoning | reloading => intro listener own; cases own
    | removing => cases taken

/-- Whichever way a removal ends, none of its keys stays claimed. -/
theorem removal_releases {quote : String → String} {text : KeyText} {s s' : State} {event : Event} {i : Nat} {tag : String}
    {slot : InboundSlot} (held : s.control = some (i,.removing tag slot)) (mine : event.task = some i)
    (taken : step quote text s event = some s') : s'.control = none ∧ ∀ key ∈ slot.keys, s'.bound key = none := by
  have awaiting : guarded s i = some (.removing tag slot) := guarded_iff.mpr held
  have free (phase : Phase) : (finish (release s slot) i phase).control = none ∧
      ∀ key ∈ slot.keys, (finish (release s slot) i phase).bound key = none := by
    refine ⟨rfl,fun key member => ?_⟩
    show releaseAll s.bound slot.keys key = none
    rw [releaseAll_at,if_pos member]
  cases event with
  | check j | acquire j =>
    cases mine
    obtain ⟨task,_,taken⟩ := Option.bind_eq_some_iff.mp taken
    rw [held] at taken
    cases taken
  | startListener j | fail j | healthy j =>
    cases mine
    simp only [step,awaiting] at taken
    cases taken
  | finished j | drop j =>
    cases mine
    simp only [step,awaiting] at taken
    cases taken
    exact free _
  | spawn | share | lease | dropOwner => cases mine

/-- In every interleaving: registered inbounds share no key; `bound` is exactly their
    keys and those of the inbound whose removal holds the control lock; every running
    listener is one that a registered inbound or the lock holder can stop. The steps of
    an add before it is healthy change nothing that can be seen, a failed or dropped add
    never was healthy, and its listeners are stopped. A removal under the lock takes one
    more step, and none of its keys is claimed after it. -/
theorem addresses_owned (quote : String → String) (text : KeyText) (limit : Nat) {events : List Event} {s : State}
    (run : Run (step quote text) (initial limit) events s) :
    (∀ (tag other : String) (slot slot' : InboundSlot) (key : BindKey), s.inbounds[tag]? = some slot →
      s.inbounds[other]? = some slot' → key ∈ slot.keys → key ∈ slot'.keys → tag = other) ∧
    (∀ key tag, s.bound key = some tag ↔ Registered s key tag ∨ Removing s key tag) ∧
    (∀ listener ∈ s.running, Answered s listener) ∧
    (∀ i, Failed s i → .healthy i ∉ events) ∧
    (∀ i task event s', event.task = some i → s.tasks[i]? = some task → task.kind.isAdd = true → event ≠ .healthy i →
      step quote text s event = some s' → Unchanged quote s s') ∧
    (∀ i awaited event s', guarded s i = some awaited → (event = .drop i ∨ ∃ error, event = .fail i error) →
      step quote text s event = some s' → ∀ listener ∈ awaited.listeners, listener ∉ s'.running) ∧
    (∀ i tag slot event s', s.control = some (i,.removing tag slot) → event.task = some i →
      step quote text s event = some s' → s'.control = none ∧ ∀ key ∈ slot.keys, s'.bound key = none) := by
  have inv : Inv s := run.invariant (inv_initial limit) (fun _ _ _ before taken => inv_step before taken)
  have registered : Inv s ∧ ∀ i, .healthy i ∈ events → phaseOf s i = some (.ended none) := by
    refine run.keeps (I := fun events s => Inv s ∧ ∀ i, .healthy i ∈ events → phaseOf s i = some (.ended none))
      (fun _ => True) ⟨inv_initial limit,by simp⟩ ?_ (fun _ _ => trivial)
    rintro events s event s' ⟨before,known⟩ _ taken
    refine ⟨inv_step before taken,?_⟩
    intro i member
    rcases List.mem_append.mp member with old | new
    · exact ended_step before (known i old) taken
    · rw [← List.mem_singleton.mp new] at taken
      exact healthy_ends before taken
  refine ⟨?_,inv.bound,inv.answered,?_,?_,?_,?_⟩
  · intro tag other slot slot' key first second inFirst inSecond
    have owns := (inv.bound key tag).mpr (.inl ⟨slot,first,inFirst⟩)
    have owns' := (inv.bound key other).mpr (.inl ⟨slot',second,inSecond⟩)
    rw [owns,Option.some.injEq] at owns'
    exact owns'
  · intro i failed member
    have ended := registered.2 i member
    rcases failed with ⟨error,phase⟩ | phase
    · rw [ended] at phase; cases phase
    · rw [ended] at phase; cases phase
  · intro i task event s' mine there add unhealthy taken
    exact add_step_unchanged inv mine there add unhealthy taken
  · intro i awaited event s' awaiting ends taken
    exact failure_stops awaiting ends taken
  · intro i tag slot event s' held mine taken
    exact removal_releases held mine taken

/-- A port on the local host. -/
def localPort : BindKey := .socket (.v4 2130706433 443) .tcp

/-- The address and the owner that an add was refused for. -/
def refusedAddress : Option Phase → Option (String × String)
  | some (.ended (some (.addressInUse address owner))) => some (address,owner)
  | _ => none

/-- An inbound that is added on one port, and another add of the same port that fails. -/
theorem addresses_owned_one_port : ∃ s, Run (step ReplayLineages.plainQuote (fun _ => "127.0.0.1:443/tcp")) (initial 4)
    [.spawn (.add "in" [.addresses [.v4 2130706433 443] .tcp] .fresh),.check 0,.acquire 0 (fun _ => none),
      .startListener 0,.healthy 0,.spawn (.add "out" [.addresses [.v4 2130706433 443] .tcp] .fresh),.check 1,
      .acquire 1 (fun _ => none)] s ∧
    s.bound localPort = some "in" ∧ Registered s localPort "in" ∧
    phaseOf s 1 = some (.ended (some (.addressInUse "127.0.0.1:443/tcp" "in"))) := by
  have followed : ((follow (step ReplayLineages.plainQuote (fun _ => "127.0.0.1:443/tcp")) (initial 4)
      [.spawn (.add "in" [.addresses [.v4 2130706433 443] .tcp] .fresh),.check 0,.acquire 0 (fun _ => none),
        .startListener 0,.healthy 0,.spawn (.add "out" [.addresses [.v4 2130706433 443] .tcp] .fresh),.check 1,
        .acquire 1 (fun _ => none)]).map
      (fun s => (s.bound localPort,s.control.isNone,refusedAddress (phaseOf s 1)))) =
      some (some "in",true,some ("127.0.0.1:443/tcp","in")) := by decide +kernel
  obtain ⟨s,reached,facts⟩ := Option.map_eq_some_iff.mp followed
  simp only [Prod.mk.injEq] at facts
  obtain ⟨owned,idle,ended⟩ := facts
  have run := Run.of_follow reached
  have bound := (addresses_owned _ _ 4 run).2.1
  refine ⟨s,run,owned,?_,?_⟩
  · rcases (bound localPort "in").mp owned with registered | ⟨i,slot,held,_⟩
    · exact registered
    · rw [held] at idle; cases idle
  · unfold refusedAddress at ended
    split at ended
    · next phase => cases ended; exact phase
    · cases ended

end NodeAgent.AddressOwnership
