import NodeAgent.ControlAcks

/-!
Idempotent execution of control commands. Lanes of all sessions share the store; a lane that
executes a command owns the gate of its key, so no two executions of one key overlap, and the
key of an applied command stays cached until as many other keys as the store has room for have
been cached after it.
-/
namespace NodeAgent.Control
open NodeAgent.Topology NodeAgent.FifoCache NodeAgent.KeyedGates NodeAgent.Transition

variable {sc : Sections}

/-! ### Gates -/

/-- How a lane uses its gate. -/
def LanePhase.stage : LanePhase sc → Stage
  | .waiting _ gate => .holds gate
  | .ready _ gate => gate.elim .out .owns
  | .executing _ gate => gate.elim .out .owns
  | .completing _ gate _ => gate.elim .out .owns
  | .unlocking gate _ => .owns gate
  | .releasing gate _ => .holds gate
  | _ => .out

/-- A command with a key has a gate of that key. -/
def Gated (gates : Gates String LaneId) (delivery : Delivery sc) (gate : Option Nat) : Prop :=
  delivery.key ≠ "" → ∃ g, gate = some g ∧ gates.keyOf g = some delivery.key

def LanePhase.Fits (gates : Gates String LaneId) : LanePhase sc → Prop
  | .waiting delivery gate => gates.keyOf gate = some delivery.key
  | .ready delivery gate => Gated gates delivery gate
  | .executing delivery gate => Gated gates delivery gate
  | .completing delivery gate _ => Gated gates delivery gate
  | _ => True

/-- A key is not cached while a command with it is executed. -/
def LanePhase.Fresh (cache : Cache String Ack) : LanePhase sc → Prop
  | .executing delivery _ => delivery.key ≠ "" → cache.seen[delivery.key]? = none
  | .completing delivery _ _ => delivery.key ≠ "" → cache.seen[delivery.key]? = none
  | _ => True

structure Exclusive (store : AckStore LaneId) (phases : LaneId → LanePhase sc) : Prop where
  gates : KeyedGates.Sound store.gates (fun l => (phases l).stage)
  fits : ∀ l, (phases l).Fits store.gates
  cache : FifoCache.Sound store.capacity store.cache
  fresh : ∀ l, (phases l).Fresh store.cache

theorem dropExecution_stage (gate : Option Nat) (next : Next sc) : (dropExecution gate next).stage = gate.elim .out .owns := by
  cases gate <;> cases next <;> rfl

theorem dropExecution_fits (gates : Gates String LaneId) (gate : Option Nat) (next : Next sc) : (dropExecution gate next).Fits gates := by
  cases gate <;> cases next <;> trivial

theorem dropExecution_fresh (cache : Cache String Ack) (gate : Option Nat) (next : Next sc) : (dropExecution gate next).Fresh cache := by
  cases gate <;> cases next <;> trivial

section Exclusive
variable {store : AckStore LaneId} {phases : LaneId → LanePhase sc} {l l' : LaneId} {phase : LanePhase sc}

theorem LanePhase.Fits.mono {gates gates' : Gates String LaneId} (fits : phase.Fits gates)
    (keys : ∀ g k, gates.keyOf g = some k → gates'.keyOf g = some k) : phase.Fits gates' := by
  have gated {delivery : Delivery sc} {gate : Option Nat} (held : Gated gates delivery gate) : Gated gates' delivery gate := by
    intro nonempty
    obtain ⟨g,rfl,key⟩ := held nonempty
    exact ⟨g,rfl,keys g _ key⟩
  cases phase with
  | waiting delivery gate => exact keys _ _ fits
  | ready delivery gate => exact gated fits
  | executing delivery gate => exact gated fits
  | completing delivery gate result => exact gated fits
  | _ => trivial

theorem stages_update (phases : LaneId → LanePhase sc) (l : LaneId) (phase : LanePhase sc) :
    (fun x => (Function.update phases l phase x).stage) = Function.update (fun x => (phases x).stage) l phase.stage := by
  funext x
  by_cases here : x = l
  · subst here
    simp
  · simp [here]

/-- A lane goes on, and the gates with it. -/
theorem Exclusive.moved (held : Exclusive store phases) (gates' : Gates String LaneId)
    (sound : KeyedGates.Sound gates' (Function.update (fun x => (phases x).stage) l phase.stage))
    (keys : ∀ g k, store.gates.keyOf g = some k → gates'.keyOf g = some k) (fits : phase.Fits gates')
    (fresh : phase.Fresh store.cache) : Exclusive { store with gates := gates' } (Function.update phases l phase) := by
  refine ⟨?_,?_,held.cache,?_⟩
  · rw [stages_update]
    exact sound
  · intro x
    by_cases here : x = l
    · subst here
      rw [Function.update_self]
      exact fits
    · rw [Function.update_of_ne here]
      exact (held.fits x).mono keys
  · intro x
    by_cases here : x = l
    · subst here
      rw [Function.update_self]
      exact fresh
    · rw [Function.update_of_ne here]
      exact held.fresh x

/-- A lane goes on and uses its gate as before. -/
theorem Exclusive.stays (held : Exclusive store phases) (same : phase.stage = (phases l).stage) (fits : phase.Fits store.gates)
    (fresh : phase.Fresh store.cache) : Exclusive store (Function.update phases l phase) := by
  refine held.moved store.gates ?_ (fun _ _ key => key) fits fresh
  have unchanged : Function.update (fun x => (phases x).stage) l phase.stage = fun x => (phases x).stage := by
    rw [same]
    exact Function.update_eq_self l _
  rw [unchanged]
  exact held.gates

/-- Executing, or about to complete an execution. -/
def LanePhase.execution : LanePhase sc → Option (Delivery sc)
  | .executing delivery _ => some delivery
  | .completing delivery _ _ => some delivery
  | _ => none

/-- No two lanes execute commands of one key. -/
theorem Exclusive.once (held : Exclusive store phases) {d d' : Delivery sc} (first : (phases l).execution = some d)
    (second : (phases l').execution = some d') (nonempty : d.key ≠ "") (same : d'.key = d.key) : l = l' := by
  have owns {x : LaneId} {delivery : Delivery sc} (executes : (phases x).execution = some delivery) (keyed : delivery.key ≠ "") :
      ∃ g, (phases x).stage = .owns g ∧ store.gates.keyOf g = some delivery.key := by
    have fits := held.fits x
    cases at_phase : phases x with
    | executing other gate =>
      rw [at_phase] at executes fits
      cases executes
      obtain ⟨g,rfl,key⟩ := fits keyed
      exact ⟨g,rfl,key⟩
    | completing other gate result =>
      rw [at_phase] at executes fits
      cases executes
      obtain ⟨g,rfl,key⟩ := fits keyed
      exact ⟨g,rfl,key⟩
    | _ =>
      rw [at_phase] at executes
      cases executes
  obtain ⟨g,owner,key⟩ := owns first nonempty
  obtain ⟨h,owner',key'⟩ := owns second (by rw [same]; exact nonempty)
  exact held.gates.exclusive owner owner' (by rw [key,key',same])

/-- A result is cached, by the one lane that executes a command of its key. -/
theorem Exclusive.cached (held : Exclusive store phases) {delivery : Delivery sc} (executes : (phases l).execution = some delivery)
    (nonempty : delivery.key ≠ "") (ack : Ack) {gate : Option Nat} {next : Next sc} (same : (dropExecution gate next).stage = (phases l).stage) :
    Exclusive { store with cache := store.cache.add store.capacity delivery.key ack }
      (Function.update phases l (dropExecution gate next)) := by
  have moved := held.stays same (dropExecution_fits _ _ _) (dropExecution_fresh _ _ _)
  refine ⟨moved.gates,moved.fits,moved.cache.add _ _,?_⟩
  have unseen {x : LaneId} {other : Delivery sc} (apart : x ≠ l) (executes' : (phases x).execution = some other)
      (absent : other.key ≠ "" → store.cache.seen[other.key]? = none) (keyed : other.key ≠ "") :
      (store.cache.add store.capacity delivery.key ack).seen[other.key]? = none := by
    cases found : (store.cache.add store.capacity delivery.key ack).seen[other.key]? with
    | none => rfl
    | some held' =>
      rcases lookup_add found with ⟨same,-⟩ | old
      · exact absurd (held.once executes executes' nonempty same).symm apart
      · rw [absent keyed] at old
        cases old
  intro x
  by_cases here : x = l
  · subst here
    rw [Function.update_self]
    exact dropExecution_fresh _ _ _
  · rw [Function.update_of_ne here]
    have fresh := held.fresh x
    cases at_phase : phases x with
    | executing other gate' =>
      rw [at_phase] at fresh
      exact unseen here (by rw [at_phase]; rfl) fresh
    | completing other gate' result =>
      rw [at_phase] at fresh
      exact unseen here (by rw [at_phase]; rfl) fresh
    | _ => trivial

end Exclusive

/-! ### Steps -/

def Workers.phases (s : Workers sc) (l : LaneId) : LanePhase sc := (s.lane l).phase

section Phases
variable (s : Workers sc) (l : LaneId)

theorem phases_setLane {w : Worker sc} (same : w.lanes = (s.workers l.worker).lanes) (lane : Lane sc) :
    (s.setWorker l.worker (w.setLane l.kind lane)).phases = Function.update s.phases l lane.phase := by
  funext x
  obtain ⟨i,kind⟩ := x
  obtain ⟨j,kind'⟩ := l
  unfold Workers.phases Workers.lane Workers.setWorker Worker.setLane
  by_cases worker : i = j
  · subst worker
    by_cases here : kind = kind'
    · subst here
      simp
    · simp [here,same]
  · simp [worker]

theorem phases_goTo (phase : LanePhase sc) : (s.goTo l phase).phases = Function.update s.phases l phase := phases_setLane s l rfl _

theorem phases_setWorker {i : Nat} {w : Worker sc} (same : ∀ kind, (w.lanes kind).phase = ((s.workers i).lanes kind).phase) :
    (s.setWorker i w).phases = s.phases := by
  funext x
  unfold Workers.phases Workers.lane Workers.setWorker
  by_cases worker : x.worker = i
  · subst worker
    simp [same]
  · simp [worker]

end Phases

section Moves
variable {s s' : Workers sc} {l : LaneId}

theorem Exclusive.lane (held : Exclusive s.store s.phases) (move : LaneMove s l s') : Exclusive s'.store s'.phases := by
  have fits := held.fits l
  have fresh := held.fresh l
  have stays {phase : LanePhase sc} (same : phase.stage = (s.lane l).phase.stage) (fits' : phase.Fits s.store.gates)
      (fresh' : phase.Fresh s.store.cache) : Exclusive s.store (s.goTo l phase).phases := by
    rw [phases_goTo]
    exact held.stays same fits' fresh'
  cases move with
  | halts at_phase => exact stays (by rw [at_phase]; rfl) trivial trivial
  | takes at_phase queued =>
    show Exclusive s.store (Workers.phases (s.setWorker _ _))
    rw [phases_setLane s l rfl]
    refine held.stays ?_ trivial trivial
    show _ = (s.lane l).phase.stage
    rw [at_phase]
    rfl
  | quits at_phase _ => exact stays (by rw [at_phase]; rfl) trivial trivial
  | passes at_phase empty => exact stays (by rw [at_phase]; rfl) (fun nonempty => absurd empty nonempty) trivial
  | @enters delivery at_phase nonempty =>
    have out : (s.phases l).stage = .out := by
      show (s.lane l).phase.stage = _
      rw [at_phase]
      rfl
    obtain ⟨sound,key⟩ := held.gates.enter out delivery.key
    show Exclusive { s.store with gates := (s.store.gates.enter delivery.key l).2 } (Workers.phases (Workers.goTo { s with store := _ } l _))
    rw [phases_goTo]
    exact held.moved _ sound (fun _ _ known => keyOf_enter known _ _) key trivial
  | leaves at_phase _ => exact stays (by rw [at_phase]; rfl) trivial trivial
  | @locks delivery gate gates at_phase locked =>
    have at_phase : s.phases l = .waiting delivery gate := at_phase
    rw [at_phase] at fits
    have waits : (s.phases l).stage = .holds gate := by
      rw [at_phase]
      rfl
    show Exclusive { s.store with gates := gates } (Workers.phases (Workers.goTo { s with store := _ } l _))
    rw [phases_goTo]
    refine held.moved _ (held.gates.lock waits locked) ?_ ?_ trivial
    · intro g k known
      rw [keyOf_lock locked]
      exact known
    · intro _
      exact ⟨gate,rfl,by rw [keyOf_lock locked]; exact fits⟩
  | drops at_phase _ => exact stays (by rw [at_phase,dropExecution_stage]; rfl) (dropExecution_fits _ _ _) (dropExecution_fresh _ _ _)
  | replays at_phase _ _ =>
    exact stays (by rw [at_phase,dropExecution_stage]; rfl) (dropExecution_fits _ _ _) (dropExecution_fresh _ _ _)
  | @starts delivery gate at_phase absent =>
    have fits : Gated s.store.gates delivery gate := by
      rw [show s.phases l = .ready delivery gate from at_phase] at fits
      exact fits
    exact stays (by rw [at_phase]; rfl) fits absent
  | @joins delivery gate joined at_phase =>
    rw [show s.phases l = .executing delivery gate from at_phase] at fits fresh
    exact stays (by rw [at_phase]; rfl) fits fresh
  | @completes delivery gate result at_phase =>
    have same : (dropExecution gate (.reply delivery (s.completeExecution delivery result).1)).stage = (s.phases l).stage := by
      rw [dropExecution_stage,show s.phases l = .completing delivery gate result from at_phase]
      rfl
    show Exclusive (s.completeExecution delivery result).2.1 (Workers.phases (Workers.goTo { s with store := _ } l _))
    rw [phases_goTo]
    rcases (completeExecution_cases s delivery result).2 with ⟨-,unchanged⟩ | ⟨nonempty,-,-,added⟩
    · rw [unchanged]
      exact held.stays same (dropExecution_fits _ _ _) (dropExecution_fresh _ _ _)
    · rw [added]
      refine held.cached ?_ nonempty _ same
      rw [show s.phases l = .completing delivery gate result from at_phase]
      rfl
  | @unlocks gate next at_phase =>
    have owns : (s.phases l).stage = .owns gate := by
      show (s.lane l).phase.stage = _
      rw [at_phase]
      rfl
    show Exclusive { s.store with gates := s.store.gates.unlock gate } (Workers.phases (Workers.goTo { s with store := _ } l _))
    rw [phases_goTo]
    refine held.moved _ (held.gates.unlock owns) ?_ trivial trivial
    intro g k known
    exact (keyOf_update (by intro; rfl)).trans known
  | @releases gate next at_phase =>
    have holds : (s.phases l).stage = .holds gate := by
      show (s.lane l).phase.stage = _
      rw [at_phase]
      rfl
    show Exclusive { s.store with gates := s.store.gates.release gate l } (Workers.phases (Workers.goTo { s with store := _ } l _))
    rw [phases_goTo]
    have stage : next.phase.stage = .out := by cases next <;> rfl
    refine held.moved _ (by rw [stage]; exact held.gates.release holds) ?_ ?_ ?_
    · intro g k known
      exact (keyOf_update (by intro; rfl)).trans known
    · cases next <;> trivial
    · cases next <;> trivial
  | gives at_phase _ => exact stays (by rw [at_phase]; rfl) trivial trivial
  | @replies delivery result at_phase =>
    have lanes : ((s.workers l.worker).put ⟨delivery.submission,some l.kind,protoAck delivery.command result⟩).lanes =
        (s.workers l.worker).lanes := rfl
    show Exclusive s.store (Workers.phases (s.setWorker _ (Worker.setLane _ _ _)))
    rw [phases_setLane s l lanes]
    refine held.stays ?_ trivial trivial
    show _ = (s.lane l).phase.stage
    rw [at_phase]
    rfl

end Moves

/-! ### What is remembered -/

/-- The keys that were cached, in order. -/
def cachedKeys (log : List (Entry sc)) : List String :=
  log.filterMap (fun entry => match entry with
    | .cached key => some key
    | _ => none)

/-- How many distinct other keys were cached. -/
def otherKeys (key : String) (log : List (Entry sc)) : Nat := ((cachedKeys log).toFinset.erase key).card

/-- After an execution was applied: its key is cached, nothing was executed for it since, and what was replayed is its result. -/
structure Retained (cache : Cache String Ack) (delivery : Delivery sc) (message : String) (rest : List (Entry sc)) : Prop where
  held : ∃ ack, Held cache delivery.key ack (cachedKeys rest) ∧ ack.result = ⟨.applied,message⟩
  unstarted : ∀ l d, d.key = delivery.key → Entry.started l d ∉ rest
  replayed : ∀ l d result, d.key = delivery.key → Entry.replayed l d result ∈ rest → result = ⟨.applied,message⟩

/-- This holds for every applied execution as long as the store has room for the keys cached after it. -/
def Remembers (capacity : Nat) (cache : Cache String Ack) (log : List (Entry sc)) : Prop :=
  ∀ first rest l delivery message, log = first ++ .completed l delivery ⟨.applied,message⟩ :: rest → delivery.key ≠ "" →
    otherKeys delivery.key rest < capacity → Retained cache delivery message rest

section Memory
variable {capacity : Nat} {cache : Cache String Ack} {log : List (Entry sc)} {l : LaneId} {delivery : Delivery sc} {result : TerminalResult}

/-- A split of a longer log is one of the log before, or at its end. -/
theorem split_snoc {α : Type} {log first rest : List α} {e x : α} (split : log ++ [e] = first ++ x :: rest) :
    (∃ before, rest = before ++ [e] ∧ log = first ++ x :: before) ∨ (rest = [] ∧ x = e) := by
  rcases List.eq_nil_or_concat rest with rfl | ⟨before,last,rfl⟩
  · right
    obtain ⟨-,same⟩ := List.append_inj' split rfl
    exact ⟨rfl,(List.cons.inj same).1.symm⟩
  · left
    rw [List.concat_eq_append,← List.cons_append,← List.append_assoc] at split
    obtain ⟨same,last'⟩ := List.append_inj' split rfl
    rw [(List.cons.inj last').1]
    exact ⟨before,List.concat_eq_append,same⟩

theorem cachedKeys_append (first second : List (Entry sc)) : cachedKeys (first ++ second) = cachedKeys first ++ cachedKeys second :=
  List.filterMap_append

theorem otherKeys_mono (key : String) (first second : List (Entry sc)) : otherKeys key first ≤ otherKeys key (first ++ second) := by
  refine Finset.card_le_card (Finset.erase_subset_erase key ?_)
  rw [cachedKeys_append,List.toFinset_append]
  exact Finset.subset_union_left

/-- An entry that caches nothing and does not contradict what is remembered. -/
theorem Remembers.adds (held : Remembers capacity cache log) {e : Entry sc} (uncached : cachedKeys [e] = [])
    (started : ∀ l d, e = .started l d → d.key ≠ "" → cache.seen[d.key]? = none)
    (replayed : ∀ l d result, e = .replayed l d result → ∃ ack, cache.seen[d.key]? = some ack ∧ ack.result = result)
    (completed : ∀ l d message, e = .completed l d ⟨.applied,message⟩ → d.key ≠ "" → 0 < capacity →
      ∃ ack, Held cache d.key ack [] ∧ ack.result = ⟨.applied,message⟩) : Remembers capacity cache (log ++ [e]) := by
  intro first rest l delivery message split nonempty room
  rcases split_snoc split with ⟨before,rfl,was⟩ | ⟨rfl,here⟩
  · have retained := held first before l delivery message was nonempty (lt_of_le_of_lt (otherKeys_mono _ _ _) room)
    obtain ⟨ack,cached,result⟩ := retained.held
    refine ⟨⟨ack,?_,result⟩,?_,?_⟩
    · rw [cachedKeys_append,uncached,List.append_nil]
      exact cached
    · intro l' d same member
      rcases List.mem_append.mp member with old | new
      · exact retained.unstarted l' d same old
      · rw [List.mem_singleton] at new
        have absent := started l' d new.symm (by rw [same]; exact nonempty)
        rw [same,cached.value] at absent
        cases absent
    · intro l' d result' same member
      rcases List.mem_append.mp member with old | new
      · exact retained.replayed l' d result' same old
      · rw [List.mem_singleton] at new
        obtain ⟨ack',found,result''⟩ := replayed l' d result' new.symm
        rw [same,cached.value] at found
        cases found
        rw [← result'']
        exact result
  · have room' : 0 < capacity := lt_of_le_of_lt (Nat.zero_le _) room
    obtain ⟨ack,cached,result⟩ := completed l delivery message here.symm nonempty room'
    exact ⟨⟨ack,cached,result⟩,fun _ _ _ => List.not_mem_nil,fun _ _ _ _ member => by cases member⟩

/-- Another key is cached. -/
theorem Remembers.caches (held : Remembers capacity cache log) (sound : FifoCache.Sound capacity cache) {key : String}
    (absent : cache.seen[key]? = none) (ack : Ack) :
    Remembers capacity (cache.add capacity key ack) (log ++ [.cached key]) := by
  intro first rest l delivery message split nonempty room
  rcases split_snoc split with ⟨before,rfl,was⟩ | ⟨-,here⟩
  · have retained := held first before l delivery message was nonempty (lt_of_le_of_lt (otherKeys_mono _ _ _) room)
    obtain ⟨ack',cached,result⟩ := retained.held
    have keys : cachedKeys (before ++ [.cached key]) = cachedKeys before ++ [key] := cachedKeys_append _ _
    refine ⟨⟨ack',?_,result⟩,?_,?_⟩
    · rw [keys]
      rcases Held.add sound cached absent ack with kept | full
      · exact kept
      · -- The keys behind would fill the cache.
        have counted : otherKeys delivery.key (before ++ [.cached key]) < capacity := room
        unfold otherKeys at counted
        rw [keys] at counted
        omega
    · intro l' d same member
      rcases List.mem_append.mp member with old | new
      · exact retained.unstarted l' d same old
      · rw [List.mem_singleton] at new
        cases new
    · intro l' d result' same member
      rcases List.mem_append.mp member with old | new
      · exact retained.replayed l' d result' same old
      · rw [List.mem_singleton] at new
        cases new
  · cases here

end Memory

section MemoryMoves
variable {s s' : Workers sc} {l : LaneId}

theorem Remembers.lane (held : Remembers s.store.capacity s.store.cache s.log) (exclusive : Exclusive s.store s.phases)
    (move : LaneMove s l s') : Remembers s'.store.capacity s'.store.cache s'.log := by
  cases move with
  | replays _ _ cached =>
    refine held.adds rfl (fun _ _ same => by cases same) ?_ (fun _ _ _ same => by cases same)
    rintro l' d result same
    cases same
    exact ⟨_,cached,rfl⟩
  | starts _ absent =>
    refine held.adds rfl ?_ (fun _ _ _ same => by cases same) (fun _ _ _ same => by cases same)
    rintro l' d same nonempty
    cases same
    exact absent nonempty
  | @completes delivery gate result at_phase =>
    obtain ⟨terminal,ended⟩ := completeExecution_cases s delivery result
    show Remembers (s.completeExecution delivery result).2.1.capacity (s.completeExecution delivery result).2.1.cache
      (s.log ++ ((s.completeExecution delivery result).2.2 ++ [.completed l delivery (s.completeExecution delivery result).1]))
    rw [terminal]
    rcases ended with ⟨uncached,unchanged⟩ | ⟨nonempty,-,-,added⟩
    · rw [unchanged]
      refine held.adds rfl (fun _ _ same => by cases same) (fun _ _ _ same => by cases same) ?_
      rintro l' d message same nonempty
      cases same
      rcases uncached with empty | failed | rolledBack
      · exact absurd empty nonempty
      · cases failed
      · cases rolledBack
    · have absent : s.store.cache.seen[delivery.key]? = none := by
        have fresh := exclusive.fresh l
        rw [show s.phases l = .completing delivery gate result from at_phase] at fresh
        exact fresh nonempty
      have unheld : delivery.key ∉ s.store.cache.seen := by
        rw [← Std.ExtTreeMap.isSome_getElem?_iff_mem,absent]
        exact Bool.false_ne_true
      rw [added,if_neg unheld,← List.append_assoc]
      refine (held.caches exclusive.cache absent _).adds rfl (fun _ _ same => by cases same) (fun _ _ _ same => by cases same) ?_
      rintro l' d message same nonempty' room
      cases same
      exact ⟨_,Held.added exclusive.cache room absent _,rfl⟩
  | replies _ =>
    exact held.adds rfl (fun _ _ same => by cases same) (fun _ _ _ same => by cases same) (fun _ _ _ same => by cases same)
  | _ => exact held

end MemoryMoves

/-! ### Answers -/

/-- The command is in the hands of the lane. -/
def LanePhase.Handles (phase : LanePhase sc) (delivery : Delivery sc) : Prop :=
  ∃ other, phase.delivery = some other ∧ other.submission = delivery.submission

def Entry.isAnswer : Entry sc → Bool
  | .replayed _ _ _ => true
  | .answered _ _ _ => true
  | _ => false

/-- What a lane has put on the output, in order. -/
def Worker.replies (w : Worker sc) (kind : LaneKind) : List Sent := w.output.filter (fun sent => sent.lane = some kind)

/-- What was replayed for a command is what the lane answers. -/
structure Answers (s : Workers sc) : Prop where
  taken : ∀ l d result, Entry.replayed l d result ∈ s.log →
    d.submission ∈ (s.workers l.worker).terminals l.kind ∨ (s.phases l).Handles d
  carried : ∀ l d result, Entry.replayed l d result ∈ s.log → (s.phases l).Handles d →
    (s.phases l).result = some result ∨ (s.phases l).isStopped = true
  answered : ∀ l d result, Entry.answered l d result ∈ s.log → d.submission ∈ (s.workers l.worker).terminals l.kind
  same : ∀ l d d' result answer, Entry.replayed l d result ∈ s.log → Entry.answered l d' answer ∈ s.log →
    d'.submission = d.submission → answer = result
  sent : ∀ l : LaneId, ∀ sent ∈ (s.workers l.worker).replies l.kind, ∃ d answer, Entry.answered l d answer ∈ s.log ∧
    d.submission = sent.submission ∧ sent.ack = protoAck d.command answer

/-- The log grows by entries that are no answers. -/
def Quiet (s s' : Workers sc) : Prop := ∃ new, s'.log = s.log ++ new ∧ ∀ entry ∈ new, entry.isAnswer = false

section Answers
variable {s s' : Workers sc} {l : LaneId}

theorem Quiet.refl (s : Workers sc) : Quiet s s := ⟨[],by simp,by simp⟩

theorem Quiet.old (quiet : Quiet s s') {entry : Entry sc} (answer : entry.isAnswer = true) (member : entry ∈ s'.log) : entry ∈ s.log := by
  obtain ⟨new,log,silent⟩ := quiet
  rw [log] at member
  rcases List.mem_append.mp member with old | fresh
  · exact old
  · rw [silent entry fresh] at answer
    cases answer

theorem Quiet.kept (quiet : Quiet s s') {entry : Entry sc} (member : entry ∈ s.log) : entry ∈ s'.log := by
  obtain ⟨new,log,-⟩ := quiet
  rw [log]
  exact List.mem_append_left _ member

theorem replies_setWorker (s : Workers sc) {i : Nat} {w : Worker sc} (same : ∀ kind, w.replies kind = (s.workers i).replies kind)
    (j : Nat) (kind : LaneKind) : ((s.setWorker i w).workers j).replies kind = (s.workers j).replies kind := by
  show (Function.update s.workers i w j).replies kind = _
  by_cases here : j = i
  · subst here
    rw [Function.update_self]
    exact same kind
  · rw [Function.update_of_ne here]

theorem replies_setLane (s : Workers sc) (l : LaneId) (lane : Lane sc) (j : Nat) (kind : LaneKind) :
    ((s.setWorker l.worker ((s.workers l.worker).setLane l.kind lane)).workers j).replies kind = (s.workers j).replies kind := by
  refine replies_setWorker s ?_ j kind
  intro kind
  rfl

theorem terminals_of_replies {w w' : Worker sc} {kind : LaneKind} (same : w'.replies kind = w.replies kind) :
    w'.terminals kind = w.terminals kind := congrArg (List.map Sent.submission) same

/-- Nothing changes for the replays when no lane takes or answers a command. -/
theorem Answers.kept (held : Answers s) (quiet : Quiet s s')
    (replies : ∀ j kind, (s'.workers j).replies kind = (s.workers j).replies kind)
    (hands : ∀ l, (s'.phases l).delivery = (s.phases l).delivery)
    (results : ∀ l result, (s.phases l).result = some result → (s'.phases l).result = some result ∨ (s'.phases l).isStopped = true)
    (stopped : ∀ l, (s.phases l).isStopped = true → (s'.phases l).isStopped = true) : Answers s' := by
  have handles (l : LaneId) (d : Delivery sc) : (s'.phases l).Handles d ↔ (s.phases l).Handles d := by
    unfold LanePhase.Handles
    rw [hands]
  constructor
  · intro l d result member
    rw [terminals_of_replies (replies _ _),handles]
    exact held.taken l d result (quiet.old rfl member)
  · intro l d result member handled
    rw [handles] at handled
    rcases held.carried l d result (quiet.old rfl member) handled with carried | ended
    · exact results l result carried
    · exact Or.inr (stopped l ended)
  · intro l d result member
    rw [terminals_of_replies (replies _ _)]
    exact held.answered l d result (quiet.old rfl member)
  · intro l d d' result answer replayed answered
    exact held.same l d d' result answer (quiet.old rfl replayed) (quiet.old rfl answered)
  · intro l sent member
    rw [replies] at member
    obtain ⟨d,answer,logged,rest⟩ := held.sent l sent member
    exact ⟨d,answer,quiet.kept logged,rest⟩

/-- One lane goes on with its command and keeps the result it has. -/
theorem Answers.goes (held : Answers s) {phase : LanePhase sc} (quiet : Quiet s s') (phases : s'.phases = Function.update s.phases l phase)
    (replies : ∀ j kind, (s'.workers j).replies kind = (s.workers j).replies kind)
    (hand : phase.delivery = (s.phases l).delivery)
    (result : ∀ result, (s.phases l).result = some result → phase.result = some result ∨ phase.isStopped = true)
    (running : (s.phases l).isStopped = false) : Answers s' := by
  refine held.kept quiet replies ?_ ?_ ?_
  · intro x
    rw [phases]
    by_cases here : x = l
    · subst here
      rw [Function.update_self]
      exact hand
    · rw [Function.update_of_ne here]
  · intro x
    rw [phases]
    by_cases here : x = l
    · subst here
      rw [Function.update_self]
      exact result
    · rw [Function.update_of_ne here]
      exact fun _ found => Or.inl found
  · intro x ended
    rw [phases]
    by_cases here : x = l
    · subst here
      rw [running] at ended
      cases ended
    · rw [Function.update_of_ne here]
      exact ended

/-- A command that a lane has before it was not answered by it. -/
theorem AllAccounted.unanswered (accounted : AllAccounted s) {d : Delivery sc} (member : d ∈ (s.lane l).held) :
    d.submission ∉ (s.workers l.worker).terminals l.kind := by
  intro answered
  have waits : d.submission ∈ ((s.workers l.worker).lanes l.kind).pending := List.mem_map_of_mem member
  exact (accounted.workers l.worker).waits_once waits ⟨l.kind,answered⟩

theorem AllAccounted.handled_unanswered (accounted : AllAccounted s) {d : Delivery sc} (handles : (s.phases l).Handles d) :
    d.submission ∉ (s.workers l.worker).terminals l.kind := by
  obtain ⟨other,hand,same⟩ := handles
  rw [← same]
  refine accounted.unanswered ?_
  unfold Lane.held
  rw [show (s.lane l).phase.delivery = some other from hand]
  exact List.mem_cons_self

theorem Answers.takes (held : Answers s) (accounted : AllAccounted s) {delivery : Delivery sc} {rest : List (Delivery sc)}
    (at_phase : s.phases l = .idle) (queued : (s.lane l).queue = delivery :: rest) (quiet : Quiet s s')
    (phases : s'.phases = Function.update s.phases l (.taken delivery))
    (replies : ∀ j kind, (s'.workers j).replies kind = (s.workers j).replies kind) : Answers s' := by
  have waiting : delivery.submission ∉ (s.workers l.worker).terminals l.kind := by
    refine accounted.unanswered ?_
    unfold Lane.held
    rw [queued]
    exact List.mem_append_right _ List.mem_cons_self
  -- What was replayed on this lane has been answered, so it is not the command that is taken.
  have done {d : Delivery sc} {result : TerminalResult} (member : Entry.replayed l d result ∈ s.log) :
      d.submission ∈ (s.workers l.worker).terminals l.kind := by
    rcases held.taken l d result member with answered | ⟨other,hand,-⟩
    · exact answered
    · rw [at_phase] at hand
      cases hand
  constructor
  · intro x d result member
    have member := quiet.old rfl member
    rw [terminals_of_replies (replies _ _)]
    by_cases here : x = l
    · subst here
      exact Or.inl (done member)
    · rw [phases,Function.update_of_ne here]
      exact held.taken x d result member
  · intro x d result member handled
    have member := quiet.old rfl member
    rw [phases] at handled ⊢
    by_cases here : x = l
    · subst here
      rw [Function.update_self] at handled
      obtain ⟨other,hand,same⟩ := handled
      cases hand
      rw [same] at waiting
      exact absurd (done member) waiting
    · rw [Function.update_of_ne here] at handled ⊢
      exact held.carried x d result member handled
  · intro x d result member
    rw [terminals_of_replies (replies _ _)]
    exact held.answered x d result (quiet.old rfl member)
  · intro x d d' result answer replayed answered
    exact held.same x d d' result answer (quiet.old rfl replayed) (quiet.old rfl answered)
  · intro x sent member
    rw [replies] at member
    obtain ⟨d,answer,logged,rest⟩ := held.sent x sent member
    exact ⟨d,answer,quiet.kept logged,rest⟩

theorem Answers.replays (held : Answers s) (accounted : AllAccounted s) {delivery : Delivery sc} {gate : Option Nat}
    {result : TerminalResult} (at_phase : s.phases l = .ready delivery gate)
    (log : s'.log = s.log ++ [.replayed l delivery result])
    (phases : s'.phases = Function.update s.phases l (dropExecution gate (.reply delivery result)))
    (replies : ∀ j kind, (s'.workers j).replies kind = (s.workers j).replies kind) : Answers s' := by
  have handles (x : LaneId) (d : Delivery sc) : (s'.phases x).Handles d ↔ (s.phases x).Handles d := by
    unfold LanePhase.Handles
    rw [phases]
    by_cases here : x = l
    · subst here
      rw [Function.update_self,dropExecution_delivery,at_phase]
      rfl
    · rw [Function.update_of_ne here]
  have own : (s.phases l).Handles delivery := ⟨delivery,by rw [at_phase]; rfl,rfl⟩
  have split {x : LaneId} {d : Delivery sc} {result' : TerminalResult} (member : Entry.replayed x d result' ∈ s'.log) :
      Entry.replayed x d result' ∈ s.log ∨ (x = l ∧ d = delivery ∧ result' = result) := by
    rw [log] at member
    rcases List.mem_append.mp member with old | new
    · exact Or.inl old
    · rw [List.mem_singleton] at new
      cases new
      exact Or.inr ⟨rfl,rfl,rfl⟩
  have answers {x : LaneId} {d : Delivery sc} {answer : TerminalResult} (member : Entry.answered x d answer ∈ s'.log) :
      Entry.answered x d answer ∈ s.log := by
    rw [log] at member
    rcases List.mem_append.mp member with old | new
    · exact old
    · rw [List.mem_singleton] at new
      cases new
  constructor
  · intro x d result' member
    rw [terminals_of_replies (replies _ _),handles]
    rcases split member with old | ⟨rfl,rfl,rfl⟩
    · exact held.taken x d result' old
    · exact Or.inr own
  · intro x d result' member handled
    rw [handles] at handled
    rw [phases]
    by_cases here : x = l
    · subst here
      rw [Function.update_self]
      rcases split member with old | ⟨-,rfl,rfl⟩
      · -- The lane had no result yet, so nothing was replayed for what it has in hand.
        rcases held.carried x d result' old handled with found | ended
        · rw [at_phase] at found
          cases found
        · rw [at_phase] at ended
          cases ended
      · rw [dropExecution_result]
        exact Or.inl rfl
    · rw [Function.update_of_ne here]
      rcases split member with old | ⟨rfl,-⟩
      · exact held.carried x d result' old handled
      · exact absurd rfl here
  · intro x d answer member
    rw [terminals_of_replies (replies _ _)]
    exact held.answered x d answer (answers member)
  · intro x d d' result' answer replayed answered same
    have answered := answers answered
    rcases split replayed with old | ⟨rfl,rfl,rfl⟩
    · exact held.same x d d' result' answer old answered same
    · have done := held.answered x d' answer answered
      rw [same] at done
      exact absurd done (accounted.handled_unanswered own)
  · intro x sent member
    rw [replies] at member
    obtain ⟨d,answer,logged,rest⟩ := held.sent x sent member
    refine ⟨d,answer,?_,rest⟩
    rw [log]
    exact List.mem_append_left _ logged

theorem Answers.replies (held : Answers s) {delivery : Delivery sc} {result : TerminalResult}
    (at_phase : s.phases l = .replying delivery result) (log : s'.log = s.log ++ [.answered l delivery result])
    (phases : s'.phases = Function.update s.phases l .idle)
    (own : (s'.workers l.worker).replies l.kind =
      (s.workers l.worker).replies l.kind ++ [⟨delivery.submission,some l.kind,protoAck delivery.command result⟩])
    (others : ∀ x : LaneId, x ≠ l → (s'.workers x.worker).replies x.kind = (s.workers x.worker).replies x.kind) : Answers s' := by
  have own_terminals : (s'.workers l.worker).terminals l.kind = (s.workers l.worker).terminals l.kind ++ [delivery.submission] := by
    show ((s'.workers l.worker).replies l.kind).map Sent.submission = _
    rw [own,List.map_append]
    rfl
  have grown (x : LaneId) {i : Nat} (member : i ∈ (s.workers x.worker).terminals x.kind) :
      i ∈ (s'.workers x.worker).terminals x.kind := by
    by_cases here : x = l
    · subst here
      rw [own_terminals]
      exact List.mem_append_left _ member
    · rw [terminals_of_replies (others x here)]
      exact member
  have old {x : LaneId} {d : Delivery sc} {result' : TerminalResult} (member : Entry.replayed x d result' ∈ s'.log) :
      Entry.replayed x d result' ∈ s.log := by
    rw [log] at member
    rcases List.mem_append.mp member with old | new
    · exact old
    · rw [List.mem_singleton] at new
      cases new
  have split {x : LaneId} {d : Delivery sc} {answer : TerminalResult} (member : Entry.answered x d answer ∈ s'.log) :
      Entry.answered x d answer ∈ s.log ∨ (x = l ∧ d = delivery ∧ answer = result) := by
    rw [log] at member
    rcases List.mem_append.mp member with old | new
    · exact Or.inl old
    · rw [List.mem_singleton] at new
      cases new
      exact Or.inr ⟨rfl,rfl,rfl⟩
  have answeredNow : delivery.submission ∈ (s'.workers l.worker).terminals l.kind := by
    rw [own_terminals]
    exact List.mem_append_right _ (List.mem_singleton_self _)
  constructor
  · intro x d result' member
    rcases held.taken x d result' (old member) with answered | handled
    · exact Or.inl (grown x answered)
    · by_cases here : x = l
      · subst here
        obtain ⟨other,hand,same⟩ := handled
        rw [at_phase] at hand
        cases hand
        rw [← same]
        exact Or.inl answeredNow
      · rw [phases,Function.update_of_ne here]
        exact Or.inr handled
  · intro x d result' member handled
    rw [phases] at handled ⊢
    by_cases here : x = l
    · subst here
      rw [Function.update_self] at handled
      obtain ⟨other,hand,-⟩ := handled
      cases hand
    · rw [Function.update_of_ne here] at handled ⊢
      exact held.carried x d result' (old member) handled
  · intro x d answer member
    rcases split member with before | ⟨rfl,rfl,rfl⟩
    · exact grown x (held.answered x d answer before)
    · exact answeredNow
  · intro x d d' result' answer replayed answered same
    rcases split answered with before | ⟨rfl,rfl,rfl⟩
    · exact held.same x d d' result' answer (old replayed) before same
    · have handled : (s.phases x).Handles d := ⟨d',by rw [at_phase]; rfl,same⟩
      rcases held.carried x d result' (old replayed) handled with found | ended
      · rw [at_phase] at found
        exact Option.some.inj found
      · rw [at_phase] at ended
        cases ended
  · intro x sent member
    have known {sent : Sent} (member : sent ∈ (s.workers x.worker).replies x.kind) : ∃ d answer, Entry.answered x d answer ∈ s'.log ∧
        d.submission = sent.submission ∧ sent.ack = protoAck d.command answer := by
      obtain ⟨d,answer,logged,rest⟩ := held.sent x sent member
      refine ⟨d,answer,?_,rest⟩
      rw [log]
      exact List.mem_append_left _ logged
    by_cases here : x = l
    · subst here
      rw [own] at member
      rcases List.mem_append.mp member with old | new
      · exact known old
      · rw [List.mem_singleton] at new
        subst new
        refine ⟨delivery,result,?_,rfl,rfl⟩
        rw [log]
        exact List.mem_append_right _ (List.mem_singleton_self _)
    · rw [others x here] at member
      exact known member

/-- Most steps move one phase and leave the output alone. -/
theorem Answers.goTo (held : Answers s) {phase : LanePhase sc} (store : AckStore LaneId) (hand : phase.delivery = (s.lane l).phase.delivery)
    (result : ∀ result, (s.lane l).phase.result = some result → phase.result = some result ∨ phase.isStopped = true)
    (running : (s.lane l).phase.isStopped = false) : Answers ({ s with store := store }.goTo l phase) := by
  exact held.goes (Quiet.refl s) (phases_goTo { s with store := store } l phase)
    (replies_setLane { s with store := store } l { s.lane l with phase := phase }) hand result running

theorem Answers.record (held : Answers s) {entries : List (Entry sc)} (silent : ∀ entry ∈ entries, entry.isAnswer = false) :
    Answers (s.record entries) :=
  held.kept ⟨entries,rfl,silent⟩ (fun _ _ => rfl) (fun _ => rfl) (fun _ _ found => Or.inl found) (fun _ ended => ended)

theorem Answers.lane (held : Answers s) (accounted : AllAccounted s) (move : LaneMove s l s') : Answers s' := by
  -- A lane without a result, as most of them are, has nothing to keep.
  have goes {phase : LanePhase sc} (store : AckStore LaneId) (hand : phase.delivery = (s.lane l).phase.delivery)
      (empty : (s.lane l).phase.result = none) (running : (s.lane l).phase.isStopped = false) :
      Answers ({ s with store := store }.goTo l phase) := by
    refine held.goTo store hand ?_ running
    rw [empty]
    nofun
  cases move with
  | halts at_phase => exact goes s.store (by rw [at_phase]; rfl) (by rw [at_phase]; rfl) (by rw [at_phase]; rfl)
  | takes at_phase queued =>
    exact held.takes accounted at_phase queued (Quiet.refl s) (phases_setLane s l rfl _) (replies_setLane s l _)
  | quits at_phase _ => exact goes s.store (by rw [at_phase]; rfl) (by rw [at_phase]; rfl) (by rw [at_phase]; rfl)
  | passes at_phase _ => exact goes s.store (by rw [at_phase]; rfl) (by rw [at_phase]; rfl) (by rw [at_phase]; rfl)
  | enters at_phase _ => exact goes _ (by rw [at_phase]; rfl) (by rw [at_phase]; rfl) (by rw [at_phase]; rfl)
  | leaves at_phase _ => exact goes s.store (by rw [at_phase]; rfl) (by rw [at_phase]; rfl) (by rw [at_phase]; rfl)
  | locks at_phase _ => exact goes _ (by rw [at_phase]; rfl) (by rw [at_phase]; rfl) (by rw [at_phase]; rfl)
  | drops at_phase _ =>
    exact goes s.store (by rw [at_phase,dropExecution_delivery]; rfl) (by rw [at_phase]; rfl) (by rw [at_phase]; rfl)
  | replays at_phase _ _ =>
    exact held.replays accounted at_phase rfl (phases_goTo s l _) (replies_setLane s l _)
  | starts at_phase _ =>
    refine (goes s.store (by rw [at_phase]; rfl) (by rw [at_phase]; rfl) (by rw [at_phase]; rfl)).record ?_
    simp [Entry.isAnswer]
  | joins at_phase => exact goes s.store (by rw [at_phase]; rfl) (by rw [at_phase]; rfl) (by rw [at_phase]; rfl)
  | @completes delivery gate result at_phase =>
    obtain ⟨same,ended⟩ := completeExecution_cases s delivery result
    refine (held.goTo _ ?_ ?_ (by rw [at_phase]; rfl)).record ?_
    · rw [at_phase,dropExecution_delivery]
      rfl
    · rw [at_phase,dropExecution_result,same]
      exact fun _ found => Or.inl found
    · rcases ended with ⟨-,unchanged⟩ | ⟨-,-,-,added⟩
      · rw [unchanged]
        simp [Entry.isAnswer]
      · rw [added]
        split <;> simp [Entry.isAnswer]
  | unlocks at_phase =>
    exact held.goTo _ (by rw [at_phase]; rfl) (by rw [at_phase]; exact fun _ found => Or.inl found) (by rw [at_phase]; rfl)
  | @releases gate next at_phase =>
    refine held.goTo _ (by rw [at_phase,Next.phase_delivery]; rfl) ?_ (by rw [at_phase]; rfl)
    rw [at_phase,Next.phase_result]
    exact fun _ found => Or.inl found
  | gives at_phase _ => exact held.goTo s.store (by rw [at_phase]; rfl) (fun _ _ => Or.inr rfl) (by rw [at_phase]; rfl)
  | @replies delivery result at_phase =>
    have lanes : ((s.workers l.worker).put ⟨delivery.submission,some l.kind,protoAck delivery.command result⟩).lanes =
        (s.workers l.worker).lanes := rfl
    refine held.replies at_phase rfl (phases_setLane s l lanes _) ?_ ?_
    · show (Function.update s.workers l.worker _ l.worker).replies l.kind = _
      rw [Function.update_self]
      show List.filter _ ((s.workers l.worker).output ++ [_]) = _
      rw [List.filter_append]
      simp [Worker.replies]
    · intro x apart
      show (Function.update s.workers l.worker _ x.worker).replies x.kind = _
      by_cases here : x.worker = l.worker
      · have kinds : l.kind ≠ x.kind := by
          intro same
          exact apart (by cases x; cases l; simp_all)
        rw [here,Function.update_self]
        show List.filter _ ((s.workers l.worker).output ++ [_]) = _
        rw [List.filter_append]
        simp [Worker.replies,kinds]
      · rw [Function.update_of_ne here]

end Answers

/-! ### Calls of `submit` -/

/-- What a call of `submit` leaves alone: where the lanes stand and what they have answered. -/
structure LaneFrame (w w' : Worker sc) : Prop where
  phases : ∀ kind, (w'.lanes kind).phase = (w.lanes kind).phase
  replies : ∀ kind, w'.replies kind = w.replies kind

section Frames
variable {w w' w'' : Worker sc} {i : Nat}

theorem LaneFrame.trans (first : LaneFrame w w') (second : LaneFrame w' w'') : LaneFrame w w'' := by
  constructor
  · intro kind
    exact (second.phases kind).trans (first.phases kind)
  · intro kind
    exact (second.replies kind).trans (first.replies kind)

theorem laneFrame_move (w : Worker sc) (i : Nat) (phase : SubmitPhase) : LaneFrame w (w.moveSubmission i phase) :=
  ⟨fun _ => rfl,fun _ => rfl⟩

theorem laneFrame_setLane (w : Worker sc) (kind : LaneKind) {lane : Lane sc} (same : lane.phase = (w.lanes kind).phase) :
    LaneFrame w (w.setLane kind lane) := by
  refine ⟨?_,fun _ => rfl⟩
  intro k
  by_cases here : k = kind
  · subst here
    rw [setLane_self]
    exact same
  · rw [setLane_other w here]

theorem laneFrame_unreserve (w : Worker sc) (kind : LaneKind) : LaneFrame w (w.unreserve kind) := by
  cases kind with
  | regular => exact laneFrame_setLane w .regular rfl
  | refresh => exact ⟨fun _ => rfl,fun _ => rfl⟩

theorem laneFrame_enqueue (w : Worker sc) (kind : LaneKind) (delivery : Delivery sc) : LaneFrame w (w.enqueue kind delivery) :=
  laneFrame_setLane w kind rfl

/-- What `submit` acknowledges itself is no answer of a lane. -/
theorem laneFrame_send {ack : ControlAck} (sent : w.send i none ack = some (.ok w')) : LaneFrame w w' := by
  rw [send_ok sent]
  refine ⟨fun _ => rfl,?_⟩
  intro kind
  show List.filter _ (w.output ++ [_]) = _
  rw [List.filter_append]
  simp [Worker.replies]

theorem laneFrame_beginSubmit {command : ControlCommand sc} (stepped : w.beginSubmit command = some w') : LaneFrame w w' := by
  unfold Worker.beginSubmit at stepped
  split at stepped
  · cases stepped
  · cases stepped
    exact ⟨fun _ => rfl,fun _ => rfl⟩

theorem laneFrame_advanceSubmit (stepped : w.advanceSubmit i = some w') : LaneFrame w w' := by
  unfold Worker.advanceSubmit at stepped
  split at stepped
  · cases stepped
  · next submission _ =>
    simp only at stepped
    cases at_phase : submission.phase with
    | reserving =>
      simp only [at_phase] at stepped
      split at stepped
      · cases stepped
        exact laneFrame_move w i _
      · split at stepped
        · cases stepped
          refine LaneFrame.trans ?_ (laneFrame_move _ i _)
          exact laneFrame_setLane w _ rfl
        · cases stepped
    | accepting =>
      simp only [at_phase] at stepped
      split at stepped
      · cases stepped
      · cases stepped
        exact (laneFrame_unreserve w _).trans (laneFrame_move _ i _)
      · next sent =>
        split at stepped
        · cases stepped
          exact (laneFrame_send sent).trans (laneFrame_move _ i _)
        · cases stepped
          exact (laneFrame_send sent).trans (laneFrame_move _ i _)
    | placing =>
      simp only [at_phase] at stepped
      cases stepped
      exact ((laneFrame_unreserve w _).trans (laneFrame_enqueue _ _ _)).trans (laneFrame_move _ i _)
    | offering =>
      simp only [at_phase] at stepped
      split at stepped
      · cases stepped
        exact laneFrame_move w i _
      · split at stepped
        · cases stepped
          exact (laneFrame_enqueue w _ _).trans (laneFrame_move _ i _)
        · cases stepped
          exact laneFrame_move w i _
    | refusing message =>
      simp only [at_phase] at stepped
      split at stepped
      · cases stepped
      · cases stepped
        exact laneFrame_move w i _
      · next sent =>
        cases stepped
        exact (laneFrame_send sent).trans (laneFrame_move _ i _)
    | returned ok =>
      simp only [at_phase] at stepped
      cases stepped

theorem laneFrame_abandonSubmit (stepped : w.abandonSubmit i = some w') : LaneFrame w w' := by
  unfold Worker.abandonSubmit at stepped
  split at stepped
  · cases stepped
  · split at stepped
    · cases stepped
      exact laneFrame_move w i _
    · cases stepped
      exact (laneFrame_unreserve w _).trans (laneFrame_move _ i _)
    · cases stepped
      exact laneFrame_move w i _
    · cases stepped

end Frames

/-! ### Runs -/

/-- What holds of all workers and their store, whatever has happened. -/
structure Idempotent (capacity : Nat) (s : Workers sc) : Prop where
  capacity : s.store.capacity = capacity
  accounted : AllAccounted s
  exclusive : Exclusive s.store s.phases
  remembers : Remembers s.store.capacity s.store.cache s.log
  answers : Answers s

section Runs
variable {capacity : Nat} {s s' : Workers sc}

/-- A step that leaves the lanes alone. -/
theorem Idempotent.framed (held : Idempotent capacity s) {i : Nat} {w : Worker sc} (frame : LaneFrame (s.workers i) w)
    (accounted : AllAccounted (s.setWorker i w)) : Idempotent capacity (s.setWorker i w) := by
  have phases : (s.setWorker i w).phases = s.phases := phases_setWorker s frame.phases
  refine ⟨held.capacity,accounted,?_,held.remembers,?_⟩
  · rw [phases]
    exact held.exclusive
  · refine held.answers.kept (Quiet.refl s) (replies_setWorker s frame.replies) ?_ ?_ ?_
    · intro l
      rw [phases]
    · intro l result found
      rw [phases]
      exact Or.inl found
    · intro l ended
      rw [phases]
      exact ended

theorem capacity_lane {l : LaneId} (move : LaneMove s l s') : s'.store.capacity = s.store.capacity := by
  cases move with
  | @completes delivery gate result at_phase =>
    show (s.completeExecution delivery result).2.1.capacity = _
    rcases (completeExecution_cases s delivery result).2 with ⟨-,unchanged⟩ | ⟨-,-,-,added⟩
    · rw [unchanged]
    · rw [added]
  | _ => rfl

theorem Idempotent.step (held : Idempotent capacity s) {e : WorkerEvent sc} (stepped : s.step e = some s') : Idempotent capacity s' := by
  have accounted := held.accounted.step stepped
  cases e with
  | submit i command =>
    obtain ⟨w,begun,rfl⟩ := Option.map_eq_some_iff.mp stepped
    exact held.framed (laneFrame_beginSubmit begun) accounted
  | advanceSubmit i submission =>
    obtain ⟨w,advanced,rfl⟩ := Option.map_eq_some_iff.mp stepped
    exact held.framed (laneFrame_advanceSubmit advanced) accounted
  | abandonSubmit i submission =>
    obtain ⟨w,abandoned,rfl⟩ := Option.map_eq_some_iff.mp stepped
    exact held.framed (laneFrame_abandonSubmit abandoned) accounted
  | advanceLane l joined =>
    have move := advanceLane_moves stepped
    exact ⟨(capacity_lane move).trans held.capacity,accounted,held.exclusive.lane move,held.remembers.lane held.exclusive move,
      held.answers.lane held.accounted move⟩
  | destroy gate =>
    obtain ⟨gates,destroyed,rfl⟩ := Option.map_eq_some_iff.mp stepped
    have exclusive : Exclusive { s.store with gates := gates } s.phases := by
      refine ⟨held.exclusive.gates.destroy destroyed,?_,held.exclusive.cache,held.exclusive.fresh⟩
      intro l
      refine (held.exclusive.fits l).mono ?_
      intro g k known
      rw [keyOf_destroy destroyed]
      exact known
    refine ⟨held.capacity,accounted,exclusive,held.remembers,?_⟩
    exact ⟨held.answers.taken,held.answers.carried,held.answers.answered,held.answers.same,held.answers.sent⟩
  | cancel i =>
    cases stepped
    exact held.framed ⟨fun _ => rfl,fun _ => rfl⟩ accounted
  | read i =>
    simp only [Workers.step] at stepped
    split at stepped
    · cases stepped
    · cases stepped
      exact held.framed ⟨fun _ => rfl,fun _ => rfl⟩ accounted
  | closeOutput i =>
    cases stepped
    exact held.framed ⟨fun _ => rfl,fun _ => rfl⟩ accounted
  | hangUp i =>
    simp only [Workers.step] at stepped
    split at stepped
    · cases stepped
      exact held.framed ⟨fun _ => rfl,fun _ => rfl⟩ accounted
    · cases stepped

theorem idempotent_start (capacity : Nat) (capacities : Nat → LaneKind → Nat) :
    Idempotent capacity (Workers.start capacity capacities : Workers sc) := by
  refine ⟨rfl,run_accounted .nil,⟨KeyedGates.sound_empty,fun _ => trivial,FifoCache.sound_empty capacity,fun _ => trivial⟩,?_,?_⟩
  · intro first rest l delivery message split
    have lengths := congrArg List.length split
    simp [Workers.start] at lengths
  · constructor
    · intro l d result member
      cases member
    · intro l d result member
      cases member
    · intro l d result member
      cases member
    · intro l d d' result answer member
      cases member
    · intro l sent member
      cases member

theorem run_idempotent {capacities : Nat → LaneKind → Nat} {events : List (WorkerEvent sc)}
    (run : Run Workers.step (Workers.start capacity capacities) events s) : Idempotent capacity s :=
  run.invariant (I := Idempotent capacity) (idempotent_start capacity capacities) (fun _ _ _ held stepped => held.step stepped)

/-- What comes of a command that was replayed: nothing else is put on the output for it, and its lane puts it there unless it
    has stopped. -/
theorem Answers.outcome (held : Answers s) {l : LaneId} {d : Delivery sc} {result : TerminalResult}
    (replayed : Entry.replayed l d result ∈ s.log) :
    (∀ sent ∈ (s.workers l.worker).replies l.kind, sent.submission = d.submission →
      sent.ack.status = result.status ∧ sent.ack.message = result.message) ∧
    (d.submission ∈ (s.workers l.worker).terminals l.kind ∨ (s.phases l).result = some result ∨ (s.phases l).isStopped = true) := by
  constructor
  · intro sent member same
    obtain ⟨d',answer,logged,submission,ack⟩ := held.sent l sent member
    have answered : answer = result := held.same l d d' result answer replayed logged (submission.trans same)
    rw [ack,answered]
    exact ⟨rfl,rfl⟩
  · rcases held.taken l d result replayed with answered | handled
    · exact Or.inl answered
    · exact Or.inr (held.carried l d result replayed handled)

end Runs

/-- In every interleaving of any number of sessions no two lanes execute commands of one key at a time. After an execution of
    a key was applied, as long as fewer than `capacity` distinct other keys were cached since, no execution of the key starts,
    and whoever asks for it gets the cached status and message: nothing else is ever put on the output for that command, and
    its lane has put it there, is about to or has stopped. -/
theorem control_commands_run_once {capacity : Nat} {capacities : Nat → LaneKind → Nat} {events : List (WorkerEvent sc)}
    {s : Workers sc} (run : Run Workers.step (Workers.start capacity capacities) events s) :
    (∀ l l' d d', (s.phases l).execution = some d → (s.phases l').execution = some d' → d.key ≠ "" → d'.key = d.key → l = l') ∧
    (∀ first rest a delivery message, s.log = first ++ .completed a delivery ⟨.applied,message⟩ :: rest → delivery.key ≠ "" →
      otherKeys delivery.key rest < capacity →
      (∀ l d, d.key = delivery.key → Entry.started l d ∉ rest) ∧
      (∀ l d result, d.key = delivery.key → Entry.replayed l d result ∈ rest →
        result = ⟨.applied,message⟩ ∧
        (∀ sent ∈ (s.workers l.worker).replies l.kind, sent.submission = d.submission →
          sent.ack.status = .applied ∧ sent.ack.message = message) ∧
        (d.submission ∈ (s.workers l.worker).terminals l.kind ∨ (s.phases l).result = some ⟨.applied,message⟩ ∨
          (s.phases l).isStopped = true))) := by
  have held := run_idempotent run
  constructor
  · intro l l' d d' first second nonempty same
    exact held.exclusive.once first second nonempty same
  · intro first rest a delivery message split nonempty room
    rw [← held.capacity] at room
    have retained := held.remembers first rest a delivery message split nonempty room
    refine ⟨retained.unstarted,?_⟩
    intro l d result same replayed
    have cached : result = ⟨.applied,message⟩ := retained.replayed l d result same replayed
    have logged : Entry.replayed l d result ∈ s.log := by
      rw [split]
      exact List.mem_append_right _ (List.mem_cons_of_mem _ replayed)
    obtain ⟨answers,outcome⟩ := held.answers.outcome logged
    rw [cached] at answers outcome
    exact ⟨cached,answers,outcome⟩

/-- The same route patch, submitted once more by a second session after the first has executed it. -/
def patchRepeated : List (WorkerEvent finalTags) :=
  patchExecuted ++ (.submit 1 patchFromFive :: List.replicate 3 (.advanceSubmit 1 0) ++
    List.replicate 7 (.advanceLane ⟨1,.regular⟩ (.finished ⟨.failed,"executed again"⟩)))

def afterRepeat : Workers finalTags :=
  (follow Workers.step (Workers.start 1 (fun _ _ => 1)) patchRepeated).getD (Workers.start 1 (fun _ _ => 1))

/-- The first session has applied the patch and answered it, then the second one has replayed and answered it. -/
def replayedOnce : List (Entry finalTags) → Bool
  | [_,_,.completed _ first result,_,.replayed lane second _,_] =>
    first.key = "key" ∧ second.key = "key" ∧ result = ⟨.applied,"done"⟩ ∧ lane = ⟨1,.regular⟩ ∧ second.submission = 0
  | _ => false

theorem repeated_patch_replayed : (afterRepeat.workers 1).terminals .regular = [0] ∧
    ∀ sent ∈ (afterRepeat.workers 1).replies .regular, sent.submission = 0 → sent.ack.status = .applied ∧ sent.ack.message = "done" := by
  have followed : (follow Workers.step (Workers.start 1 (fun _ _ => 1)) patchRepeated).isSome = true := by decide
  have run : Run Workers.step (Workers.start 1 (fun _ _ => 1)) patchRepeated afterRepeat := by
    refine Run.of_follow ?_
    obtain ⟨s,reached⟩ := Option.isSome_iff_exists.mp followed
    unfold afterRepeat
    rw [reached]
    rfl
  refine ⟨by decide,?_⟩
  have shape : replayedOnce afterRepeat.log = true := by decide
  have few : otherKeys "key" (afterRepeat.log.drop 3) < 1 := by decide
  unfold replayedOnce at shape
  split at shape
  · next started cached a first result answered lane second result' last log =>
    obtain ⟨key,key',rfl,rfl,number⟩ := of_decide_eq_true shape
    rw [log,← key] at few
    obtain ⟨-,kept⟩ := control_commands_run_once run
    obtain ⟨-,replays⟩ := kept [started,cached] _ a first "done" log (by rw [key]; decide) few
    obtain ⟨-,answers,-⟩ := replays ⟨1,.regular⟩ second result' (key'.trans key.symm) (by simp)
    rw [number] at answers
    exact answers
  · cases shape

end NodeAgent.Control
