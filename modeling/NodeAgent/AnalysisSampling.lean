import NodeAgent.AnalysisMinutes
import Mathlib.Algebra.Order.BigOperators.Group.List
import Mathlib.Algebra.Order.Group.Nat

/-!
Runs of samples into one minute. Flows count their traffic while the sampler visits them one
by one, and the rest of the agent takes and frees memory at any point. The counters of a UDP
flow are always the sum of those of its targets and of the traffic of no known target, so
that each visit has parts for all of its bytes.
-/
namespace NodeAgent.AnalysisSampling
open NodeAgent.AnalysisRows NodeAgent.AnalysisFlows NodeAgent.AnalysisMinutes NodeAgent.FiniteMap

/-! ### The counters of a UDP flow -/

def targetSum (side : Side) (targets : Map Target TargetState) : Nat :=
  total (fun _ t => side.of t.counters.up t.counters.down) targets

/-- The bytes of a UDP flow are those of its targets and of no known target. -/
structure Balanced (state : FlowState) : Prop where
  sum : ∀ side : Side, side.of state.counters.up state.counters.down =
    targetSum side state.packets.targets + side.of state.packets.unknown.up state.packets.unknown.down
  named : ∀ side : Side, side.of state.packets.unknownIdentified.up state.packets.unknownIdentified.down ≤
    side.of state.packets.unknown.up state.packets.unknown.down

theorem of_add {side : Side} {c : Counters} {up down : Nat} :
    side.of (c.add up down).up (c.add up down).down = side.of c.up c.down + side.of up down := by
  cases side <;> rfl

theorem balanced_new {epoch : Nat} {started : Bool} : Balanced (FlowState.new epoch started) := by
  constructor
  · intro side
    have nothing : targetSum side (FlowState.new epoch started).packets.targets = 0 := total_empty _
    rw [nothing]
    cases side <;> rfl
  · intro side
    exact Nat.le_refl _

variable {c : Scene} {cost now up down : Nat} {target : Target} {t : TargetState}

theorem markWebSeen_counts : (c.markWebSeen cost).state.counters = c.state.counters ∧ (c.markWebSeen cost).state.packets = c.state.packets := by
  unfold Scene.markWebSeen
  split
  · exact ⟨rfl,rfl⟩
  · exact ⟨rfl,rfl⟩

theorem recordUnknownWeb_balanced {identified : Bool} (balanced : Balanced c.state) :
    Balanced (recordUnknownWeb cost c up down identified).state := by
  unfold recordUnknownWeb
  split
  · obtain ⟨counters,packets⟩ := @markWebSeen_counts (c.count up down) cost
    constructor
    · intro side
      have before := balanced.sum side
      simp only [Scene.countUnknown,counters,packets]
      rw [of_add]
      change side.of (c.state.counters.add up down).up (c.state.counters.add up down).down = _
      rw [of_add,before]
      exact Nat.add_assoc _ _ _
    · intro side
      have before := balanced.named side
      simp only [Scene.countUnknown,packets]
      rw [of_add]
      cases identified with
      | false => exact Nat.le_trans before (Nat.le_add_right _ _)
      | true =>
        simp only [if_true]
        rw [of_add]
        exact Nat.add_le_add_right before _
  · exact balanced

/-- A target of the flow gets the bytes of a packet, and the flow counts them too. -/
theorem recordWebPacket_balanced (balanced : Balanced c.state) (held : ∀ side : Side, (c.targets[target]?).elim 0
      (fun t => side.of t.counters.up t.counters.down) = side.of t.counters.up t.counters.down) :
    Balanced ((recordWebPacket cost c t up down).1.setTargets
      ((recordWebPacket cost c t up down).1.targets.insert target (recordWebPacket cost c t up down).2)).state := by
  unfold recordWebPacket
  split
  · constructor
    · intro side
      have before := balanced.sum side
      have swapped := total_insert c.targets target t (fun _ t => side.of t.counters.up t.counters.down)
      rw [held side] at swapped
      have same : targetSum side (c.targets.insert target t) = targetSum side c.targets := Nat.add_right_cancel swapped
      change _ = targetSum side (c.targets.insert target t) + _
      rw [same]
      exact before
    · exact balanced.named
  · obtain ⟨counters,packets⟩ := @markWebSeen_counts (c.count up down) cost
    constructor
    · intro side
      have before := balanced.sum side
      have swapped := total_insert c.targets target (t.record up down) (fun _ t => side.of t.counters.up t.counters.down)
      have recorded : side.of (t.record up down).counters.up (t.record up down).counters.down =
          side.of t.counters.up t.counters.down + side.of up down := of_add
      rw [held side,recorded] at swapped
      simp only [Scene.setTargets,Scene.targets,counters,packets]
      change side.of (c.state.counters.add up down).up (c.state.counters.add up down).down =
        targetSum side (c.targets.insert target (t.record up down)) + side.of c.state.packets.unknown.up c.state.packets.unknown.down
      rw [of_add,before]
      change targetSum side (c.targets.insert target (t.record up down)) + _ = targetSum side c.targets + _ at swapped
      change targetSum side c.targets + _ + _ = _
      omega
    · intro side
      simp only [Scene.setTargets,packets]
      exact balanced.named side

theorem Balanced.pending {state : FlowState} {pending : Map Target PendingCounters} (balanced : Balanced state) :
    Balanced { state with packets := { state.packets with pending := pending } } := ⟨balanced.sum,balanced.named⟩

theorem recordPending_balanced (balanced : Balanced c.state) : Balanced (recordPending now target up down c).state := by
  unfold recordPending
  dsimp only
  split
  · exact balanced.pending
  · split
    · exact balanced.pending
    · split
      · exact balanced.pending
      · exact balanced.pending

variable {data : Metadata} {parsesIp : String → Bool}

theorem admitInitial_balanced (balanced : Balanced c.state) : Balanced (admitInitial data target c).state := by
  unfold admitInitial
  split
  · next missing =>
    simp only [Bool.and_eq_true,Option.isNone_iff_eq_none] at missing
    split
    · exact balanced
    · split
      · constructor
        · intro side
          have added := total_insert c.targets target ⟨Counters.zero,false,false,none⟩ (fun _ t => side.of t.counters.up t.counters.down)
          have zero : side.of Counters.zero.up Counters.zero.down = 0 := by cases side <;> rfl
          rw [missing.2,Option.elim_none,zero] at added
          have before := balanced.sum side
          change _ = targetSum side (c.targets.insert target ⟨Counters.zero,false,false,none⟩) + _
          rw [show targetSum side (c.targets.insert target ⟨Counters.zero,false,false,none⟩) = targetSum side c.targets from added]
          exact before
        · exact balanced.named
      · exact balanced
  · exact balanced

theorem recordPacket_balanced {destination : Option Target} {knownWeb : Option Bool} (balanced : Balanced c.state) :
    Balanced (recordPacket parsesIp data cost now destination up down knownWeb c).state := by
  unfold recordPacket
  split
  · split
    · exact balanced
    · exact balanced
  · next target _ =>
    have placed := @admitInitial_balanced c target data balanced
    dsimp only
    split
    · next t held =>
      refine recordWebPacket_balanced placed ?_
      intro side
      rw [held]
      rfl
    · split
      · exact recordUnknownWeb_balanced placed
      · exact recordPending_balanced placed

theorem dropTaken_state {pending : Option PendingCounters} : (dropTaken pending c).state = c.state := by
  unfold dropTaken
  split <;> rfl

theorem promotePendingUnknown_balanced {pending : Option PendingCounters} {identified : Bool} (balanced : Balanced c.state) :
    Balanced (promotePendingUnknown cost now pending identified c).state := by
  unfold promotePendingUnknown
  split
  · split
    · exact recordUnknownWeb_balanced balanced
    · exact balanced
  · exact balanced

theorem confirmTarget_balanced {domain : Option String} {web : String} {echPresent : Bool} {pending : Option PendingCounters}
    (balanced : Balanced c.state) (fresh : c.targets[target]? = none) :
    Balanced (confirmTarget cost now target domain web echPresent pending c).state := by
  have nothing (side : Side) : (c.targets[target]?).elim 0 (fun t => side.of t.counters.up t.counters.down) =
      side.of Counters.zero.up Counters.zero.down := by
    rw [fresh]
    cases side <;> rfl
  -- A target without traffic so far is one that a packet of no bytes has just reached.
  have unused : Balanced (c.setTargets (c.targets.insert target ⟨Counters.zero,false,false,some ⟨domain.getD "",web,echPresent⟩⟩)).state :=
    @recordWebPacket_balanced c cost 0 0 target ⟨Counters.zero,false,false,some ⟨domain.getD "",web,echPresent⟩⟩ balanced nothing
  unfold confirmTarget
  cases pending with
  | none => exact unused
  | some p =>
    dsimp only
    by_cases recent : p.fresh now = true
    · rw [if_pos recent]
      exact recordWebPacket_balanced balanced nothing
    · rw [if_neg recent]
      exact unused

theorem classifyTarget_balanced {domain : Option String} {appProtocol : String} {echPresent : Bool} (balanced : Balanced c.state) :
    Balanced (classifyTarget parsesIp data cost now target domain appProtocol echPresent c).2.state := by
  unfold classifyTarget
  split
  · exact balanced
  · next unknown =>
    simp only [Bool.or_eq_true,not_or,Bool.not_eq_true,Option.isSome_eq_false_iff,Option.isNone_iff_eq_none] at unknown
    have taken : Balanced (c.setPending (c.pending.erase target)).state := balanced.pending
    dsimp only [takePending]
    split
    · rw [dropTaken_state]
      exact taken
    · split
      · rw [dropTaken_state]
        exact promotePendingUnknown_balanced taken
      · split
        · rw [dropTaken_state]
          exact promotePendingUnknown_balanced taken
        · rw [dropTaken_state]
          exact confirmTarget_balanced taken unknown.1

theorem discardTarget_balanced (balanced : Balanced c.state) : Balanced (discardTarget target c).state := by
  unfold discardTarget
  dsimp only [takePending]
  rw [dropTaken_state]
  exact balanced.pending

/-! ### Visits of a UDP flow -/

theorem targetSum_drained {side : Side} {targets : Map Target TargetState} : targetSum side (targets.map (fun _ t => t.drained)) = 0 := by
  have mapped := total_map targets (fun _ t => side.of t.counters.up t.counters.down) (fun _ t => t.drained)
  refine mapped.trans (total_eq_zero targets ?_)
  intro entry _
  cases side <;> rfl

theorem drainPackets_balanced : Balanced (drainPackets now c).2.state := by
  constructor
  · intro side
    have nothing : targetSum side (drainPackets now c).2.state.packets.targets = 0 := targetSum_drained
    rw [nothing]
    cases side <;> rfl
  · intro side
    exact Nat.le_refl _

/-- Targets that are passed over have no bytes. -/
theorem filterMap_targetSample {side : Side} (entries : List (Target × TargetState)) :
    ((entries.filterMap targetSample).map (fun t => side.of t.up t.down)).sum =
      (entries.map (fun entry => side.of entry.2.counters.up entry.2.counters.down)).sum := by
  induction entries with
  | nil => rfl
  | cons entry rest ih =>
    rw [List.filterMap_cons,List.map_cons,List.sum_cons]
    unfold targetSample
    dsimp only
    split
    · next skipped =>
      split at skipped
      · cases skipped
      · next none_there =>
        simp only [not_or,not_not] at none_there
        have zero : side.of entry.2.counters.up entry.2.counters.down = 0 := by
          rw [none_there.1,none_there.2.1]
          cases side <;> rfl
        rw [zero,Nat.zero_add]
        exact ih
    · next taken =>
      split at taken
      · cases taken
        rw [List.map_cons,List.sum_cons]
        exact congrArg _ ih
      · cases taken

theorem sum_filter_le {side : Side} (test : TargetSample → Bool) (samples : List TargetSample) :
    ((samples.filter test).map (fun t => side.of t.up t.down)).sum ≤ (samples.map (fun t => side.of t.up t.down)).sum :=
  ((List.filter_sublist).map _).sum_le_sum (fun _ _ => Nat.zero_le _)

/-- The parts of a visit do not depend on the order in which the targets come. -/
theorem drainPackets_fair {order : List TargetSample} (udp : data.udp = true) (balanced : Balanced c.state)
    (perm : order.Perm (drainPackets now c).1.targets) : Fair parsesIp data { (drainPackets now c).1 with targets := order } := by
  have drained (side : Side) : (order.map (fun t => side.of t.up t.down)).sum = targetSum side c.state.packets.targets := by
    rw [(perm.map _).sum_eq]
    exact filterMap_targetSample _
  constructor
  · intro side
    unfold portions
    rw [if_pos udp]
    unfold portionSum
    rw [List.map_append,List.sum_append,List.map_map]
    change (order.map (fun t => side.of t.up t.down)).sum + (side.of c.state.packets.unknown.up c.state.packets.unknown.down + 0) =
      side.of c.state.counters.up c.state.counters.down
    rw [drained,balanced.sum]
    rfl
  · intro side
    unfold identified
    rw [if_pos udp]
    have within := @sum_filter_le side (fun t => (targetKey parsesIp data t).hasDomain) order
    rw [drained] at within
    have named := balanced.named side
    have sum := balanced.sum side
    change _ ≤ side.of c.state.counters.up c.state.counters.down
    cases side
    · exact Nat.le_trans (Nat.add_le_add within named) (Nat.le_of_eq sum.symm)
    · exact Nat.le_trans (Nat.add_le_add within named) (Nat.le_of_eq sum.symm)

theorem streamSample_fair {started : Bool} (tcp : data.udp = false) : Fair parsesIp data (streamSample up down started) := by
  constructor
  · intro side
    unfold portions portionSum
    rw [tcp]
    exact Nat.add_zero _
  · intro side
    unfold identified
    rw [tcp,if_neg Bool.false_ne_true]
    split
    · exact Nat.le_refl _
    · cases side <;> exact Nat.zero_le _

/-! ### Runs -/

structure Flow where
  data : Metadata
  cost : Nat
  webSeen : Bool
  state : FlowState

/-- The active epoch, the flows of the sampler and the bucket of the minute. -/
structure World where
  gauge : Gauge
  epoch : Nat
  flows : Map Nat Flow
  bucket : MinuteBucket
  /-- The number of dropped entries when the bucket was opened. -/
  opened : Nat

/-- An agent that has not seen any traffic. -/
def World.initial (epoch : Nat) (limits : TrafficAnalysisConfig) (minute : Int) : World :=
  ⟨{ Gauge.initial with limits := limits },epoch,∅,MinuteBucket.new minute,0⟩

inductive Event
  /-- The other tasks leave the gauge as they like, and reservations to come find the memory
      that its script says; dropped entries are only ever added to. -/
  | others (gauge : Gauge)
  | register (id : Nat) (data : Metadata) (cost : Nat)
  /-- `counters.add` of a TCP flow, in its two parts. -/
  | uplink (id bytes : Nat)
  | downlink (id bytes : Nat)
  | packet (id now : Nat) (target : Option Target) (up down : Nat) (knownWeb : Option Bool)
  | classify (id now : Nat) (target : Target) (domain : Option String) (appProtocol : String) (echPresent : Bool)
  | discard (id : Nat) (target : Target)
  /-- The sampler visits one flow, and forgets it if it is finished. The targets come in the
      order of a hash table. -/
  | visit (id now : Nat) (order : List TargetSample) (finished : Bool)
  /-- The minute is over: its rows have been sealed, and another bucket is opened. -/
  | turn (minute : Int)
  /-- A new session: every flow starts again, with some of its targets, or is let go, and so
      does the bucket. -/
  | renew (epoch : Nat) (retained : Nat → Bool) (kept : Nat → Target → Bool) (minute : Int)

/-- A task with the packet lock of a UDP flow; most of them check the epoch under it. -/
def World.act (w : World) (id : Nat) (fenced : Bool) (work : Metadata → Nat → Scene → Scene) : World :=
  match w.flows[id]? with
  | none => w
  | some flow =>
    if flow.data.udp = false || (fenced && (flow.state.packets.retired || flow.state.epoch ≠ w.epoch)) then w
    else
      let c := work flow.data flow.cost ⟨w.gauge,flow.webSeen,flow.state⟩
      { w with gauge := c.gauge, flows := w.flows.insert id { flow with webSeen := c.webSeen, state := c.state } }

/-- Bytes of a TCP flow of the epoch. -/
def World.stream (w : World) (id up down : Nat) : World :=
  match w.flows[id]? with
  | none => w
  | some flow =>
    if flow.data.udp || flow.state.epoch ≠ w.epoch then w
    else { w with flows := w.flows.insert id { flow with state := { flow.state with counters := flow.state.counters.add up down } } }

/-- What a visit takes out of a flow, and the flow after it. -/
def Flow.drain (flow : Flow) (now : Nat) (order : List TargetSample) (g : Gauge) : Sample × Gauge × Flow :=
  if flow.data.udp then
    let (sample,c) := drainPackets now ⟨g,flow.webSeen,flow.state⟩
    ({ sample with targets := order },c.gauge,{ flow with state := c.state })
  else
    (streamSample flow.state.counters.up flow.state.counters.down flow.state.started,g,
      { flow with state := { flow.state with counters := Counters.zero, started := false } })

/-- The targets that a visit is to come across. -/
def Flow.expected (flow : Flow) (now : Nat) (g : Gauge) : List TargetSample :=
  if flow.data.udp then (drainPackets now ⟨g,flow.webSeen,flow.state⟩).1.targets else []

/-- The targets of a flow that is let go release their part of the budget. -/
def Flow.retire (flow : Flow) (g : Gauge) : Gauge :=
  (g.dropPendings flow.state.packets.pending.size).dropTargets flow.state.packets.targets.size

variable (parsesIp) in
def World.visit (w : World) (id now : Nat) (order : List TargetSample) (finished : Bool) : World :=
  match w.flows[id]? with
  | none => w
  | some flow =>
    if flow.state.epoch ≠ w.epoch ∨ ¬order.Perm (flow.expected now w.gauge) then w
    else
      let (sample,g,flow) := flow.drain now order w.gauge
      let (g,bucket) := accountFlow parsesIp flow.data sample g w.bucket
      if finished then { w with gauge := flow.retire g, flows := w.flows.erase id, bucket := bucket }
      else { w with gauge := g, flows := w.flows.insert id flow, bucket := bucket }

/-- The state of a flow in the next session: targets are kept without their counters. -/
def FlowState.renewed (state : FlowState) (epoch : Nat) (kept : Target → Bool) : FlowState :=
  { FlowState.new epoch false with packets := { PacketState.default with
      targets := (state.packets.targets.filter (fun target _ => kept target)).map (fun _ t => t.drained) } }

variable (parsesIp) in
def World.step (w : World) : Event → World
  | .others gauge => { w with gauge := { gauge with droppedEntries := w.gauge.droppedEntries + gauge.droppedEntries } }
  | .register id data cost =>
    if (w.flows[id]?).isSome then w
    else { w with flows := w.flows.insert id ⟨data,cost,!data.udp,FlowState.new w.epoch (!data.udp)⟩ }
  | .uplink id bytes => w.stream id bytes 0
  | .downlink id bytes => w.stream id 0 bytes
  | .packet id now target up down knownWeb =>
    if up = 0 ∧ down = 0 then w
    else w.act id true (fun data cost c => recordPacket parsesIp data cost now target up down knownWeb c)
  | .classify id now target domain appProtocol echPresent =>
    if invalidClassification target domain appProtocol then { w with gauge := w.gauge.limited .invalidMetadata }
    else if unclassified appProtocol then w
    else w.act id true (fun data cost c => (classifyTarget parsesIp data cost now target domain appProtocol echPresent c).2)
  | .discard id target => w.act id false (fun _ _ c => discardTarget target c)
  | .visit id now order finished => w.visit parsesIp id now order finished
  | .turn minute => { w with bucket := MinuteBucket.new minute, opened := w.gauge.droppedEntries }
  | .renew epoch retained kept minute => { w with
      epoch := epoch
      flows := (w.flows.filter (fun id _ => retained id)).map (fun id flow => { flow with state := FlowState.renewed flow.state epoch (kept id) })
      bucket := MinuteBucket.new minute
      opened := w.gauge.droppedEntries }

variable (parsesIp) in
def World.run (w : World) (events : List Event) : World := events.foldl (fun w event => w.step parsesIp event) w

variable (parsesIp) in
/-- The rows that make way in a visit. -/
def World.visitEvicts (w : World) (id now : Nat) (order : List TargetSample) : List Eviction :=
  match w.flows[id]? with
  | none => []
  | some flow =>
    if flow.state.epoch ≠ w.epoch ∨ ¬order.Perm (flow.expected now w.gauge) then []
    else
      let (sample,g,flow) := flow.drain now order w.gauge
      accountFlowEvicts parsesIp flow.data sample g w.bucket

variable (parsesIp) in
/-- The rows that made way since the bucket was opened, after one more event. -/
def World.evictedAfter (w : World) (since : List Eviction) : Event → List Eviction
  | .visit id now order _ => since ++ w.visitEvicts parsesIp id now order
  | .turn _ => []
  | .renew .. => []
  | _ => since

variable (parsesIp) in
/-- The rows that made way in a run since its last bucket was opened, each with the rows there were before. -/
def World.evictions (w : World) (since : List Eviction) : List Event → List Eviction
  | [] => since
  | event :: rest => (w.step parsesIp event).evictions (w.evictedAfter parsesIp since event) rest

/-- What the rows of a bucket are to satisfy. -/
def Consistent (w : World) : Prop := ∀ (user : UserKey) (row : TrafficAnalysisUserMinute) (side : Side), w.bucket.users[user]? = some row →
  domainSum side w.bucket.domains user ≤ side.user row ∧ side.identified row ≤ side.user row ∧
    (w.gauge.droppedEntries ≤ w.opened → domainSum side w.bucket.domains user = side.user row)

/-- What holds between two steps; `since` has made way since the bucket was opened. -/
structure Sound (since : List Eviction) (w : World) : Prop where
  flows : ∀ (id : Nat) (flow : Flow), w.flows[id]? = some flow → flow.data.udp = true → Balanced flow.state
  kept : ∀ visited, Kept w.opened (since.any Eviction.strands) visited (fun _ => 0) w.gauge w.bucket
  bounded : Bounded w.bucket

variable {w : World} {since : List Eviction} {id : Nat}

/-- A new bucket has no rows to disagree. -/
theorem kept_new {g : Gauge} {visited : UserKey} {minute : Int} : Kept g.droppedEntries false visited (fun _ => 0) g (MinuteBucket.new minute) := by
  refine ⟨?_,?_,?_,?_,Nat.le_refl _⟩
  · intro user row side there
    simp [MinuteBucket.new] at there
  · intro _ _ user row side there
    simp [MinuteBucket.new] at there
  · intro lost
    cases lost
  · intro key row there
    simp [MinuteBucket.new] at there

theorem bounded_new {minute : Int} : Bounded (MinuteBucket.new minute) := by
  intro user row side there
  simp [MinuteBucket.new] at there

theorem Sound.initial {epoch : Nat} {limits : TrafficAnalysisConfig} {minute : Int} : Sound [] (World.initial epoch limits minute) := by
  refine ⟨?_,fun visited => @kept_new { Gauge.initial with limits := limits } visited minute,bounded_new⟩
  intro id flow there
  simp [World.initial] at there

/-! ### Entries dropped by the packet path -/

section Dropped
variable (g : Gauge)

@[simp] theorem reservePending_dropped (bytes : Nat) : (g.reservePending bytes).2.droppedEntries = g.droppedEntries := by
  unfold Gauge.reservePending
  have reserved := reserve_dropped { g with pendingMemory := g.pendingMemory + bytes } bytes
  split
  · split
    · next made =>
      rw [made] at reserved
      exact reserved
    · next made =>
      rw [made] at reserved
      exact reserved
  · rfl

@[simp] theorem reserveTarget_dropped : g.reserveTarget.2.droppedEntries = g.droppedEntries := by
  unfold Gauge.reserveTarget
  have reserved := reserve_dropped { g with targets := g.targets + 1 } TARGET_COST
  split
  · split
    · next made =>
      rw [made] at reserved
      exact reserved
    · next made =>
      rw [made] at reserved
      exact reserved
  · rfl

@[simp] theorem reservePendingTarget_dropped : g.reservePendingTarget.2.droppedEntries = g.droppedEntries := by
  unfold Gauge.reservePendingTarget
  have reserved := reservePending_dropped { g with pendingTargets := g.pendingTargets + 1 } TARGET_COST
  split
  · split
    · next made =>
      rw [made] at reserved
      exact reserved
    · next made =>
      rw [made] at reserved
      exact reserved
  · rfl

@[simp] theorem release_dropped (bytes : Nat) : (g.release bytes).droppedEntries = g.droppedEntries := rfl

@[simp] theorem settle_dropped (bytes : Nat) : (g.settle bytes).droppedEntries = g.droppedEntries := rfl

@[simp] theorem forgetTarget_dropped : g.forgetTarget.droppedEntries = g.droppedEntries := rfl

@[simp] theorem forgetPendingTarget_dropped : g.forgetPendingTarget.droppedEntries = g.droppedEntries := rfl

@[simp] theorem dropPending_dropped : g.dropPending.droppedEntries = g.droppedEntries := by
  simp [Gauge.dropPending,Gauge.releasePending]

@[simp] theorem dropTarget_dropped : g.dropTarget.droppedEntries = g.droppedEntries := by
  simp [Gauge.dropTarget]

@[simp] theorem dropPendings_dropped (n : Nat) : (g.dropPendings n).droppedEntries = g.droppedEntries := by
  unfold Gauge.dropPendings
  induction n generalizing g with
  | zero => rfl
  | succ n ih => rw [Function.iterate_succ_apply,ih,dropPending_dropped]

@[simp] theorem dropTargets_dropped (n : Nat) : (g.dropTargets n).droppedEntries = g.droppedEntries := by
  unfold Gauge.dropTargets
  induction n generalizing g with
  | zero => rfl
  | succ n ih => rw [Function.iterate_succ_apply,ih,dropTarget_dropped]

end Dropped

@[simp] theorem markWebSeen_dropped : (c.markWebSeen cost).gauge.droppedEntries = c.gauge.droppedEntries := by
  unfold Scene.markWebSeen
  split <;> rfl

@[simp] theorem recordUnknownWeb_dropped {identified : Bool} :
    (recordUnknownWeb cost c up down identified).gauge.droppedEntries = c.gauge.droppedEntries := by
  unfold recordUnknownWeb
  split
  · exact markWebSeen_dropped
  · rfl

@[simp] theorem recordWebPacket_dropped : (recordWebPacket cost c t up down).1.gauge.droppedEntries = c.gauge.droppedEntries := by
  unfold recordWebPacket
  split
  · rfl
  · exact markWebSeen_dropped

@[simp] theorem expirePending_dropped : (expirePending now c).gauge.droppedEntries = c.gauge.droppedEntries := dropPendings_dropped _ _

theorem recordPending_dropped : (recordPending now target up down c).gauge.droppedEntries = c.gauge.droppedEntries := by
  unfold recordPending
  dsimp only
  split
  · exact expirePending_dropped
  · split
    · exact expirePending_dropped
    · have reserved := reservePendingTarget_dropped (expirePending now c).gauge
      split
      · next made =>
        rw [made] at reserved
        exact reserved.trans expirePending_dropped
      · next made =>
        rw [made] at reserved
        exact reserved.trans expirePending_dropped

theorem admitInitial_dropped : (admitInitial data target c).gauge.droppedEntries = c.gauge.droppedEntries := by
  unfold admitInitial
  split
  · split
    · rfl
    · have reserved := reserveTarget_dropped c.gauge
      split
      · next made =>
        rw [made] at reserved
        exact reserved
      · next made =>
        rw [made] at reserved
        exact reserved
  · rfl

theorem recordPacket_dropped {destination : Option Target} {knownWeb : Option Bool} :
    (recordPacket parsesIp data cost now destination up down knownWeb c).gauge.droppedEntries = c.gauge.droppedEntries := by
  unfold recordPacket
  split
  · split <;> rfl
  · next target _ =>
    have placed := @admitInitial_dropped c target data
    dsimp only
    split
    · exact recordWebPacket_dropped.trans placed
    · split
      · exact recordUnknownWeb_dropped.trans placed
      · exact recordPending_dropped.trans placed

theorem dropTaken_dropped {pending : Option PendingCounters} : (dropTaken pending c).gauge.droppedEntries = c.gauge.droppedEntries := by
  unfold dropTaken
  split
  · exact dropPending_dropped _
  · rfl

theorem promotePendingUnknown_dropped {pending : Option PendingCounters} {identified : Bool} :
    (promotePendingUnknown cost now pending identified c).gauge.droppedEntries = c.gauge.droppedEntries := by
  unfold promotePendingUnknown
  split
  · split
    · exact recordUnknownWeb_dropped
    · rfl
  · rfl

theorem confirmTarget_dropped {domain : Option String} {web : String} {echPresent : Bool} {pending : Option PendingCounters} :
    (confirmTarget cost now target domain web echPresent pending c).gauge.droppedEntries = c.gauge.droppedEntries := by
  unfold confirmTarget
  cases pending with
  | none => rfl
  | some p =>
    dsimp only
    by_cases recent : p.fresh now = true
    · rw [if_pos recent]
      exact recordWebPacket_dropped
    · rw [if_neg recent]
      rfl

theorem classifyTarget_dropped {domain : Option String} {appProtocol : String} {echPresent : Bool} :
    (classifyTarget parsesIp data cost now target domain appProtocol echPresent c).2.gauge.droppedEntries = c.gauge.droppedEntries := by
  unfold classifyTarget
  split
  · rfl
  · dsimp only [takePending]
    split
    · exact dropTaken_dropped
    · split
      · exact dropTaken_dropped.trans promotePendingUnknown_dropped
      · have reserved := reserveTarget_dropped (c.setPending (c.pending.erase target)).gauge
        split
        · next made =>
          rw [made] at reserved
          exact (dropTaken_dropped.trans promotePendingUnknown_dropped).trans reserved
        · next made =>
          rw [made] at reserved
          exact (dropTaken_dropped.trans confirmTarget_dropped).trans reserved

/-! ### Steps -/

theorem Sound.act {fenced : Bool} {work : Metadata → Nat → Scene → Scene} (sound : Sound since w)
    (balanced : ∀ data cost c, Balanced c.state → Balanced (work data cost c).state)
    (undropped : ∀ data cost c, (work data cost c).gauge.droppedEntries = c.gauge.droppedEntries) : Sound since (w.act id fenced work) := by
  unfold World.act
  split
  · exact sound
  · next flow held =>
    split
    · exact sound
    · refine ⟨?_,?_,sound.bounded⟩
      · intro other found there udp
        rw [lookup_insert] at there
        split at there
        · cases there
          exact balanced _ _ _ (sound.flows id flow held udp)
        · exact sound.flows other found there udp
      · intro visited
        exact (sound.kept visited).gauge (undropped _ _ _)

theorem Sound.stream (sound : Sound since w) : Sound since (w.stream id up down) := by
  unfold World.stream
  split
  · exact sound
  · next flow held =>
    split
    · exact sound
    · next tcp =>
      refine ⟨?_,sound.kept,sound.bounded⟩
      intro other found there udp
      rw [lookup_insert] at there
      split at there
      · cases there
        simp_all
      · exact sound.flows other found there udp

theorem Sound.visit {order : List TargetSample} {finished : Bool} (sound : Sound since w) :
    Sound (since ++ w.visitEvicts parsesIp id now order) (w.visit parsesIp id now order finished) := by
  unfold World.visit World.visitEvicts
  split
  · rw [List.append_nil]
    exact sound
  · next flow held =>
    split
    · rw [List.append_nil]
      exact sound
    · next current =>
      simp only [not_or,not_not] at current
      have fair : Fair parsesIp flow.data (flow.drain now order w.gauge).1 ∧
          (flow.drain now order w.gauge).2.1.droppedEntries = w.gauge.droppedEntries ∧
          (flow.drain now order w.gauge).2.2.data = flow.data ∧
          (flow.data.udp = true → Balanced (flow.drain now order w.gauge).2.2.state) := by
        unfold Flow.drain
        cases udp : flow.data.udp with
        | true =>
          have expected : order.Perm (drainPackets now ⟨w.gauge,flow.webSeen,flow.state⟩).1.targets := by
            have perm := current.2
            unfold Flow.expected at perm
            rwa [if_pos udp] at perm
          rw [if_pos rfl]
          exact ⟨drainPackets_fair udp (sound.flows id flow held udp) expected,expirePending_dropped,rfl,fun _ => drainPackets_balanced⟩
        | false =>
          rw [if_neg Bool.false_ne_true]
          exact ⟨streamSample_fair udp,rfl,rfl,fun absurd => by cases absurd⟩
      rcases drained : flow.drain now order w.gauge with ⟨sample,g,after⟩
      rw [drained] at fair
      obtain ⟨fair,undropped,data,balanced⟩ := fair
      dsimp only at fair undropped data balanced ⊢
      rw [data]
      have kept (visited : UserKey) : Kept w.opened ((since ++ accountFlowEvicts parsesIp flow.data sample g w.bucket).any Eviction.strands) visited
          (fun _ => 0) (accountFlow parsesIp flow.data sample g w.bucket).1 (accountFlow parsesIp flow.data sample g w.bucket).2 := by
        rw [List.any_append]
        exact accountFlow_kept ((sound.kept visited).gauge undropped) fair
      have bounded := @accountFlow_bounded g w.bucket parsesIp flow.data sample sound.bounded fair
      split
      · refine ⟨?_,?_,bounded⟩
        · intro other found there udp
          rw [lookup_erase] at there
          split at there
          · cases there
          · exact sound.flows other found there udp
        · intro visited
          refine (kept visited).gauge ?_
          unfold Flow.retire
          rw [dropTargets_dropped,dropPendings_dropped]
      · refine ⟨?_,kept,bounded⟩
        intro other found there udp
        rw [lookup_insert] at there
        split at there
        · cases there
          exact balanced (data ▸ udp)
        · exact sound.flows other found there udp

theorem renewed_balanced {state : FlowState} {epoch : Nat} {kept : Target → Bool} : Balanced (FlowState.renewed state epoch kept) := by
  constructor
  · intro side
    have nothing : targetSum side (FlowState.renewed state epoch kept).packets.targets = 0 := targetSum_drained
    rw [nothing]
    cases side <;> rfl
  · intro side
    exact Nat.le_refl _

theorem Sound.step {event : Event} (sound : Sound since w) : Sound (w.evictedAfter parsesIp since event) (w.step parsesIp event) := by
  cases event with
  | others gauge =>
    refine ⟨sound.flows,?_,sound.bounded⟩
    intro visited
    have before := sound.kept visited
    refine ⟨before.within,?_,before.gap,before.owner,Nat.le_trans before.counted (Nat.le_add_right _ _)⟩
    intro same
    have counted := before.counted
    refine before.exact ?_
    change w.gauge.droppedEntries + gauge.droppedEntries = w.opened at same
    omega
  | register id data cost =>
    dsimp only [World.step]
    split
    · exact sound
    · refine ⟨?_,sound.kept,sound.bounded⟩
      intro other found there udp
      rw [lookup_insert] at there
      split at there
      · cases there
        exact balanced_new
      · exact sound.flows other found there udp
  | uplink id bytes => exact sound.stream
  | downlink id bytes => exact sound.stream
  | packet id now target up down knownWeb =>
    dsimp only [World.step]
    split
    · exact sound
    · exact sound.act (fun _ _ _ balanced => recordPacket_balanced balanced) (fun _ _ _ => recordPacket_dropped)
  | classify id now target domain appProtocol echPresent =>
    dsimp only [World.step]
    split
    · exact ⟨sound.flows,fun visited => (sound.kept visited).gauge rfl,sound.bounded⟩
    · split
      · exact sound
      · exact sound.act (fun _ _ _ balanced => classifyTarget_balanced balanced) (fun _ _ _ => classifyTarget_dropped)
  | discard id target => exact sound.act (fun _ _ _ balanced => discardTarget_balanced balanced) (fun _ _ _ => dropTaken_dropped)
  | visit id now order finished => exact sound.visit
  | turn minute => exact ⟨sound.flows,fun _ => kept_new,bounded_new⟩
  | renew epoch retained kept minute =>
    refine ⟨?_,fun _ => kept_new,bounded_new⟩
    intro id flow there udp
    simp only [World.step,Std.ExtTreeMap.getElem?_map,Option.map_eq_some_iff] at there
    obtain ⟨before,_,rfl⟩ := there
    exact renewed_balanced

theorem Sound.run {events : List Event} (sound : Sound since w) : Sound (w.evictions parsesIp since events) (w.run parsesIp events) := by
  induction events generalizing w since with
  | nil => exact sound
  | cons event rest ih => exact ih sound.step

/-- In every run the rows of the minute are consistent exactly as long as none of the rows with bytes that made way
    since the bucket was opened did so while its user had no unknown row, or entries have been counted as dropped since. -/
theorem minute_rows_consistent_iff (parsesIp : String → Bool) (epoch : Nat) (limits : TrafficAnalysisConfig) (minute : Int) (events : List Event) :
    let w := (World.initial epoch limits minute).run parsesIp events
    Consistent w ↔ ((∀ eviction ∈ (World.initial epoch limits minute).evictions parsesIp [] events, eviction.strands = false) ∨
      w.opened < w.gauge.droppedEntries) := by
  intro w
  have sound : Sound ((World.initial epoch limits minute).evictions parsesIp [] events) w := Sound.initial.run
  generalize (World.initial epoch limits minute).evictions parsesIp [] events = since at sound ⊢
  have whole_iff : (∀ eviction ∈ since, eviction.strands = false) ↔ since.any Eviction.strands = false := by simp
  rw [whole_iff]
  constructor
  · intro consistent
    by_contra neither
    simp only [not_or,Bool.not_eq_false,Nat.not_lt] at neither
    obtain ⟨user,row,side,there,gap⟩ := (sound.kept ⟨"","","",""⟩).gap neither.1
    have equal := (consistent user row side there).2.2 neither.2
    omega
  · intro condition user row side there
    have kept := sound.kept user
    refine ⟨?_,sound.bounded user row side there,?_⟩
    · have within := kept.within user row side there
      omega
    · intro undropped
      have counted := kept.counted
      rcases condition with whole | dropped
      · have exact := kept.exact (by omega) whole user row side there
        simpa using exact
      · omega

/-- Connections of two users. There is room for the row of each user, for the domain row of
    the first and for no unknown row, so that this domain row makes way for the unknown row
    of the second user. -/
def crowdedMinute : List Event :=
  let limits := defaultConfig true
  let full := limits.memoryMaxBytes
  let connection (user domain : String) : Metadata := ⟨"node",user,"vless","tcp",domain,"tls",false,none,none⟩
  [.register 1 (connection "alice" "example.org") 1120,
    .uplink 1 100,
    .others { Gauge.initial with limits := limits, others := [0,full,0] },
    .visit 1 0 [] false,
    .register 2 (connection "bob" "example.net") 1118,
    .uplink 2 200,
    .others { Gauge.initial with limits := limits, others := [0,full,full] },
    .visit 2 0 [] false]

theorem crowded_minute_loses_bytes : ¬Consistent ((World.initial 1 (defaultConfig true) 0).run (fun _ => false) crowdedMinute) := by
  intro consistent
  have there : ((World.initial 1 (defaultConfig true) 0).run (fun _ => false) crowdedMinute).bucket.users[(⟨"node","alice","vless","tcp"⟩ : UserKey)]? =
      some ⟨"alice",0,"vless","tcp",100,0,100,0,1,"node"⟩ := by decide +kernel
  have undropped : ((World.initial 1 (defaultConfig true) 0).run (fun _ => false) crowdedMinute).gauge.droppedEntries ≤
      ((World.initial 1 (defaultConfig true) 0).run (fun _ => false) crowdedMinute).opened := by decide +kernel
  have empty : domainSum .up ((World.initial 1 (defaultConfig true) 0).run (fun _ => false) crowdedMinute).bucket.domains
      ⟨"node","alice","vless","tcp"⟩ = 0 := by decide +kernel
  have equal := (consistent _ _ .up there).2.2 undropped
  rw [empty] at equal
  exact absurd equal (by decide)

end NodeAgent.AnalysisSampling
