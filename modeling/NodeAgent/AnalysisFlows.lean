import NodeAgent.AnalysisRows
import Mathlib.Logic.Function.Iterate

/-!
The counters of one analysed flow, and the budget that everything retained is charged to.
TCP flows have one pair of counters; the packets of a UDP flow are counted per target once
a target is known to carry web traffic, and wait for at most `PENDING_AGE` before that. The
functions here are what a task does while it holds the packet lock of the flow.
-/
namespace NodeAgent.AnalysisFlows
open NodeAgent.AnalysisRows NodeAgent.FiniteMap

def FLOW_COST : Nat := 1024
@[irreducible] def TARGET_COST : Nat := 1024
def PENDING_PACKETS : Nat := 8
def PENDING_BYTES : Nat := 64 * 1024
/-- In milliseconds. -/
def PENDING_AGE : Nat := 300
def MAX_PENDING_TARGETS : Nat := 1024

/-! ### The budget -/

/-- The limits in force and the counters that all tasks share. -/
structure Gauge where
  limits : TrafficAnalysisConfig
  memory : Nat
  pendingMemory : Nat
  targets : Nat
  pendingTargets : Nat
  limitedEvents : Nat
  droppedEntries : Nat
  drops : Reason → Nat
  /-- A subtraction took more than there was. -/
  underflow : Bool
  /-- The memory that other tasks leave before each reservation that is to come. -/
  others : List Nat

def Gauge.initial : Gauge := ⟨defaultConfig false,0,0,0,0,0,0,fun _ => 0,false,[]⟩

/-- `fetch_sub` on the memory. -/
def Gauge.release (g : Gauge) (bytes : Nat) : Gauge :=
  { g with memory := g.memory - bytes, underflow := g.underflow || g.memory < bytes }

/-- `fetch_sub` on the part that is pending. -/
def Gauge.settle (g : Gauge) (bytes : Nat) : Gauge :=
  { g with pendingMemory := g.pendingMemory - bytes, underflow := g.underflow || g.pendingMemory < bytes }

def Gauge.releasePending (g : Gauge) (bytes : Nat) : Gauge := (g.settle bytes).release bytes

/-- What the other tasks have done to the memory by now. -/
def Gauge.catchUp (g : Gauge) : Gauge := { g with memory := g.others.headD g.memory, others := g.others.tail }

def Gauge.reserve (g : Gauge) (bytes : Nat) : Bool × Gauge :=
  let g := g.catchUp
  if g.memory + bytes ≤ g.limits.memoryMaxBytes then (true,{ g with memory := g.memory + bytes }) else (false,g)

/-- Unclassified UDP storage shares a part of the budget. -/
def Gauge.pendingLimit (g : Gauge) : Nat := min (g.limits.memoryMaxBytes / 4) (16 * 1024 * 1024)

def Gauge.reservePending (g : Gauge) (bytes : Nat) : Bool × Gauge :=
  if g.pendingMemory + bytes ≤ g.pendingLimit then
    match { g with pendingMemory := g.pendingMemory + bytes }.reserve bytes with
    | (true,g) => (true,g)
    | (false,g) => (false,g.settle bytes)
  else (false,g)

def Gauge.reason (g : Gauge) (r : Reason) : Gauge := { g with drops := Function.update g.drops r (g.drops r + 1) }

def Gauge.limited (g : Gauge) (r : Reason) : Gauge := { g with limitedEvents := g.limitedEvents + 1 }.reason r

/-- `fetch_sub(1)` on the number of targets. -/
def Gauge.forgetTarget (g : Gauge) : Gauge := { g with targets := g.targets - 1, underflow := g.underflow || g.targets < 1 }

def Gauge.forgetPendingTarget (g : Gauge) : Gauge :=
  { g with pendingTargets := g.pendingTargets - 1, underflow := g.underflow || g.pendingTargets < 1 }

def Gauge.reserveTarget (g : Gauge) : Bool × Gauge :=
  if g.targets < g.limits.maxUdpTargets then
    match { g with targets := g.targets + 1 }.reserve TARGET_COST with
    | (true,g) => (true,g)
    | (false,g) => (false,g.forgetTarget.limited .budget)
  else (false,g.limited .targetLimit)

def Gauge.reservePendingTarget (g : Gauge) : Bool × Gauge :=
  if g.pendingTargets < min g.limits.maxUdpTargets MAX_PENDING_TARGETS then
    match { g with pendingTargets := g.pendingTargets + 1 }.reservePending TARGET_COST with
    | (true,g) => (true,g)
    | (false,g) => (false,g.forgetPendingTarget.limited .budget)
  else (false,g.limited .targetLimit)

/-- `Drop for TargetReservation`. -/
def Gauge.dropTarget (g : Gauge) : Gauge := g.forgetTarget.release TARGET_COST

/-- `Drop for PendingReservation`. -/
def Gauge.dropPending (g : Gauge) : Gauge := g.forgetPendingTarget.releasePending TARGET_COST

/-- So many targets go at once. -/
def Gauge.dropTargets (g : Gauge) (n : Nat) : Gauge := Gauge.dropTarget^[n] g

def Gauge.dropPendings (g : Gauge) (n : Nat) : Gauge := Gauge.dropPending^[n] g

/-! ### Flow states -/

structure Counters where
  up : Nat
  down : Nat
deriving DecidableEq

def Counters.zero : Counters := ⟨0,0⟩

def Counters.add (c : Counters) (up down : Nat) : Counters := ⟨c.up + up,c.down + down⟩

structure Classification where
  domain : String
  app : String
  echPresent : Bool
deriving DecidableEq

structure TargetState where
  counters : Counters
  started : Bool
  observed : Bool
  classification : Option Classification
deriving DecidableEq

structure PendingCounters where
  up : Nat
  down : Nat
  packets : Nat
  since : Nat
deriving DecidableEq

def PendingCounters.fresh (p : PendingCounters) (now : Nat) : Bool := now - p.since ≤ PENDING_AGE

def PendingCounters.record (p : PendingCounters) (now up down : Nat) : PendingCounters :=
  if !p.fresh now || p.packets ≥ PENDING_PACKETS then p
  else
    let remaining := PENDING_BYTES - (p.up + p.down)
    let acceptedUp := min up remaining
    { p with packets := p.packets + 1, up := p.up + acceptedUp, down := p.down + min down (remaining - acceptedUp) }

structure PacketState where
  retired : Bool
  targets : Map Target TargetState
  pending : Map Target PendingCounters
  unknown : Counters
  unknownIdentified : Counters

def PacketState.default : PacketState := ⟨false,∅,∅,Counters.zero,Counters.zero⟩

structure FlowState where
  epoch : Nat
  counters : Counters
  started : Bool
  packets : PacketState

def FlowState.new (epoch : Nat) (started : Bool) : FlowState := ⟨epoch,Counters.zero,started,PacketState.default⟩

/-- What a task with the packet lock of a flow works on. -/
structure Scene where
  gauge : Gauge
  webSeen : Bool
  state : FlowState

def Scene.targets (c : Scene) : Map Target TargetState := c.state.packets.targets

def Scene.pending (c : Scene) : Map Target PendingCounters := c.state.packets.pending

def Scene.setTargets (c : Scene) (targets : Map Target TargetState) : Scene :=
  { c with state := { c.state with packets := { c.state.packets with targets := targets } } }

def Scene.setPending (c : Scene) (pending : Map Target PendingCounters) : Scene :=
  { c with state := { c.state with packets := { c.state.packets with pending := pending } } }

def Scene.limited (c : Scene) (r : Reason) : Scene := { c with gauge := c.gauge.limited r }

/-- The flow leaves the pending part of the budget when it carries web traffic for the first
    time. -/
def Scene.markWebSeen (cost : Nat) (c : Scene) : Scene :=
  if c.webSeen then c
  else { c with gauge := c.gauge.settle cost, webSeen := true, state := { c.state with started := true } }

def Scene.count (c : Scene) (up down : Nat) : Scene :=
  { c with state := { c.state with counters := c.state.counters.add up down } }

/-- `packets.unknown.add`, and `unknown_identified.add` for a flow with a known domain. -/
def Scene.countUnknown (c : Scene) (up down : Nat) (identified : Bool) : Scene :=
  { c with state := { c.state with packets := { c.state.packets with
      unknown := c.state.packets.unknown.add up down
      unknownIdentified := if identified then c.state.packets.unknownIdentified.add up down else c.state.packets.unknownIdentified } } }

def recordUnknownWeb (cost : Nat) (c : Scene) (up down : Nat) (identified : Bool) : Scene :=
  if up ≠ 0 ∨ down ≠ 0 then ((c.count up down).markWebSeen cost).countUnknown up down identified else c

def TargetState.record (t : TargetState) (up down : Nat) : TargetState :=
  { t with counters := t.counters.add up down, observed := true, started := t.started || !t.observed }

def recordWebPacket (cost : Nat) (c : Scene) (t : TargetState) (up down : Nat) : Scene × TargetState :=
  if up = 0 ∧ down = 0 then (c,t) else ((c.count up down).markWebSeen cost,t.record up down)

/-- Expired entries go, with their reservations. -/
def expirePending (now : Nat) (c : Scene) : Scene :=
  let kept := c.pending.filter (fun _ p => p.fresh now)
  { c.setPending kept with gauge := c.gauge.dropPendings (c.pending.size - kept.size) }

/-- The target that the sniffer saw first carries web traffic. -/
def initialWeb (data : Metadata) (target : Target) : Bool :=
  data.sniffDestination = some target && (webProtocol data.appProtocol).isSome

variable (parsesIp : String → Bool) (data : Metadata) (cost now : Nat)

/-- A target that is known from the start gets its record with the first packet. -/
def admitInitial (target : Target) (c : Scene) : Scene :=
  if initialWeb data target && (c.targets[target]?).isNone then
    if c.targets.size ≥ c.gauge.limits.maxUdpTargetsPerSession then c.limited .targetLimit
    else match c.gauge.reserveTarget with
    | (true,g) => { c with gauge := g }.setTargets (c.targets.insert target ⟨Counters.zero,false,false,none⟩)
    | (false,g) => { c with gauge := g }
  else c

/-- Traffic of a target that nothing is known about. -/
def recordPending (target : Target) (up down : Nat) (c : Scene) : Scene :=
  let c := expirePending now c
  match c.pending[target]? with
  | some p => c.setPending (c.pending.insert target (p.record now up down))
  | none =>
    if c.pending.size ≥ c.gauge.limits.maxUdpTargetsPerSession then c.limited .targetLimit
    else match c.gauge.reservePendingTarget with
    | (true,g) => { c with gauge := g }.setPending (c.pending.insert target (PendingCounters.record ⟨0,0,0,now⟩ now up down))
    | (false,g) => { c with gauge := g }

/-- `record_packet`, once the epoch has been checked under the lock. -/
def recordPacket (target : Option Target) (up down : Nat) (knownWeb : Option Bool) (c : Scene) : Scene :=
  match target.filter validTarget with
  | none => if target.any (fun t => !validObservationString t.host) then c.limited .invalidMetadata else c
  | some target =>
    let c := admitInitial data target c
    match c.targets[target]? with
    | some t =>
      let (c,t) := recordWebPacket cost c t up down
      c.setTargets (c.targets.insert target t)
    | none =>
      if initialWeb data target || knownWeb.isSome then
        recordUnknownWeb cost c up down (knownWeb.getD false || hasDestinationDomain parsesIp target ||
          (initialWeb data target && !data.domain.isEmpty))
      else recordPending now target up down c

/-- The pending entry of a target is taken out. Its reservation goes when its counters have
    been used. -/
def takePending (target : Target) (c : Scene) : Option PendingCounters × Scene :=
  (c.pending[target]?,c.setPending (c.pending.erase target))

/-- A pending entry goes out of scope. -/
def dropTaken (pending : Option PendingCounters) (c : Scene) : Scene :=
  if pending.isSome then { c with gauge := c.gauge.dropPending } else c

/-- What was pending counts as web traffic of no known target. -/
def promotePendingUnknown (pending : Option PendingCounters) (identified : Bool) (c : Scene) : Scene :=
  match pending with
  | some p => if p.fresh now then recordUnknownWeb cost c p.up p.down identified else c
  | none => c

/-- A target becomes known, with what was pending for it. -/
def confirmTarget (target : Target) (domain : Option String) (web : String) (echPresent : Bool) (pending : Option PendingCounters) (c : Scene) : Scene :=
  let t : TargetState := ⟨Counters.zero,false,false,some ⟨domain.getD "",web,echPresent⟩⟩
  let (c,t) := match pending with
    | some p => if p.fresh now then recordWebPacket cost c t p.up p.down else (c,t)
    | none => (c,t)
  c.setTargets (c.targets.insert target t)

/-- What `classify_target` refuses before it takes the lock. -/
def invalidClassification (target : Target) (domain : Option String) (appProtocol : String) : Bool :=
  !validTarget target || domain.any (fun domain => !validObservationString domain) || (trimAscii appProtocol).utf8ByteSize > 64

/-- A protocol that says nothing. -/
def unclassified (appProtocol : String) : Bool :=
  (trimAscii appProtocol).isEmpty || eqIgnoreAsciiCase (trimAscii appProtocol) UNKNOWN

/-- `classify_target`, once the epoch has been checked under the lock. -/
def classifyTarget (target : Target) (domain : Option String) (appProtocol : String) (echPresent : Bool) (c : Scene) : Bool × Scene :=
  if (c.targets[target]?).isSome || initialWeb data target then (true,c)
  else
    let (pending,c) := takePending target c
    match webProtocol appProtocol with
    | none => (false,dropTaken pending c)
    | some web =>
      let identified := domain.any (fun domain => !domain.isEmpty) || hasDestinationDomain parsesIp target
      if c.targets.size ≥ c.gauge.limits.maxUdpTargetsPerSession then
        (true,dropTaken pending (promotePendingUnknown cost now pending identified (c.limited .targetLimit)))
      else match c.gauge.reserveTarget with
      | (false,g) => (true,dropTaken pending (promotePendingUnknown cost now pending identified { c with gauge := g }))
      | (true,g) => (true,dropTaken pending (confirmTarget cost now target domain web echPresent pending { c with gauge := g }))

/-- `discard_target` under the lock. -/
def discardTarget (target : Target) (c : Scene) : Scene :=
  let (pending,c) := takePending target c
  dropTaken pending c

/-! ### Sampling -/

structure TargetSample where
  target : Target
  classification : Option Classification
  up : Nat
  down : Nat
  started : Bool
deriving DecidableEq

/-- What one visit of the sampler takes out of a flow. -/
structure Sample where
  up : Nat
  down : Nat
  started : Bool
  targets : List TargetSample
  unknown : Counters
  unknownIdentified : Counters

def targetSample (entry : Target × TargetState) : Option TargetSample :=
  let t := entry.2
  if t.counters.up ≠ 0 ∨ t.counters.down ≠ 0 ∨ t.started then
    some ⟨entry.1,t.classification,t.counters.up,t.counters.down,t.started⟩
  else none

def TargetState.drained (t : TargetState) : TargetState := { t with counters := Counters.zero, started := false }

/-- The counters of a UDP flow, read and zeroed under its packet lock. -/
def drainPackets (c : Scene) : Sample × Scene :=
  let c := expirePending now c
  let state := c.state
  (⟨state.counters.up,state.counters.down,state.started,c.targets.toList.filterMap targetSample,state.packets.unknown,
      state.packets.unknownIdentified⟩,
    { c with state := { state with
        counters := Counters.zero
        started := false
        packets := { state.packets with
          targets := c.targets.map (fun _ t => t.drained)
          unknown := Counters.zero
          unknownIdentified := Counters.zero } } })

/-- What the sampler has read from a TCP flow. -/
def streamSample (up down : Nat) (started : Bool) : Sample := ⟨up,down,started,[],Counters.zero,Counters.zero⟩

end NodeAgent.AnalysisFlows
