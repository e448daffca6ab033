import NodeAgent.AnalysisBudget
import NodeAgent.AnalysisBatches

/-!
The collector of traffic analysis as a whole: its flows with the handles that keep them in
memory, the sessions of the panel, the bucket of the minute, the queue of batches and the
storage that the data path reserves. Every operation works on the counters of one gauge,
and whatever goes out of scope gives back what it had reserved.
-/
namespace NodeAgent.AnalysisCollector
open NodeAgent.AnalysisRows NodeAgent.AnalysisFlows NodeAgent.AnalysisMinutes NodeAgent.AnalysisBudget NodeAgent.AnalysisBatches
open NodeAgent.FiniteMap

/-! ### What is in memory -/

structure Flow where
  data : Metadata
  cost : Nat
  webSeen : Bool
  closed : Bool
  inflight : Nat
  /-- The wrappers and observations of the data path that hold the flow. -/
  handles : Nat
  state : Option FlowState

/-- A batch in the queue or with a sender. -/
structure QueuedBatch where
  message : TrafficAnalysisBatch
  cost : Nat
  completed : Bool

/-- Storage that the data path has reserved through a flow. -/
structure Storage where
  bytes : Nat
  pending : Bool

structure Collector where
  gauge : Gauge
  active : Nat
  epoch : Nat
  sessionOpen : Bool
  configured : Bool
  /-- The flows in memory. -/
  objects : Map Nat Flow
  registrations : List Nat
  flows : List Nat
  bucket : Option MinuteBucket
  queue : List QueuedBatch
  queueBytes : Nat
  /-- The batches that `next` has handed out, each with its number of handles. -/
  taken : List (QueuedBatch × Nat)
  storage : List Storage
  /-- The queue gave back more bytes than it had. -/
  underflow : Bool

def Collector.new : Collector := ⟨Gauge.initial,0,0,false,false,∅,[],[],none,[],0,[],[],false⟩

/-! ### Flows -/

/-- `Drop for Flow`, and the records of its state after it. -/
def Flow.dropped (f : Flow) (g : Gauge) : Gauge :=
  let g := if f.data.udp && !f.webSeen then g.releasePending f.cost else g.release f.cost
  match f.state with
  | some state => (g.dropPendings state.packets.pending.size).dropTargets state.packets.targets.size
  | none => g

/-- A flow that nobody holds any more is dropped. -/
def Collector.reap (s : Collector) (id : Nat) : Collector :=
  match s.objects[id]? with
  | none => s
  | some f =>
    if f.handles = 0 ∧ id ∉ s.registrations ∧ id ∉ s.flows then { s with gauge := f.dropped s.gauge, objects := s.objects.erase id }
    else s

/-- Everything but the epochs that a flow is updated with. -/
def Collector.setFlow (s : Collector) (id : Nat) (f : Flow) : Collector := { s with objects := s.objects.insert id f }

/-- The state of the flow is taken away, and what is pending with it. -/
def Collector.retire (s : Collector) (id : Nat) : Map Target TargetState × Collector :=
  match s.objects[id]? with
  | none => (∅,s)
  | some f =>
    match f.state with
    | none => (∅,s)
    | some state => (state.packets.targets,
        { s with gauge := s.gauge.dropPendings state.packets.pending.size }.setFlow id { f with state := none })

/-- The flow leaves the registry. -/
def Collector.unregister (s : Collector) (id : Nat) : Collector := ({ s with flows := s.flows.filter (· ≠ id) }).reap id

/-- A finished flow is retired, its targets are dropped and it leaves the registry. -/
def Collector.finish (s : Collector) (id : Nat) : Collector :=
  let (targets,s) := s.retire id
  { s with gauge := s.gauge.dropTargets targets.size }.unregister id

/-- A task with the packet lock of the current state of a UDP flow. -/
def Collector.act (s : Collector) (id epoch : Nat) (fenced : Bool) (work : Metadata → Nat → Scene → Scene) : Collector :=
  match s.objects[id]? with
  | none => s
  | some f =>
    match f.state with
    | none => s
    | some state =>
      if f.data.udp = false || state.epoch ≠ epoch || (fenced && (state.packets.retired || s.active ≠ state.epoch)) then s
      else
        let c := work f.data f.cost ⟨s.gauge,f.webSeen,state⟩
        { s with gauge := c.gauge }.setFlow id { f with webSeen := c.webSeen, state := some c.state }

/-! ### Registration -/

/-- The retained texts with the bytes that each may have. -/
def lengths (data : Metadata) : List (Nat × Nat) :=
  [(data.nodeId.utf8ByteSize,128),(data.userId.utf8ByteSize,128),(data.proxyProtocol.utf8ByteSize,64),(data.network.utf8ByteSize,16),
    (data.domain.utf8ByteSize,253),(data.appProtocol.utf8ByteSize,64)]

def hostBytes (target : Option Target) : Nat := (target.map (fun t => t.host.utf8ByteSize)).getD 0

def flowCost (data : Metadata) : Nat :=
  FLOW_COST + ((lengths data).map Prod.fst).sum + hostBytes data.destination + hostBytes data.sniffDestination

def validMetadata (data : Metadata) : Bool :=
  (lengths data).all (fun (length,limit) => length ≤ limit) && validObservationString data.domain &&
    data.destination.all (fun t => validObservationString t.host) && data.sniffDestination.all (fun t => validObservationString t.host)

/-- The flow is charged and stored, under an identity that nobody has used. -/
def Collector.enrol (s : Collector) (id : Nat) (data : Metadata) : Collector :=
  if (s.objects[id]?).isSome then s
  else
    match if data.udp then s.gauge.reservePending (flowCost data) else s.gauge.reserve (flowCost data) with
    | (false,g) => { s with gauge := g.limited .budget }
    | (true,g) => { s with
        gauge := g
        objects := s.objects.insert id ⟨data,flowCost data,!data.udp,false,0,1,some (FlowState.new s.active (!data.udp))⟩
        registrations := s.registrations ++ [id] }

/-- `register_at_epoch`. -/
def Collector.registerAtEpoch (s : Collector) (id expected : Nat) (data : Metadata) : Collector :=
  let web := webProtocol data.appProtocol
  let data := { data with appProtocol := web.getD data.appProtocol }
  if (!data.udp && web.isNone) || expected = 0 || expected ≠ s.active || data.userId.isEmpty || data.nodeId.isEmpty then s
  else if !validMetadata data then { s with gauge := s.gauge.limited .invalidMetadata }
  else s.enrol id data

def Collector.adoptRegistrations (s : Collector) : Collector := { s with flows := s.flows ++ s.registrations, registrations := [] }

/-! ### Batches -/

/-- `drop_batch`: the entries of a batch that is not completed count as dropped. -/
def dropBatch (g : Gauge) (batch : QueuedBatch) (reason : Reason) : Gauge :=
  if batch.completed then g else { g with droppedEntries := g.droppedEntries + entries batch.message }.reason reason

/-- The last handle of a batch goes, and `Drop for QueuedBatch` runs. -/
def dropHandle (g : Gauge) (batch : QueuedBatch) : Gauge := (dropBatch g batch .sessionReset).release batch.cost

/-- `enqueue` of a message with its encoded length. -/
def Collector.enqueue (s : Collector) (message : TrafficAnalysisBatch) (bytes : Nat) : Collector :=
  if entries message = 0 then s
  else
    let cost := batchCost message bytes
    let refuse (g : Gauge) (r : Reason) : Collector := { s with gauge := { g with droppedEntries := g.droppedEntries + entries message }.reason r }
    if bytes > s.gauge.limits.batchMaxBytes then refuse s.gauge .budget
    else if s.queueBytes + cost > s.gauge.limits.queueMaxBytes then refuse s.gauge .queueFull
    else match s.gauge.reserve cost with
    | (false,g) => refuse g .budget
    | (true,g) => { s with gauge := g, queue := s.queue ++ [⟨message,cost,false⟩], queueBytes := s.queueBytes + cost }

/-- `seal`: the rows of a minute go into messages, and their own cost is released. How the
    rows are packed is left open. -/
def Collector.seal (s : Collector) (messages : List (TrafficAnalysisBatch × Nat)) : Collector :=
  match s.bucket with
  | none => s
  | some bucket =>
    let s := messages.foldl (fun s message => s.enqueue message.1 message.2) { s with bucket := none }
    { s with gauge := s.gauge.release bucket.cost }

/-- A batch of the queue is dropped for a reason. -/
def discardBatch (reason : Reason) (g : Gauge) (batch : QueuedBatch) : Gauge :=
  dropHandle (dropBatch g batch reason) { batch with completed := true }

def Collector.discardBuffered (s : Collector) : Collector :=
  let s := match s.bucket with
    | none => s
    | some bucket =>
      let rows := bucket.users.size + bucket.domains.size
      let g := { s.gauge with droppedEntries := s.gauge.droppedEntries + rows }
      { s with bucket := none, gauge := (if rows > 0 then g.reason .sessionReset else g).release bucket.cost }
  { s with gauge := s.queue.foldl (discardBatch .sessionReset) s.gauge, queue := [], queueBytes := 0 }

/-- The batch in front leaves the queue. -/
def Collector.pop (s : Collector) (epoch : Nat) (take : QueuedBatch → Collector → Collector) : Collector :=
  if s.active ≠ epoch ∨ epoch = 0 then s
  else match s.queue with
  | [] => s
  | batch :: rest => take batch { s with
      queue := rest
      queueBytes := s.queueBytes - batch.cost
      underflow := s.underflow || s.queueBytes < batch.cost }

/-! ### Sessions -/

/-- A hash table is walked in an order of its own. -/
def inOrder {α : Type} [DecidableEq α] (order actual : List α) : List α := if order.Perm actual then order else actual

def Collector.beginSession (s : Collector) : Collector :=
  { s with active := 0, epoch := s.epoch + 1, sessionOpen := true, configured := false }.discardBuffered

/-- What is pending in a UDP flow is dropped. -/
def Collector.dropPending (s : Collector) (id : Nat) : Collector :=
  match s.objects[id]? with
  | none => s
  | some f =>
    match f.state with
    | none => s
    | some state =>
      if f.data.udp then
        { s with gauge := s.gauge.dropPendings state.packets.pending.size }.setFlow id
          { f with state := some { state with packets := { state.packets with pending := ∅ } } }
      else s

def Collector.pause (s : Collector) (epoch : Nat) (order : List Nat) : Collector :=
  if s.epoch ≠ epoch then s
  else
    let s := { s with sessionOpen := false, active := 0 }.adoptRegistrations.discardBuffered
    (inOrder order s.flows).foldl Collector.dropPending s

/-- A target of the last session is kept with its reservation, or goes when there are too many. -/
def migrateTarget (world : Gauge × Map Target TargetState) (entry : Target × TargetState) : Gauge × Map Target TargetState :=
  let (g,kept) := world
  if kept.size ≥ g.limits.maxUdpTargetsPerSession ∨ g.targets > g.limits.maxUdpTargets then ((g.limited .targetLimit).dropTarget,kept)
  else (g,kept.insert entry.1 entry.2.drained)

/-- One flow in `configure`: it leaves the registry, or starts again in the new epoch. -/
def Collector.migrate (epoch : Nat) (orders : Nat → List (Target × TargetState)) (s : Collector) (id : Nat) : Collector :=
  let (targets,s) := s.retire id
  match s.objects[id]? with
  | none => s
  | some f =>
    let config := s.gauge.limits
    if !config.enabled || f.closed || s.gauge.memory > config.memoryMaxBytes then
      let g := if config.enabled && !f.closed then s.gauge.limited .budget else s.gauge
      { s with gauge := g.dropTargets targets.size }.unregister id
    else
      let (g,kept) := (inOrder (orders id) targets.toList).foldl migrateTarget (s.gauge,∅)
      let fresh := FlowState.new epoch false
      { s with gauge := g }.setFlow id { f with state := some { fresh with packets := { fresh.packets with targets := kept } } }

def Collector.configure (s : Collector) (epoch : Nat) (config : Option TrafficAnalysisConfig) (order : List Nat)
    (orders : Nat → List (Target × TargetState)) : Collector :=
  if s.epoch ≠ epoch || !s.sessionOpen || s.configured then s
  else
    let config := normalizeConfig config
    let s := { s with configured := true, active := 0, gauge := { s.gauge with limits := config } }.adoptRegistrations
    let s := (inOrder order s.flows).foldl (Collector.migrate epoch orders) s
    { s with active := if config.enabled then epoch else 0 }

/-! ### Sampling -/

variable (parsesIp : String → Bool)

/-- What a visit takes out of a flow. -/
def Collector.drain (s : Collector) (id now : Nat) (f : Flow) (state : FlowState) (order : List TargetSample) : Sample × Collector :=
  if f.data.udp then
    let (sample,c) := drainPackets now ⟨s.gauge,f.webSeen,state⟩
    ({ sample with targets := inOrder order sample.targets },{ s with gauge := c.gauge }.setFlow id { f with state := some c.state })
  else
    (streamSample state.counters.up state.counters.down state.started,
      s.setFlow id { f with state := some { state with counters := Counters.zero, started := false } })

/-- What was taken out goes to the rows of the minute. -/
def Collector.account (s : Collector) (data : Metadata) (sample : Sample) (bucket : MinuteBucket) : Collector :=
  let (g,bucket) := accountFlow parsesIp data sample s.gauge bucket
  { s with gauge := g, bucket := some bucket }

def Collector.visit (now : Nat) (orders : Nat → List TargetSample) (s : Collector) (id : Nat) : Collector :=
  match s.objects[id]?, s.bucket with
  | some f, some bucket =>
    match f.state with
    | none => s
    | some state =>
      if state.epoch ≠ s.active then s
      else
        let finished := f.closed && f.inflight = 0
        let (sample,s) := s.drain id now f state (orders id)
        let s := s.account parsesIp f.data sample bucket
        if finished then s.finish id else s
  | _, _ => s

/-- Without a session only finished flows leave. -/
def Collector.sweep (s : Collector) (id : Nat) : Collector :=
  match s.objects[id]? with
  | none => s
  | some f => if f.closed && f.inflight = 0 then s.finish id else s

/-- `sample` in the UTC minute; clock reversal never reopens a bucket. -/
def Collector.sample (s : Collector) (now : Nat) (minute : Int) (messages : List (TrafficAnalysisBatch × Nat)) (order : List Nat)
    (orders : Nat → List TargetSample) : Collector :=
  let s := s.adoptRegistrations
  if s.active = 0 then (inOrder order s.flows).foldl Collector.sweep s
  else
    let s := if s.bucket.any (fun bucket => minute > bucket.minute) then s.seal messages else s
    let s := { s with bucket := some (s.bucket.getD (MinuteBucket.new minute)) }
    (inOrder order s.flows).foldl (Collector.visit parsesIp now orders) s

/-! ### Storage of the data path -/

/-- Whether a flow may have more storage. -/
def Collector.eligible (s : Collector) (f : Flow) (requireActive : Bool) : Bool :=
  !f.closed && f.state.isSome && (!requireActive || s.active ≠ 0)

/-- `try_reserve_flow_storage`; `lost` says that a disable or a close came between the
    reservation and the second check. -/
def Collector.tryReserve (s : Collector) (id bytes : Nat) (requireActive pending lost : Bool) : Collector :=
  match s.objects[id]? with
  | none => s
  | some f =>
    if !s.eligible f requireActive then s
    else match if pending then s.gauge.reservePending bytes else s.gauge.reserve bytes with
    | (false,g) => { s with gauge := g.limited .budget }
    | (true,g) =>
      if lost then { s with gauge := if pending then g.releasePending bytes else g.release bytes }
      else { s with gauge := g, storage := ⟨bytes,pending⟩ :: s.storage }

/-- `release_storage`, `release_pending_storage` and `release_sniff`. -/
def Collector.releaseStorage (s : Collector) (k : Nat) : Collector :=
  match s.storage[k]? with
  | none => s
  | some held => { s with
      gauge := if held.pending then s.gauge.releasePending held.bytes else s.gauge.release held.bytes
      storage := s.storage.eraseIdx k }

def Collector.promotePendingStorage (s : Collector) (k : Nat) : Collector :=
  match s.storage[k]? with
  | none => s
  | some held =>
    if held.pending then { s with gauge := s.gauge.settle held.bytes, storage := s.storage.set k { held with pending := false } } else s

/-! ### Operations -/

inductive Operation
  | register (id expected : Nat) (data : Metadata)
  /-- Another wrapper or observation holds the flow. -/
  | hold (id : Nat)
  | drop (id : Nat)
  | beginToken (id : Nat)
  | finishToken (id epoch now : Nat) (target : Option Target) (up down : Nat) (knownWeb : Option Bool)
  /-- One packet of `done_packet_batch`. -/
  | packet (id epoch now : Nat) (target : Target) (up down : Nat)
  | cancelToken (id epoch : Nat)
  | close (id : Nat)
  | classifyTarget (id epoch now : Nat) (target : Target) (domain : Option String) (appProtocol : String) (echPresent : Bool)
  | discardTarget (id epoch : Nat) (target : Target)
  | tryReserve (id bytes : Nat) (requireActive pending lost : Bool)
  | releaseStorage (k : Nat)
  | promotePendingStorage (k : Nat)
  | beginSession
  | pause (epoch : Nat) (order : List Nat)
  | configure (epoch : Nat) (config : Option TrafficAnalysisConfig) (order : List Nat) (orders : Nat → List (Target × TargetState))
  | sample (now : Nat) (minute : Int) (messages : List (TrafficAnalysisBatch × Nat)) (order : List Nat) (orders : Nat → List TargetSample)
  /-- `next` drops the batch in front, whose time is over. -/
  | expire (epoch : Nat)
  /-- `next` hands out the batch in front. -/
  | next (epoch : Nat)
  | complete (k : Nat) (sent : Bool)
  | dropBatch (k : Nat) (reason : Reason)
  | cloneHandle (k : Nat)
  | dropHandle (k : Nat)

/-- Something about a flow in memory changes that nothing is charged for. -/
def Collector.touch (s : Collector) (id : Nat) (f : Flow → Flow) : Collector :=
  match s.objects[id]? with
  | none => s
  | some flow => s.setFlow id (f flow)

/-- `finish_observation` without the token. -/
def Collector.observe (s : Collector) (id epoch now : Nat) (target : Option Target) (up down : Nat) (knownWeb : Option Bool) : Collector :=
  match s.objects[id]? with
  | none => s
  | some f =>
    if f.data.udp then
      if up = 0 ∧ down = 0 then s
      else s.act id epoch true (fun data cost c => recordPacket parsesIp data cost now target up down knownWeb c)
    else match f.state with
    | none => s
    | some state =>
      if state.epoch ≠ epoch || s.active ≠ epoch then s
      else s.setFlow id { f with state := some { state with counters := state.counters.add up down } }

/-- A handle of a batch that was handed out is let go. -/
def Collector.dropTaken (s : Collector) (k : Nat) : Collector :=
  match s.taken[k]? with
  | none => s
  | some (batch,handles) =>
    if handles ≤ 1 then { s with gauge := dropHandle s.gauge batch, taken := s.taken.eraseIdx k }
    else { s with taken := s.taken.set k (batch,handles - 1) }

/-- A batch that was handed out is settled. -/
def Collector.settle (s : Collector) (k : Nat) (count : Gauge → QueuedBatch → Gauge) : Collector :=
  match s.taken[k]? with
  | none => s
  | some (batch,handles) => { s with gauge := count s.gauge batch, taken := s.taken.set k ({ batch with completed := true },handles) }

def step (s : Collector) : Operation → Collector
  | .register id expected data => s.registerAtEpoch id expected data
  | .hold id => s.touch id (fun f => { f with handles := f.handles + 1 })
  | .drop id => (s.touch id (fun f => { f with handles := f.handles - 1 })).reap id
  | .beginToken id => s.touch id (fun f =>
      if f.closed || f.state.all (fun state => state.epoch = 0 || state.epoch ≠ s.active) then f else { f with inflight := f.inflight + 1 })
  | .finishToken id epoch now target up down knownWeb =>
    if epoch = 0 then s
    else (s.observe parsesIp id epoch now target up down knownWeb).touch id (fun f => { f with inflight := f.inflight - 1 })
  | .packet id epoch now target up down =>
    if epoch = 0 ∨ (up = 0 ∧ down = 0) then s
    else s.act id epoch true (fun data cost c => recordPacket parsesIp data cost now (some target) up down none c)
  | .cancelToken id epoch => if epoch = 0 then s else s.touch id (fun f => { f with inflight := f.inflight - 1 })
  | .close id => s.touch id (fun f => { f with closed := true })
  | .classifyTarget id epoch now target domain appProtocol echPresent =>
    if epoch = 0 then s
    else if invalidClassification target domain appProtocol then { s with gauge := s.gauge.limited .invalidMetadata }
    else if unclassified appProtocol then s
    else s.act id epoch true (fun data cost c => (AnalysisFlows.classifyTarget parsesIp data cost now target domain appProtocol echPresent c).2)
  | .discardTarget id epoch target => s.act id epoch false (fun _ _ c => AnalysisFlows.discardTarget target c)
  | .tryReserve id bytes requireActive pending lost => s.tryReserve id bytes requireActive pending lost
  | .releaseStorage k => s.releaseStorage k
  | .promotePendingStorage k => s.promotePendingStorage k
  | .beginSession => s.beginSession
  | .pause epoch order => s.pause epoch order
  | .configure epoch config order orders => s.configure epoch config order orders
  | .sample now minute messages order orders => s.sample parsesIp now minute messages order orders
  | .expire epoch => s.pop epoch (fun batch s => { s with gauge := discardBatch .expired s.gauge batch })
  | .next epoch => s.pop epoch (fun batch s => { s with taken := s.taken ++ [(batch,1)] })
  | .complete k sent => s.settle k (fun g batch => if sent then g else AnalysisCollector.dropBatch g batch .sendFailed)
  | .dropBatch k reason => s.settle k (fun g batch => AnalysisCollector.dropBatch g batch reason)
  | .cloneHandle k =>
    match s.taken[k]? with
    | none => s
    | some (batch,handles) => { s with taken := s.taken.set k (batch,handles + 1) }
  | .dropHandle k => s.dropTaken k

end NodeAgent.AnalysisCollector
