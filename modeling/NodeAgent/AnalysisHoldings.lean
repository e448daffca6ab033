import NodeAgent.AnalysisCollector

/-!
What the collector holds. The memory in use is the sum over everything alive, the pending
part of it belongs to flows and targets that have not been classified and to storage that
has not been promoted, and no operation ever gives back more than it had.
-/
namespace NodeAgent.AnalysisCollector
open NodeAgent.AnalysisRows NodeAgent.AnalysisFlows NodeAgent.AnalysisMinutes NodeAgent.AnalysisBudget NodeAgent.AnalysisBatches
open NodeAgent.FiniteMap

/-! ### What is held -/

/-- The confirmed targets of a flow. -/
def Flow.targets (f : Flow) : Nat := f.state.elim 0 (fun state => state.packets.targets.size)

def Flow.pendings (f : Flow) : Nat := f.state.elim 0 (fun state => state.packets.pending.size)

def Flow.memory (f : Flow) : Nat := f.cost + TARGET_COST * (f.targets + f.pendings)

/-- The part of it that is pending. -/
def Flow.pending (f : Flow) : Nat := (if f.data.udp && !f.webSeen then f.cost else 0) + TARGET_COST * f.pendings

/-- The memory of everything that is alive. -/
def Collector.held (s : Collector) : Nat :=
  total (fun _ f => f.memory) s.objects + (s.storage.map Storage.bytes).sum + s.bucket.elim 0 MinuteBucket.cost +
    (s.queue.map QueuedBatch.cost).sum + (s.taken.map (fun entry => entry.1.cost)).sum

/-- What of it has not been promoted. -/
def Storage.waiting (held : Storage) : Nat := if held.pending then held.bytes else 0

def Collector.heldPending (s : Collector) : Nat :=
  total (fun _ f => f.pending) s.objects + (s.storage.map Storage.waiting).sum

def Collector.liveTargets (s : Collector) : Nat := total (fun _ f => f.targets) s.objects

def Collector.livePendings (s : Collector) : Nat := total (fun _ f => f.pendings) s.objects

/-- The gauge is exact, next to some memory and some targets that an operation has at hand. -/
structure Holding (bytes targets : Nat) (s : Collector) : Prop where
  gauge : Exact (s.held + bytes) s.heldPending (s.liveTargets + targets) s.livePendings s.gauge
  queueBytes : s.queueBytes = (s.queue.map QueuedBatch.cost).sum
  bucket : ∀ b, s.bucket = some b → b.cost = USER_COST * b.users.size + DOMAIN_COST * b.domains.size ∧ b.underflow = false
  clean : s.underflow = false

/-- What holds between two operations. -/
def Sound (s : Collector) : Prop := Holding 0 0 s

variable {s : Collector} {id bytes targets now : Nat} {f f' : Flow} {g' : Gauge}

theorem sound_new : Sound Collector.new := by
  refine ⟨?_,rfl,?_,rfl⟩
  · have empty (amount : Nat → Flow → Nat) : total amount Collector.new.objects = 0 := total_empty amount
    refine ⟨?_,?_,?_,?_,rfl,rfl⟩
    · simp only [Collector.held,empty]
      rfl
    · simp only [Collector.heldPending,empty]
      rfl
    · simp only [Collector.liveTargets,empty]
      rfl
    · simp only [Collector.livePendings,empty]
      rfl
  · intro b there
    cases there

/-- Nothing is held by the counters of events. -/
theorem Holding.adjust (holding : Holding bytes targets s) (same : ∀ m p t q, Exact m p t q s.gauge → Exact m p t q g') :
    Holding bytes targets { s with gauge := g' } :=
  ⟨same _ _ _ _ holding.gauge,holding.queueBytes,holding.bucket,holding.clean⟩

/-- A flow changes together with what is charged for it. -/
theorem Holding.replace {bytes' targets' : Nat} (holding : Holding bytes targets s) (held : s.objects[id]? = some f)
    (charged : ∀ m p t q, Exact (m + f.memory + bytes) (p + f.pending) (t + f.targets + targets) (q + f.pendings) s.gauge →
      Exact (m + f'.memory + bytes') (p + f'.pending) (t + f'.targets + targets') (q + f'.pendings) g') : Holding bytes' targets' ({ s with gauge := g' }.setFlow id f') := by
  have before (amount : Nat → Flow → Nat) := total_erase amount held
  have after (amount : Nat → Flow → Nat) := total_insert_erase s.objects id f' amount
  refine ⟨?_,holding.queueBytes,holding.bucket,holding.clean⟩
  · have exact := charged (total (fun _ f => f.memory) (s.objects.erase id) + (s.storage.map Storage.bytes).sum +
        s.bucket.elim 0 MinuteBucket.cost + (s.queue.map QueuedBatch.cost).sum + (s.taken.map (fun entry => entry.1.cost)).sum)
      (total (fun _ f => f.pending) (s.objects.erase id) + (s.storage.map Storage.waiting).sum)
      (total (fun _ f => f.targets) (s.objects.erase id)) (total (fun _ f => f.pendings) (s.objects.erase id))
    refine (exact (holding.gauge.congr ?_ ?_ ?_ ?_)).congr ?_ ?_ ?_ ?_
    · simp only [Collector.held,before]
      omega
    · simp only [Collector.heldPending,before]
      omega
    · simp only [Collector.liveTargets,before]
      omega
    · simp only [Collector.livePendings,before]
      omega
    · simp only [Collector.held,Collector.setFlow,after]
      omega
    · simp only [Collector.heldPending,Collector.setFlow,after]
      omega
    · simp only [Collector.liveTargets,Collector.setFlow,after]
      omega
    · simp only [Collector.livePendings,Collector.setFlow,after]
      omega

/-- A flow goes, with everything that was charged for it. -/
theorem Holding.remove (holding : Holding bytes targets s) (held : s.objects[id]? = some f)
    (released : ∀ m p t q, Exact (m + f.memory) (p + f.pending) (t + f.targets) (q + f.pendings) s.gauge → Exact m p t q g') :
    Holding bytes targets { s with gauge := g', objects := s.objects.erase id } := by
  have before (amount : Nat → Flow → Nat) := total_erase amount held
  refine ⟨?_,holding.queueBytes,holding.bucket,holding.clean⟩
  · refine released _ _ _ _ (holding.gauge.congr ?_ ?_ ?_ ?_)
    · simp only [Collector.held,before]
      omega
    · simp only [Collector.heldPending,before]
      omega
    · simp only [Collector.liveTargets,before]
      omega
    · simp only [Collector.livePendings,before]
      omega

/-- A new flow takes what was reserved for it. -/
theorem Holding.insert (holding : Holding bytes targets s) (absent : s.objects[id]? = none)
    (reserved : ∀ m p t q, Exact m p t q s.gauge → Exact (m + f.memory) (p + f.pending) (t + f.targets) (q + f.pendings) g') :
    Holding bytes targets ({ s with gauge := g' }.setFlow id f) := by
  have after (amount : Nat → Flow → Nat) : total amount (s.objects.insert id f) = amount id f + total amount s.objects := by
    rw [total_insert_erase,erase_of_unheld absent]
  refine ⟨?_,holding.queueBytes,holding.bucket,holding.clean⟩
  · refine (reserved _ _ _ _ holding.gauge).congr ?_ ?_ ?_ ?_
    · simp only [Collector.held,Collector.setFlow,after]
      omega
    · simp only [Collector.heldPending,Collector.setFlow,after]
      omega
    · simp only [Collector.liveTargets,Collector.setFlow,after]
      omega
    · simp only [Collector.livePendings,Collector.setFlow,after]
      omega

/-! ### Flows keep the gauge exact -/

/-- The parts of the collector that nothing is charged for. -/
theorem Holding.frame {active epoch : Nat} {sessionOpen configured : Bool} {registrations flows : List Nat} (holding : Holding bytes targets s) :
    Holding bytes targets { s with
      active := active
      epoch := epoch
      sessionOpen := sessionOpen
      configured := configured
      registrations := registrations
      flows := flows } :=
  ⟨holding.gauge,holding.queueBytes,holding.bucket,holding.clean⟩

theorem dropped_exact {m p t q : Nat} {g : Gauge}
    (exact : Exact (m + f.memory) (p + f.pending) (t + f.targets) (q + f.pendings) g) : Exact m p t q (f.dropped g) := by
  have released : Exact (m + TARGET_COST * (f.targets + f.pendings)) (p + TARGET_COST * f.pendings) (t + f.targets) (q + f.pendings)
      (if f.data.udp && !f.webSeen then g.releasePending f.cost else g.release f.cost) := by
    unfold Flow.memory Flow.pending at exact
    split
    · next waiting =>
      rw [if_pos waiting] at exact
      exact Exact.releasePending (exact.congr (by omega) (by omega) rfl rfl)
    · next classified =>
      rw [if_neg classified] at exact
      exact Exact.release (exact.congr (by omega) (by omega) rfl rfl)
  unfold Flow.dropped
  dsimp only
  generalize (if f.data.udp && !f.webSeen then g.releasePending f.cost else g.release f.cost) = g' at released ⊢
  cases state : f.state with
  | none =>
    simp only [Flow.targets,Flow.pendings,state,Option.elim_none] at released
    exact released
  | some state =>
    simp only [Flow.targets,Flow.pendings,state,Option.elim_some,Nat.mul_add] at released
    exact Exact.dropTargets (Exact.dropPendings (released.congr (by omega) rfl rfl rfl))

theorem Holding.reap (holding : Holding bytes targets s) : Holding bytes targets (s.reap id) := by
  unfold Collector.reap
  split
  · exact holding
  · next f held =>
    split
    · exact holding.remove held (fun _ _ _ _ exact => dropped_exact exact)
    · exact holding

theorem Holding.unregister (holding : Holding bytes targets s) : Holding bytes targets (s.unregister id) :=
  Holding.reap ⟨holding.gauge,holding.queueBytes,holding.bucket,holding.clean⟩

/-- The targets of a flow that is retired are at hand. -/
theorem Sound.retire (sound : Sound s) :
    Holding (TARGET_COST * (s.retire id).1.size) (s.retire id).1.size (s.retire id).2 := by
  have nothing : Holding (TARGET_COST * (∅ : Map Target TargetState).size) (∅ : Map Target TargetState).size s := sound
  unfold Collector.retire
  cases held : s.objects[id]? with
  | none => exact nothing
  | some f =>
    dsimp only
    cases state : f.state with
    | none => exact nothing
    | some state' =>
      refine Holding.replace sound held ?_
      intro m p t q exact
      refine Exact.dropPendings (exact.congr ?_ ?_ ?_ ?_)
      · simp only [Flow.memory,Flow.targets,Flow.pendings,state,Option.elim_some,Option.elim_none,Nat.mul_add]
        omega
      · simp only [Flow.pending,Flow.pendings,state,Option.elim_some,Option.elim_none]
        omega
      · simp only [Flow.targets,state,Option.elim_some,Option.elim_none]
        omega
      · simp only [Flow.pendings,state,Option.elim_some,Option.elim_none]
        omega

theorem Sound.finish (sound : Sound s) : Sound (s.finish id) := by
  have retired := @Sound.retire s id sound
  unfold Collector.finish
  generalize s.retire id = result at retired
  obtain ⟨targets,s'⟩ := result
  refine Holding.unregister (s := { s' with gauge := s'.gauge.dropTargets targets.size }) ⟨?_,retired.queueBytes,retired.bucket,retired.clean⟩
  exact Exact.dropTargets retired.gauge

/-- What a UDP flow is charged, as the packet path sees it. -/
theorem charged_iff {m p t q : Nat} {g : Gauge} {state : FlowState} (udp : f.data.udp = true) (stated : f.state = some state) :
    Charged m p t q f.cost ⟨g,f.webSeen,state⟩ ↔ Exact (m + f.memory) (p + f.pending) (t + f.targets) (q + f.pendings) g := by
  have pending : (if f.data.udp && !f.webSeen then f.cost else 0) = if f.webSeen then 0 else f.cost := by
    rw [udp]
    cases f.webSeen <;> rfl
  unfold Charged Flow.memory Flow.pending Flow.targets Flow.pendings
  rw [stated,pending,← Nat.add_assoc,← Nat.add_assoc]
  exact Iff.rfl

/-- The packet path of one flow. -/
theorem Sound.scene {state : FlowState} {c : Scene} (sound : Sound s) (held : s.objects[id]? = some f) (udp : f.data.udp = true)
    (stated : f.state = some state)
    (charged : ∀ m p t q, Charged m p t q f.cost ⟨s.gauge,f.webSeen,state⟩ → Charged m p t q f.cost c) :
    Sound ({ s with gauge := c.gauge }.setFlow id { f with webSeen := c.webSeen, state := some c.state }) := by
  refine Holding.replace sound held ?_
  intro m p t q exact
  have after := charged m p t q ((charged_iff udp stated).mpr exact)
  exact (charged_iff (f := { f with webSeen := c.webSeen, state := some c.state }) udp rfl).mp after

theorem Sound.act {epoch : Nat} {fenced : Bool} {work : Metadata → Nat → Scene → Scene} (sound : Sound s)
    (charged : ∀ data cost c m p t q, Charged m p t q cost c → Charged m p t q cost (work data cost c)) : Sound (s.act id epoch fenced work) := by
  unfold Collector.act
  split
  · exact sound
  · next f held =>
    split
    · exact sound
    · next state stated =>
      split
      · exact sound
      · next current =>
        have udp : f.data.udp = true := by
          cases udp : f.data.udp with
          | true => rfl
          | false => simp [udp] at current
        exact sound.scene held udp stated (charged f.data f.cost _)

/-- Something about a flow that nothing is charged for. -/
theorem Sound.touch {change : Flow → Flow} (sound : Sound s)
    (same : ∀ f, (change f).data = f.data ∧ (change f).cost = f.cost ∧ (change f).webSeen = f.webSeen ∧ (change f).state = f.state) :
    Sound (s.touch id change) := by
  unfold Collector.touch
  split
  · exact sound
  · next f held =>
    obtain ⟨data,cost,webSeen,state⟩ := same f
    refine Holding.replace sound held ?_
    intro m p t q exact
    refine exact.congr ?_ ?_ ?_ ?_
    · simp only [Flow.memory,Flow.targets,Flow.pendings,cost,state]
    · simp only [Flow.pending,Flow.pendings,data,cost,webSeen,state]
    · simp only [Flow.targets,state]
    · simp only [Flow.pendings,state]

/-- The counters of a TCP flow are not charged for. -/
theorem Sound.recount {state state' : FlowState} (sound : Sound s) (held : s.objects[id]? = some f) (stated : f.state = some state)
    (same : state'.packets = state.packets) : Sound (s.setFlow id { f with state := some state' }) := by
  refine Holding.replace sound held ?_
  intro m p t q exact
  refine exact.congr ?_ ?_ ?_ ?_
  · simp only [Flow.memory,Flow.targets,Flow.pendings,stated,Option.elim_some,same]
  · simp only [Flow.pending,Flow.pendings,stated,Option.elim_some,same]
  · simp only [Flow.targets,stated,Option.elim_some,same]
  · simp only [Flow.pendings,stated,Option.elim_some,same]

variable {parsesIp : String → Bool}

theorem Sound.observe {epoch up down : Nat} {target : Option Target} {knownWeb : Option Bool} (sound : Sound s) :
    Sound (s.observe parsesIp id epoch now target up down knownWeb) := by
  unfold Collector.observe
  split
  · exact sound
  · next f held =>
    split
    · split
      · exact sound
      · exact sound.act (fun _ _ _ _ _ _ _ charged => recordPacket_charged charged)
    · split
      · exact sound
      · next state stated =>
        split
        · exact sound
        · exact sound.recount held stated rfl

theorem Sound.enrol {data : Metadata} (sound : Sound s) : Sound (s.enrol id data) := by
  unfold Collector.enrol
  split
  · exact sound
  · next fresh =>
    have absent : s.objects[id]? = none := by simpa using fresh
    -- Either way the flow is charged what was reserved for it, and has no targets yet.
    have enrolled {flow : Flow} {g : Gauge} {m p t q : Nat} (cost : flow.cost = flowCost data) (none_yet : flow.targets = 0 ∧ flow.pendings = 0)
        (exact : Exact (m + flowCost data) (p + (if flow.data.udp && !flow.webSeen then flowCost data else 0)) t q g) :
        Exact (m + flow.memory) (p + flow.pending) (t + flow.targets) (q + flow.pendings) g := by
      refine exact.congr ?_ ?_ ?_ ?_
      · simp only [Flow.memory,cost,none_yet]
        rfl
      · simp only [Flow.pending,cost,none_yet]
        rfl
      · rw [none_yet.1]
        rfl
      · rw [none_yet.2]
        rfl
    cases udp : data.udp with
    | true =>
      have reserved {m p t q : Nat} (exact : Exact m p t q s.gauge) := @Exact.reservePending m p t q (flowCost data) s.gauge exact
      simp only [if_true]
      rcases attempt : s.gauge.reservePending (flowCost data) with ⟨granted,g⟩
      rw [attempt] at reserved
      cases granted with
      | false => exact sound.adjust (fun _ _ _ _ exact => (reserved exact).limited)
      | true =>
        refine Holding.frame (Holding.insert sound absent (fun m p t q exact => enrolled rfl ⟨rfl,rfl⟩ ((reserved exact).congr rfl ?_ rfl rfl)))
        simp [udp]
    | false =>
      have reserved {m p t q : Nat} (exact : Exact m p t q s.gauge) := @Exact.reserve m p t q (flowCost data) s.gauge exact
      simp only [Bool.false_eq_true,if_false]
      rcases attempt : s.gauge.reserve (flowCost data) with ⟨granted,g⟩
      rw [attempt] at reserved
      cases granted with
      | false => exact sound.adjust (fun _ _ _ _ exact => (reserved exact).limited)
      | true =>
        refine Holding.frame (Holding.insert sound absent (fun m p t q exact => enrolled rfl ⟨rfl,rfl⟩ ((reserved exact).congr rfl ?_ rfl rfl)))
        simp [udp]

theorem Sound.registerAtEpoch {expected : Nat} {data : Metadata} (sound : Sound s) : Sound (s.registerAtEpoch id expected data) := by
  unfold Collector.registerAtEpoch
  dsimp only
  split
  · exact sound
  · split
    · exact sound.adjust (fun _ _ _ _ => Exact.limited)
    · exact sound.enrol

/-! ### Batches keep the gauge exact -/

section
variable {m p t q : Nat} {g : Gauge} {batch : QueuedBatch} {reason : Reason}

theorem Exact.counted {rows : Nat} (exact : Exact m p t q g) : Exact m p t q { g with droppedEntries := g.droppedEntries + rows } :=
  ⟨exact.memory,exact.pending,exact.targets,exact.pendingTargets,exact.sane,exact.alone⟩

theorem dropBatch_exact (exact : Exact m p t q g) : Exact m p t q (dropBatch g batch reason) := by
  unfold dropBatch
  split
  · exact exact
  · exact (Exact.counted exact).reason

theorem dropHandle_exact (exact : Exact (m + batch.cost) p t q g) : Exact m p t q (dropHandle g batch) :=
  (dropBatch_exact exact).release

theorem discardBatch_exact (exact : Exact (m + batch.cost) p t q g) : Exact m p t q (discardBatch reason g batch) := by
  have counted : Exact (m + { batch with completed := true }.cost) p t q (dropBatch g batch reason) := dropBatch_exact exact
  exact dropHandle_exact counted

theorem discardBatches_exact {batches : List QueuedBatch} (exact : Exact (m + (batches.map QueuedBatch.cost).sum) p t q g) :
    Exact m p t q (batches.foldl (discardBatch reason) g) := by
  induction batches generalizing g with
  | nil => exact exact
  | cons batch rest ih =>
    refine ih (discardBatch_exact (exact.congr ?_ rfl rfl rfl))
    rw [List.map_cons,List.sum_cons]
    omega

end

theorem Holding.enqueue {message : TrafficAnalysisBatch} {length : Nat} (holding : Holding bytes targets s) :
    Holding bytes targets (s.enqueue message length) := by
  unfold Collector.enqueue
  split
  · exact holding
  · dsimp only
    split
    · exact holding.adjust (fun _ _ _ _ exact => (Exact.counted exact).reason)
    · split
      · exact holding.adjust (fun _ _ _ _ exact => (Exact.counted exact).reason)
      · have reserved {m p t q : Nat} (exact : Exact m p t q s.gauge) := @Exact.reserve m p t q (batchCost message length) s.gauge exact
        rcases attempt : s.gauge.reserve (batchCost message length) with ⟨granted,g⟩
        rw [attempt] at reserved
        cases granted with
        | false => exact holding.adjust (fun _ _ _ _ exact => (Exact.counted (reserved exact)).reason)
        | true =>
          refine ⟨(reserved holding.gauge).congr ?_ rfl rfl rfl,?_,holding.bucket,holding.clean⟩
          · simp only [if_true,Collector.held,List.map_append,List.map_cons,List.map_nil,List.sum_append,List.sum_cons,List.sum_nil]
            omega
          · have sum := holding.queueBytes
            simp only [List.map_append,List.map_cons,List.map_nil,List.sum_append,List.sum_cons,List.sum_nil]
            omega

theorem Holding.enqueueAll {messages : List (TrafficAnalysisBatch × Nat)} (holding : Holding bytes targets s) :
    Holding bytes targets (messages.foldl (fun s message => s.enqueue message.1 message.2) s) := by
  induction messages generalizing s with
  | nil => exact holding
  | cons message rest ih => exact ih holding.enqueue

/-- A bucket that has been taken out is at hand. -/
theorem Sound.takeBucket {b : MinuteBucket} (sound : Sound s) (there : s.bucket = some b) : Holding b.cost 0 { s with bucket := none } := by
  refine ⟨sound.gauge.congr ?_ rfl rfl rfl,sound.queueBytes,?_,sound.clean⟩
  · simp only [Collector.held,there,Option.elim_some,Option.elim_none]
    omega
  · intro b' there'
    cases there'

theorem Sound.seal {messages : List (TrafficAnalysisBatch × Nat)} (sound : Sound s) : Sound (s.seal messages) := by
  unfold Collector.seal
  split
  · exact sound
  · next b there =>
    have packed : Holding b.cost 0 (messages.foldl (fun s message => s.enqueue message.1 message.2) { s with bucket := none }) :=
      (sound.takeBucket there).enqueueAll
    exact ⟨packed.gauge.release,packed.queueBytes,packed.bucket,packed.clean⟩

theorem Sound.discardQueue (sound : Sound s) :
    Sound { s with gauge := s.queue.foldl (discardBatch .sessionReset) s.gauge, queue := [], queueBytes := 0 } := by
  refine ⟨discardBatches_exact (sound.gauge.congr ?_ rfl rfl rfl),rfl,sound.bucket,sound.clean⟩
  simp only [Collector.held,List.map_nil,List.sum_nil]
  omega

theorem Sound.discardBuffered (sound : Sound s) : Sound s.discardBuffered := by
  unfold Collector.discardBuffered
  cases there : s.bucket with
  | none => exact sound.discardQueue
  | some b =>
    have taken := sound.takeBucket there
    have rows : Exact _ _ _ _ { s.gauge with droppedEntries := s.gauge.droppedEntries + (b.users.size + b.domains.size) } :=
      Exact.counted taken.gauge
    dsimp only
    refine Sound.discardQueue (s := { s with
      bucket := none
      gauge := (if b.users.size + b.domains.size > 0 then
        { s.gauge with droppedEntries := s.gauge.droppedEntries + (b.users.size + b.domains.size) }.reason .sessionReset
        else { s.gauge with droppedEntries := s.gauge.droppedEntries + (b.users.size + b.domains.size) }).release b.cost })
      ⟨?_,taken.queueBytes,taken.bucket,taken.clean⟩
    split
    · exact rows.reason.release
    · exact rows.release

theorem Sound.pop {epoch : Nat} {take : QueuedBatch → Collector → Collector} (sound : Sound s)
    (taken : ∀ batch s, Holding batch.cost 0 s → Sound (take batch s)) : Sound (s.pop epoch take) := by
  unfold Collector.pop
  split
  · exact sound
  · split
    · exact sound
    · next batch rest front =>
      have sum := sound.queueBytes
      rw [front,List.map_cons,List.sum_cons] at sum
      refine taken _ _ ⟨sound.gauge.congr ?_ rfl rfl rfl,?_,sound.bucket,?_⟩
      · simp only [Collector.held,front,List.map_cons,List.sum_cons]
        omega
      · dsimp only
        omega
      · have enough : ¬s.queueBytes < batch.cost := by omega
        simp [sound.clean,enough]

/-! ### Sessions keep the gauge exact -/

theorem inOrder_perm {α : Type} [DecidableEq α] {order actual : List α} : (inOrder order actual).Perm actual := by
  unfold inOrder
  split
  · assumption
  · exact List.Perm.refl _

/-- A walk over the registry. -/
theorem Sound.walk {visit : Collector → Nat → Collector} {ids : List Nat} (sound : Sound s)
    (each : ∀ s id, Sound s → Sound (visit s id)) : Sound (ids.foldl visit s) := by
  induction ids generalizing s with
  | nil => exact sound
  | cons id rest ih => exact ih (each s id sound)

theorem Sound.dropPending (sound : Sound s) : Sound (s.dropPending id) := by
  unfold Collector.dropPending
  split
  · exact sound
  · next f held =>
    split
    · exact sound
    · next state stated =>
      split
      · refine Holding.replace sound held ?_
        intro m p t q exact
        refine Exact.dropPendings (exact.congr ?_ ?_ ?_ ?_)
        · simp only [Flow.memory,Flow.targets,Flow.pendings,stated,Option.elim_some,Std.ExtTreeMap.size_empty,Nat.mul_add]
          omega
        · simp only [Flow.pending,Flow.pendings,stated,Option.elim_some,Std.ExtTreeMap.size_empty]
          omega
        · simp only [Flow.targets,stated,Option.elim_some]
        · simp only [Flow.pendings,stated,Option.elim_some,Std.ExtTreeMap.size_empty]
          omega
      · exact sound

theorem Sound.beginSession (sound : Sound s) : Sound s.beginSession :=
  Sound.discardBuffered (Holding.frame sound)

theorem Sound.pause {epoch : Nat} {order : List Nat} (sound : Sound s) : Sound (s.pause epoch order) := by
  unfold Collector.pause
  split
  · exact sound
  · have paused : Sound { s with sessionOpen := false, active := 0 }.adoptRegistrations :=
      ⟨sound.gauge,sound.queueBytes,sound.bucket,sound.clean⟩
    exact paused.discardBuffered.walk (fun _ _ sound => sound.dropPending)

/-- Targets are kept with their reservations, or dropped. -/
theorem migrateTargets_exact {m p t q : Nat} {entries : List (Target × TargetState)} {g : Gauge} {kept : Map Target TargetState}
    (fresh : ∀ entry ∈ entries, kept[entry.1]? = none) (distinct : (entries.map Prod.fst).Nodup)
    (exact : Exact (m + TARGET_COST * (kept.size + entries.length)) p (t + (kept.size + entries.length)) q g) :
    Exact (m + TARGET_COST * (entries.foldl migrateTarget (g,kept)).2.size) p (t + (entries.foldl migrateTarget (g,kept)).2.size) q
      (entries.foldl migrateTarget (g,kept)).1 := by
  induction entries generalizing g kept with
  | nil => exact exact
  | cons entry rest ih =>
    simp only [List.map_cons,List.nodup_cons] at distinct
    rw [List.foldl_cons]
    unfold migrateTarget
    dsimp only
    split
    · refine ih (fun other member => fresh other (List.mem_cons_of_mem entry member)) distinct.2 ?_
      refine Exact.dropTarget (exact.limited.congr ?_ rfl ?_ rfl)
      · simp only [List.length_cons,Nat.mul_add,Nat.mul_one]
        omega
      · simp only [List.length_cons]
        omega
    · have size : (kept.insert entry.1 entry.2.drained).size = kept.size + 1 := size_insert_new (fresh entry List.mem_cons_self)
      refine ih ?_ distinct.2 (exact.congr ?_ rfl ?_ rfl)
      · intro other member
        rw [lookup_insert,if_neg]
        · exact fresh other (List.mem_cons_of_mem entry member)
        · intro same
          exact distinct.1 (same ▸ List.mem_map_of_mem member)
      · rw [size,List.length_cons]
        congr 2
        omega
      · rw [size,List.length_cons]
        omega

/-- A flow that was retired has no state, and one that is not in memory has no targets. -/
theorem retire_cases : (∀ f, (s.retire id).2.objects[id]? = some f → f.state = none) ∧
    ((s.retire id).2.objects[id]? = none → (s.retire id).1.size = 0) := by
  unfold Collector.retire
  split
  · next missing =>
    refine ⟨?_,fun _ => rfl⟩
    intro f held
    rw [missing] at held
    cases held
  · next before there =>
    split
    · next none_there =>
      refine ⟨?_,fun _ => rfl⟩
      intro f held
      rw [there] at held
      cases held
      exact none_there
    · constructor
      · intro f held
        simp only [Collector.setFlow,lookup_insert,if_true] at held
        cases held
        rfl
      · intro missing
        simp [Collector.setFlow] at missing

theorem Sound.migrate {epoch : Nat} {orders : Nat → List (Target × TargetState)} (sound : Sound s) : Sound (s.migrate epoch orders id) := by
  have retired := @Sound.retire s id sound
  obtain ⟨stateless,nothing⟩ := @retire_cases s id
  unfold Collector.migrate
  generalize s.retire id = result at retired stateless nothing
  obtain ⟨targets,s'⟩ := result
  dsimp only at retired stateless nothing ⊢
  cases held : s'.objects[id]? with
  | none =>
    rw [nothing held] at retired
    exact retired
  | some f =>
    dsimp only
    split
    · refine Holding.unregister ⟨?_,retired.queueBytes,retired.bucket,retired.clean⟩
      split
      · exact Exact.dropTargets retired.gauge.limited
      · exact Exact.dropTargets retired.gauge
    · refine Holding.replace retired held ?_
      intro m p t q exact
      have perm : (inOrder (orders id) targets.toList).Perm targets.toList := inOrder_perm
      have length : (inOrder (orders id) targets.toList).length = targets.size := by
        rw [perm.length_eq,Std.ExtTreeMap.length_toList]
      have distinct : ((inOrder (orders id) targets.toList).map Prod.fst).Nodup := by
        rw [(perm.map Prod.fst).nodup_iff,Std.ExtTreeMap.map_fst_toList_eq_keys]
        exact Std.ExtTreeMap.nodup_keys
      have migrated := @migrateTargets_exact (m + f.memory) (p + f.pending) (t + f.targets) (q + f.pendings)
        (inOrder (orders id) targets.toList) s'.gauge ∅ (fun _ _ => by simp) distinct (exact.congr ?_ rfl ?_ rfl)
      · have state := stateless f held
        refine migrated.congr ?_ ?_ ?_ ?_
        · simp [Flow.memory,Flow.targets,Flow.pendings,state,FlowState.new,PacketState.default]
          omega
        · simp [Flow.pending,Flow.pendings,state,FlowState.new,PacketState.default]
        · simp [Flow.targets,state]
        · simp [Flow.pendings,state,FlowState.new,PacketState.default]
      · rw [length,Std.ExtTreeMap.size_empty,Nat.zero_add]
      · rw [length,Std.ExtTreeMap.size_empty,Nat.zero_add]

theorem Sound.configure {epoch : Nat} {config : Option TrafficAnalysisConfig} {order : List Nat} {orders : Nat → List (Target × TargetState)}
    (sound : Sound s) : Sound (s.configure epoch config order orders) := by
  unfold Collector.configure
  split
  · exact sound
  · dsimp only
    have exact := sound.gauge
    have limited : Sound { s with configured := true, active := 0, gauge := { s.gauge with limits := normalizeConfig config } }.adoptRegistrations :=
      ⟨⟨exact.memory,exact.pending,exact.targets,exact.pendingTargets,exact.sane,exact.alone⟩,sound.queueBytes,sound.bucket,sound.clean⟩
    exact Holding.frame (limited.walk (fun _ _ sound => sound.migrate))

/-! ### Sampling keeps the gauge exact -/

theorem Sound.drain {state : FlowState} {order : List TargetSample} (sound : Sound s) (held : s.objects[id]? = some f)
    (stated : f.state = some state) : Sound (s.drain id now f state order).2 := by
  unfold Collector.drain
  split
  · next udp => exact sound.scene (c := (drainPackets now ⟨s.gauge,f.webSeen,state⟩).2) held udp stated (fun _ _ _ _ => drainPackets_charged)
  · exact sound.recount held stated rfl

theorem Sound.account {data : Metadata} {sample : Sample} {b : MinuteBucket} (sound : Sound s) (there : s.bucket = some b) :
    Sound (s.account parsesIp data sample b) := by
  obtain ⟨cost,sane⟩ := sound.bucket b there
  have stocked : Stocked (total (fun _ f => f.memory) s.objects + (s.storage.map Storage.bytes).sum + (s.queue.map QueuedBatch.cost).sum +
      (s.taken.map (fun entry => entry.1.cost)).sum) s.heldPending s.liveTargets s.livePendings s.gauge b := by
    refine ⟨sound.gauge.congr ?_ rfl rfl rfl,cost,sane⟩
    simp only [Collector.held,there,Option.elim_some]
    omega
  have after := @accountFlow_stocked _ _ _ _ s.gauge data parsesIp b sample stocked
  refine ⟨after.exact.congr ?_ rfl rfl rfl,sound.queueBytes,?_,sound.clean⟩
  · simp only [Collector.account,Collector.held,Option.elim_some]
    omega
  · intro b' found
    cases found
    exact ⟨after.cost,after.sane⟩

theorem Sound.visit {orders : Nat → List TargetSample} (sound : Sound s) : Sound (s.visit parsesIp now orders id) := by
  unfold Collector.visit
  split
  · next f b held there =>
    split
    · exact sound
    · next state stated =>
      split
      · exact sound
      · have drained : Sound (s.drain id now f state (orders id)).2 := sound.drain held stated
        have still : (s.drain id now f state (orders id)).2.bucket = some b := by
          unfold Collector.drain
          split <;> exact there
        have accounted := @Sound.account _ parsesIp f.data (s.drain id now f state (orders id)).1 b drained still
        dsimp only
        split
        · exact accounted.finish
        · exact accounted
  · exact sound

theorem Sound.sweep (sound : Sound s) : Sound (s.sweep id) := by
  unfold Collector.sweep
  split
  · exact sound
  · split
    · exact sound.finish
    · exact sound

theorem Sound.openBucket {minute : Int} (sound : Sound s) : Sound { s with bucket := some (s.bucket.getD (MinuteBucket.new minute)) } := by
  cases there : s.bucket with
  | none =>
    refine ⟨sound.gauge.congr ?_ rfl rfl rfl,sound.queueBytes,?_,sound.clean⟩
    · simp only [Collector.held,there,Option.elim_none,Option.elim_some]
      rfl
    · intro b found
      cases found
      exact ⟨by simp [MinuteBucket.new],rfl⟩
  | some b =>
    refine ⟨sound.gauge.congr ?_ rfl rfl rfl,sound.queueBytes,?_,sound.clean⟩
    · simp only [Collector.held,there]
      rfl
    · intro b' found
      cases found
      exact sound.bucket b there

theorem Sound.sample {minute : Int} {messages : List (TrafficAnalysisBatch × Nat)} {order : List Nat} {orders : Nat → List TargetSample}
    (sound : Sound s) : Sound (s.sample parsesIp now minute messages order orders) := by
  have adopted : Sound s.adoptRegistrations := ⟨sound.gauge,sound.queueBytes,sound.bucket,sound.clean⟩
  unfold Collector.sample
  dsimp only
  split
  · exact adopted.walk (fun _ _ sound => sound.sweep)
  · refine Sound.walk (Sound.openBucket ?_) (fun _ _ sound => sound.visit)
    split
    · exact adopted.seal
    · exact adopted

/-! ### Storage and handles -/

theorem Sound.tryReserve {requireActive pending lost : Bool} {amount : Nat} (sound : Sound s) :
    Sound (s.tryReserve id amount requireActive pending lost) := by
  unfold Collector.tryReserve
  split
  · exact sound
  · split
    · exact sound
    · cases pending with
      | true =>
        have reserved {m p t q : Nat} (exact : Exact m p t q s.gauge) := @Exact.reservePending m p t q amount s.gauge exact
        simp only [if_true]
        rcases attempt : s.gauge.reservePending amount with ⟨granted,g⟩
        rw [attempt] at reserved
        cases granted with
        | false => exact sound.adjust (fun _ _ _ _ exact => (reserved exact).limited)
        | true =>
          dsimp only
          split
          · exact sound.adjust (fun _ _ _ _ exact => (reserved exact).releasePending)
          · refine ⟨(reserved sound.gauge).congr ?_ ?_ rfl rfl,sound.queueBytes,sound.bucket,sound.clean⟩
            · simp only [if_true,Collector.held,List.map_cons,List.sum_cons]
              omega
            · simp only [if_true,Collector.heldPending,Storage.waiting,List.map_cons,List.sum_cons]
              omega
      | false =>
        have reserved {m p t q : Nat} (exact : Exact m p t q s.gauge) := @Exact.reserve m p t q amount s.gauge exact
        simp only [Bool.false_eq_true,if_false]
        rcases attempt : s.gauge.reserve amount with ⟨granted,g⟩
        rw [attempt] at reserved
        cases granted with
        | false => exact sound.adjust (fun _ _ _ _ exact => (reserved exact).limited)
        | true =>
          dsimp only
          split
          · exact sound.adjust (fun _ _ _ _ exact => (reserved exact).release)
          · refine ⟨(reserved sound.gauge).congr ?_ ?_ rfl rfl,sound.queueBytes,sound.bucket,sound.clean⟩
            · simp only [if_true,Collector.held,List.map_cons,List.sum_cons]
              omega
            · simp only [Collector.heldPending,Storage.waiting,List.map_cons,List.sum_cons,Bool.false_eq_true,if_false,Nat.zero_add]

section
variable {α : Type} {l : List α} {k : Nat} {a : α}

theorem sum_eraseIdx (at_k : l[k]? = some a) (amount : α → Nat) : (l.map amount).sum = amount a + ((l.eraseIdx k).map amount).sum := by
  obtain ⟨inside,rfl⟩ := List.getElem?_eq_some_iff.mp at_k
  rw [← ((List.getElem_cons_eraseIdx_perm inside).map amount).sum_eq,List.map_cons,List.sum_cons]

theorem sum_set (at_k : l[k]? = some a) (a' : α) (amount : α → Nat) :
    ((l.set k a').map amount).sum = amount a' + ((l.eraseIdx k).map amount).sum := by
  obtain ⟨inside,rfl⟩ := List.getElem?_eq_some_iff.mp at_k
  rw [((List.set_perm_cons_eraseIdx inside a').map amount).sum_eq,List.map_cons,List.sum_cons]

end

variable {k : Nat}

theorem Sound.releaseStorage (sound : Sound s) : Sound (s.releaseStorage k) := by
  unfold Collector.releaseStorage
  split
  · exact sound
  · next held at_k =>
    have bytes := sum_eraseIdx at_k Storage.bytes
    have waiting := sum_eraseIdx at_k Storage.waiting
    refine ⟨?_,sound.queueBytes,sound.bucket,sound.clean⟩
    dsimp only
    split
    · next pending =>
      rw [Storage.waiting,if_pos pending] at waiting
      refine Exact.releasePending (sound.gauge.congr ?_ ?_ rfl rfl)
      · simp only [Collector.held]
        omega
      · simp only [Collector.heldPending]
        omega
    · next promoted =>
      rw [Storage.waiting,if_neg promoted] at waiting
      refine Exact.release (sound.gauge.congr ?_ ?_ rfl rfl)
      · simp only [Collector.held]
        omega
      · simp only [Collector.heldPending]
        omega

theorem Sound.promotePendingStorage (sound : Sound s) : Sound (s.promotePendingStorage k) := by
  unfold Collector.promotePendingStorage
  split
  · exact sound
  · next held at_k =>
    split
    · next pending =>
      have bytes := sum_eraseIdx at_k Storage.bytes
      have waiting := sum_eraseIdx at_k Storage.waiting
      have bytes' := sum_set at_k { held with pending := false } Storage.bytes
      have waiting' := sum_set at_k { held with pending := false } Storage.waiting
      rw [Storage.waiting,if_pos pending] at waiting
      rw [Storage.waiting,if_neg Bool.false_ne_true] at waiting'
      dsimp only at bytes'
      refine ⟨Exact.settle (sound.gauge.congr ?_ ?_ rfl rfl),sound.queueBytes,sound.bucket,sound.clean⟩
      · simp only [Collector.held]
        omega
      · simp only [Collector.heldPending]
        omega
    · exact sound

/-- A batch that was handed out changes, but not its cost. -/
theorem Sound.setTaken {batch : QueuedBatch} {handles handles' : Nat} {d : Bool} (sound : Sound s)
    (at_k : s.taken[k]? = some (batch,handles)) (same : ∀ m p t q, Exact m p t q s.gauge → Exact m p t q g') :
    Sound { s with gauge := g', taken := s.taken.set k ({ batch with completed := d },handles') } := by
  have before := sum_eraseIdx at_k (fun entry => entry.1.cost)
  have after := sum_set at_k ({ batch with completed := d },handles') (fun entry => entry.1.cost)
  dsimp only at before after
  refine ⟨same _ _ _ _ (sound.gauge.congr ?_ rfl rfl rfl),sound.queueBytes,sound.bucket,sound.clean⟩
  simp only [Collector.held]
  omega

theorem Sound.settle {count : Gauge → QueuedBatch → Gauge} (sound : Sound s)
    (counted : ∀ g batch m p t q, Exact m p t q g → Exact m p t q (count g batch)) : Sound (s.settle k count) := by
  unfold Collector.settle
  split
  · exact sound
  · next batch handles at_k => exact sound.setTaken at_k (fun _ _ _ _ => counted _ _ _ _ _ _)

theorem Sound.dropTaken (sound : Sound s) : Sound (s.dropTaken k) := by
  unfold Collector.dropTaken
  split
  · exact sound
  · next batch handles at_k =>
    split
    · have before := sum_eraseIdx at_k (fun entry => entry.1.cost)
      dsimp only at before
      refine ⟨dropHandle_exact (sound.gauge.congr ?_ rfl rfl rfl),sound.queueBytes,sound.bucket,sound.clean⟩
      simp only [Collector.held]
      omega
    · exact sound.setTaken (d := batch.completed) at_k (fun _ _ _ _ exact => exact)

/-! ### Runs -/

theorem sound_step {operation : Operation} (sound : Sound s) : Sound (step parsesIp s operation) := by
  cases operation with
  | register id expected data => exact sound.registerAtEpoch
  | hold id => exact sound.touch (fun _ => ⟨rfl,rfl,rfl,rfl⟩)
  | drop id => exact Holding.reap (sound.touch (fun _ => ⟨rfl,rfl,rfl,rfl⟩))
  | beginToken id =>
    refine sound.touch ?_
    intro f
    split <;> exact ⟨rfl,rfl,rfl,rfl⟩
  | finishToken id epoch now target up down knownWeb =>
    dsimp only [step]
    split
    · exact sound
    · exact sound.observe.touch (fun _ => ⟨rfl,rfl,rfl,rfl⟩)
  | packet id epoch now target up down =>
    dsimp only [step]
    split
    · exact sound
    · exact sound.act (fun _ _ _ _ _ _ _ charged => recordPacket_charged charged)
  | cancelToken id epoch =>
    dsimp only [step]
    split
    · exact sound
    · exact sound.touch (fun _ => ⟨rfl,rfl,rfl,rfl⟩)
  | close id => exact sound.touch (fun _ => ⟨rfl,rfl,rfl,rfl⟩)
  | classifyTarget id epoch now target domain appProtocol echPresent =>
    dsimp only [step]
    split
    · exact sound
    · split
      · exact sound.adjust (fun _ _ _ _ => Exact.limited)
      · split
        · exact sound
        · exact sound.act (fun _ _ _ _ _ _ _ charged => classifyTarget_charged charged)
  | discardTarget id epoch target => exact sound.act (fun _ _ _ _ _ _ _ charged => discardTarget_charged charged)
  | tryReserve id bytes requireActive pending lost => exact sound.tryReserve
  | releaseStorage k => exact sound.releaseStorage
  | promotePendingStorage k => exact sound.promotePendingStorage
  | beginSession => exact sound.beginSession
  | pause epoch order => exact sound.pause
  | configure epoch config order orders => exact sound.configure
  | sample now minute messages order orders => exact sound.sample
  | expire epoch =>
    dsimp only [step]
    refine sound.pop ?_
    intro batch s holding
    exact ⟨discardBatch_exact holding.gauge,holding.queueBytes,holding.bucket,holding.clean⟩
  | next epoch =>
    dsimp only [step]
    refine sound.pop ?_
    intro batch s holding
    refine ⟨holding.gauge.congr ?_ rfl rfl rfl,holding.queueBytes,holding.bucket,holding.clean⟩
    simp only [Collector.held,List.map_append,List.map_cons,List.map_nil,List.sum_append,List.sum_cons,List.sum_nil]
    omega
  | complete k sent =>
    dsimp only [step]
    refine sound.settle ?_
    intro g batch m p t q exact
    split
    · exact exact
    · exact dropBatch_exact exact
  | dropBatch k reason =>
    dsimp only [step]
    exact sound.settle (fun _ _ _ _ _ _ => dropBatch_exact)
  | cloneHandle k =>
    dsimp only [step]
    split
    · exact sound
    · next batch handles at_k => exact sound.setTaken (d := batch.completed) at_k (fun _ _ _ _ exact => exact)
  | dropHandle k => exact sound.dropTaken

theorem sound_run {operations : List Operation} (sound : Sound s) : Sound (operations.foldl (step parsesIp) s) := by
  induction operations generalizing s with
  | nil => exact sound
  | cons operation rest ih => exact ih (sound_step sound)

/-! ### Flows in memory are held -/

/-- Somebody holds the flow: the data path or the collector. -/
def Collector.Held (s : Collector) (id : Nat) (f : Flow) : Prop := 0 < f.handles ∨ id ∈ s.registrations ∨ id ∈ s.flows

def Alive (s : Collector) : Prop := ∀ (id : Nat) (f : Flow), s.objects[id]? = some f → s.Held id f

/-- Whoever held a flow still does. -/
structure Keeps (s s' : Collector) : Prop where
  objects : ∀ (id : Nat) (f' : Flow), s'.objects[id]? = some f' → ∃ f, s.objects[id]? = some f ∧ f'.handles = f.handles
  registered : ∀ id, id ∈ s.registrations ∨ id ∈ s.flows → id ∈ s'.registrations ∨ id ∈ s'.flows

variable {s' : Collector}

theorem Keeps.alive (keeps : Keeps s s') (alive : Alive s) : Alive s' := by
  intro id f' held
  obtain ⟨f,before,handles⟩ := keeps.objects id f' held
  rcases alive id f before with some_handle | registered
  · exact .inl (handles ▸ some_handle)
  · exact .inr (keeps.registered id registered)

theorem Keeps.same (objects : s'.objects = s.objects) (registrations : s'.registrations = s.registrations) (flows : s'.flows = s.flows) :
    Keeps s s' := by
  refine ⟨?_,?_⟩
  · intro id f held
    exact ⟨f,objects ▸ held,rfl⟩
  · rw [registrations,flows]
    exact fun _ registered => registered

theorem Keeps.refl : Keeps s s := Keeps.same rfl rfl rfl

theorem Keeps.trans {s'' : Collector} (first : Keeps s s') (second : Keeps s' s'') : Keeps s s'' := by
  refine ⟨?_,fun id registered => second.registered id (first.registered id registered)⟩
  intro id f'' held
  obtain ⟨f',between,same⟩ := second.objects id f'' held
  obtain ⟨f,before,same'⟩ := first.objects id f' between
  exact ⟨f,before,same.trans same'⟩

theorem Keeps.setFlow (held : s.objects[id]? = some f) (handles : f'.handles = f.handles) : Keeps s ({ s with gauge := g' }.setFlow id f') := by
  refine ⟨?_,fun _ registered => registered⟩
  intro other found there
  change (s.objects.insert id f')[other]? = some found at there
  rw [lookup_insert] at there
  split at there
  · next same =>
    cases there
    exact ⟨f,same ▸ held,handles⟩
  · exact ⟨found,there,rfl⟩

theorem keeps_retire : Keeps s (s.retire id).2 := by
  unfold Collector.retire
  split
  · exact Keeps.refl
  · next f held =>
    split
    · exact Keeps.refl
    · exact Keeps.setFlow held rfl

theorem keeps_act {epoch : Nat} {fenced : Bool} {work : Metadata → Nat → Scene → Scene} : Keeps s (s.act id epoch fenced work) := by
  unfold Collector.act
  split
  · exact Keeps.refl
  · next f held =>
    split
    · exact Keeps.refl
    · split
      · exact Keeps.refl
      · exact Keeps.setFlow held rfl

theorem keeps_touch {change : Flow → Flow} (same : ∀ f, (change f).handles = f.handles) : Keeps s (s.touch id change) := by
  unfold Collector.touch
  split
  · exact Keeps.refl
  · next f held => exact Keeps.setFlow held (same f)

theorem keeps_observe {epoch up down : Nat} {target : Option Target} {knownWeb : Option Bool} :
    Keeps s (s.observe parsesIp id epoch now target up down knownWeb) := by
  unfold Collector.observe
  split
  · exact Keeps.refl
  · next f held =>
    split
    · split
      · exact Keeps.refl
      · exact keeps_act
    · split
      · exact Keeps.refl
      · split
        · exact Keeps.refl
        · exact Keeps.setFlow held rfl

theorem keeps_enqueue {message : TrafficAnalysisBatch} {length : Nat} : Keeps s (s.enqueue message length) := by
  unfold Collector.enqueue
  split
  · exact Keeps.refl
  · dsimp only
    split
    · exact Keeps.same rfl rfl rfl
    · split
      · exact Keeps.same rfl rfl rfl
      · split
        · exact Keeps.same rfl rfl rfl
        · exact Keeps.same rfl rfl rfl

theorem keeps_seal {messages : List (TrafficAnalysisBatch × Nat)} : Keeps s (s.seal messages) := by
  have packed : ∀ s : Collector, Keeps s (messages.foldl (fun s message => s.enqueue message.1 message.2) s) := by
    induction messages with
    | nil => exact fun _ => Keeps.refl
    | cons message rest ih => exact fun _ => keeps_enqueue.trans (ih _)
  unfold Collector.seal
  split
  · exact Keeps.refl
  · next b _ =>
    have taken : Keeps s { s with bucket := none } := Keeps.same rfl rfl rfl
    have sealed := taken.trans (packed { s with bucket := none })
    exact ⟨sealed.objects,sealed.registered⟩

theorem keeps_discardBuffered : Keeps s s.discardBuffered := by
  unfold Collector.discardBuffered
  dsimp only
  split
  · exact Keeps.same rfl rfl rfl
  · exact Keeps.same rfl rfl rfl

theorem keeps_adoptRegistrations : Keeps s s.adoptRegistrations := by
  refine ⟨fun id f held => ⟨f,held,rfl⟩,?_⟩
  intro id registered
  refine .inr (List.mem_append.mpr ?_)
  exact registered.symm

theorem keeps_dropPending : Keeps s (s.dropPending id) := by
  unfold Collector.dropPending
  split
  · exact Keeps.refl
  · next f held =>
    split
    · exact Keeps.refl
    · split
      · exact Keeps.setFlow held rfl
      · exact Keeps.refl

theorem keeps_drain {state : FlowState} {order : List TargetSample} (held : s.objects[id]? = some f) : Keeps s (s.drain id now f state order).2 := by
  unfold Collector.drain
  split
  · exact Keeps.setFlow held rfl
  · exact Keeps.setFlow held rfl

/-- A flow that somebody let go is dropped unless another one holds it. -/
theorem alive_reap (others : ∀ (other : Nat) (f : Flow), other ≠ id → s.objects[other]? = some f → s.Held other f) : Alive (s.reap id) := by
  unfold Collector.reap
  split
  · next missing =>
    intro other f held
    refine others other f ?_ held
    rintro rfl
    rw [missing] at held
    cases held
  · next f held =>
    split
    · intro other found there
      change (s.objects.erase id)[other]? = some found at there
      rw [lookup_erase] at there
      split at there
      · cases there
      · next different => exact others other found (Ne.symm different) there
    · next somebody =>
      intro other found there
      by_cases same : other = id
      · subst same
        rw [held] at there
        cases there
        simp only [not_and_or,not_not] at somebody
        rcases somebody with handles | registered | enrolled
        · exact .inl (Nat.pos_of_ne_zero handles)
        · exact .inr (.inl registered)
        · exact .inr (.inr enrolled)
      · exact others other found same there

theorem Alive.unregister (alive : Alive s) : Alive (s.unregister id) := by
  refine alive_reap ?_
  intro other f different held
  rcases alive other f held with handles | registered | enrolled
  · exact .inl handles
  · exact .inr (.inl registered)
  · refine .inr (.inr (List.mem_filter.mpr ⟨enrolled,?_⟩))
    exact decide_eq_true different

theorem Alive.finish (alive : Alive s) : Alive (s.finish id) := by
  have retired := (@keeps_retire s id).alive alive
  unfold Collector.finish
  generalize s.retire id = result at retired
  obtain ⟨targets,s'⟩ := result
  refine Alive.unregister ?_
  exact (Keeps.same rfl rfl rfl : Keeps s' { s' with gauge := s'.gauge.dropTargets targets.size }).alive retired

theorem Alive.migrate {epoch : Nat} {orders : Nat → List (Target × TargetState)} (alive : Alive s) : Alive (s.migrate epoch orders id) := by
  have retired := (@keeps_retire s id).alive alive
  unfold Collector.migrate
  generalize s.retire id = result at retired
  obtain ⟨targets,s'⟩ := result
  dsimp only at retired ⊢
  split
  · exact retired
  · next f held =>
    split
    · refine Alive.unregister (Keeps.alive (s := s') ?_ retired)
      exact Keeps.same rfl rfl rfl
    · refine Keeps.alive (s := s') ?_ retired
      exact Keeps.setFlow held rfl

theorem Alive.walk {visit : Collector → Nat → Collector} {ids : List Nat} (alive : Alive s)
    (each : ∀ s id, Alive s → Alive (visit s id)) : Alive (ids.foldl visit s) := by
  induction ids generalizing s with
  | nil => exact alive
  | cons id rest ih => exact ih (each s id alive)

theorem Alive.visit {orders : Nat → List TargetSample} (alive : Alive s) : Alive (s.visit parsesIp now orders id) := by
  unfold Collector.visit
  split
  · next f b held there =>
    split
    · exact alive
    · next state stated =>
      split
      · exact alive
      · have drained : Alive (s.drain id now f state (orders id)).2 := (keeps_drain held).alive alive
        have accounted : Alive ((s.drain id now f state (orders id)).2.account parsesIp f.data (s.drain id now f state (orders id)).1 b) :=
          drained
        dsimp only
        split
        · exact accounted.finish
        · exact accounted
  · exact alive

theorem Alive.sample {minute : Int} {messages : List (TrafficAnalysisBatch × Nat)} {order : List Nat} {orders : Nat → List TargetSample}
    (alive : Alive s) : Alive (s.sample parsesIp now minute messages order orders) := by
  have adopted : Alive s.adoptRegistrations := keeps_adoptRegistrations.alive alive
  unfold Collector.sample
  dsimp only
  split
  · refine adopted.walk ?_
    intro s id alive
    unfold Collector.sweep
    split
    · exact alive
    · split
      · exact alive.finish
      · exact alive
  · refine Alive.walk ?_ (fun _ _ alive => alive.visit)
    split
    · exact keeps_seal.alive adopted
    · exact adopted

theorem Alive.registerAtEpoch {expected : Nat} {data : Metadata} (alive : Alive s) : Alive (s.registerAtEpoch id expected data) := by
  unfold Collector.registerAtEpoch Collector.enrol
  dsimp only
  split
  · exact alive
  · split
    · exact alive
    · split
      · exact alive
      · split
        · exact alive
        · intro other f held
          rw [lookup_insert] at held
          split at held
          · cases held
            exact .inl Nat.one_pos
          · rcases alive other f held with handles | registered | enrolled
            · exact .inl handles
            · exact .inr (.inl (List.mem_append_left _ registered))
            · exact .inr (.inr enrolled)

/-- Another holder of a flow. -/
theorem Alive.hold (alive : Alive s) : Alive (s.touch id (fun f => { f with handles := f.handles + 1 })) := by
  unfold Collector.touch
  split
  · exact alive
  · next f held =>
    intro other found there
    change (s.objects.insert id _)[other]? = some found at there
    rw [lookup_insert] at there
    split at there
    · cases there
      exact .inl (Nat.succ_pos _)
    · exact alive other found there

/-- A holder lets a flow go. -/
theorem Alive.drop (alive : Alive s) : Alive ((s.touch id (fun f => { f with handles := f.handles - 1 })).reap id) := by
  refine alive_reap ?_
  intro other found different there
  unfold Collector.touch at there ⊢
  split at there
  · exact alive other found there
  · next f held =>
    change (s.objects.insert id _)[other]? = some found at there
    rw [lookup_insert,if_neg (Ne.symm different)] at there
    exact alive other found there

theorem Alive.touch {change : Flow → Flow} (alive : Alive s) (same : ∀ f, (change f).handles = f.handles) : Alive (s.touch id change) :=
  (keeps_touch same).alive alive

theorem alive_step {operation : Operation} (alive : Alive s) : Alive (step parsesIp s operation) := by
  cases operation with
  | register id expected data => exact alive.registerAtEpoch
  | hold id => exact alive.hold
  | drop id => exact alive.drop
  | beginToken id =>
    refine alive.touch ?_
    intro f
    split <;> rfl
  | finishToken id epoch now target up down knownWeb =>
    dsimp only [step]
    split
    · exact alive
    · exact (keeps_observe.alive alive).touch (fun _ => rfl)
  | packet id epoch now target up down =>
    dsimp only [step]
    split
    · exact alive
    · exact keeps_act.alive alive
  | cancelToken id epoch =>
    dsimp only [step]
    split
    · exact alive
    · exact alive.touch (fun _ => rfl)
  | close id => exact alive.touch (fun _ => rfl)
  | classifyTarget id epoch now target domain appProtocol echPresent =>
    dsimp only [step]
    split
    · exact alive
    · split
      · exact alive
      · split
        · exact alive
        · exact keeps_act.alive alive
  | discardTarget id epoch target => exact keeps_act.alive alive
  | tryReserve id bytes requireActive pending lost =>
    dsimp only [step,Collector.tryReserve]
    split
    · exact alive
    · split
      · exact alive
      · split
        · exact alive
        · split <;> exact alive
  | releaseStorage k =>
    dsimp only [step,Collector.releaseStorage]
    split <;> exact alive
  | promotePendingStorage k =>
    dsimp only [step,Collector.promotePendingStorage]
    split
    · exact alive
    · split <;> exact alive
  | beginSession =>
    exact keeps_discardBuffered.alive (s := { s with active := 0, epoch := s.epoch + 1, sessionOpen := true, configured := false }) alive
  | pause epoch order =>
    dsimp only [step,Collector.pause]
    split
    · exact alive
    · refine Alive.walk (keeps_discardBuffered.alive ?_) (fun _ _ alive => keeps_dropPending.alive alive)
      exact keeps_adoptRegistrations.alive (s := { s with sessionOpen := false, active := 0 }) alive
  | configure epoch config order orders =>
    dsimp only [step,Collector.configure]
    split
    · exact alive
    · have adopted : Alive { s with configured := true, active := 0, gauge := { s.gauge with limits := normalizeConfig config } }.adoptRegistrations :=
        keeps_adoptRegistrations.alive (s := { s with configured := true, active := 0, gauge := { s.gauge with limits := normalizeConfig config } }) alive
      exact adopted.walk (fun _ _ alive => alive.migrate)
  | sample now minute messages order orders => exact alive.sample
  | expire epoch =>
    dsimp only [step,Collector.pop]
    split
    · exact alive
    · split <;> exact alive
  | next epoch =>
    dsimp only [step,Collector.pop]
    split
    · exact alive
    · split <;> exact alive
  | complete k sent =>
    dsimp only [step,Collector.settle]
    split <;> exact alive
  | dropBatch k reason =>
    dsimp only [step,Collector.settle]
    split <;> exact alive
  | cloneHandle k =>
    dsimp only [step]
    split <;> exact alive
  | dropHandle k =>
    dsimp only [step,Collector.dropTaken]
    split
    · exact alive
    · split <;> exact alive

theorem alive_run {operations : List Operation} (alive : Alive s) : Alive (operations.foldl (step parsesIp) s) := by
  induction operations generalizing s with
  | nil => exact alive
  | cons operation rest ih => exact ih (alive_step alive)

/-- The budget of a collector is what its live objects have reserved. -/
structure Accurate (s : Collector) : Prop where
  /-- The flows that are charged are those that somebody holds. -/
  live : ∀ (id : Nat) (f : Flow), s.objects[id]? = some f → 0 < f.handles ∨ id ∈ s.registrations ∨ id ∈ s.flows
  memory : s.gauge.memory = total (fun _ f => f.cost + TARGET_COST * (f.targets + f.pendings)) s.objects + (s.storage.map Storage.bytes).sum +
    s.bucket.elim 0 MinuteBucket.cost + (s.queue.map QueuedBatch.cost).sum + (s.taken.map (fun entry => entry.1.cost)).sum
  pendingMemory : s.gauge.pendingMemory =
    total (fun _ f => (if f.data.udp && !f.webSeen then f.cost else 0) + TARGET_COST * f.pendings) s.objects + (s.storage.map Storage.waiting).sum
  targets : s.gauge.targets = total (fun _ f => f.targets) s.objects
  pendingTargets : s.gauge.pendingTargets = total (fun _ f => f.pendings) s.objects
  queueBytes : s.queueBytes = (s.queue.map QueuedBatch.cost).sum
  bucket : ∀ b, s.bucket = some b → b.cost = USER_COST * b.users.size + DOMAIN_COST * b.domains.size
  noUnderflow : s.gauge.underflow = false ∧ s.underflow = false ∧ ∀ b, s.bucket = some b → b.underflow = false

/-- After every run of operations the budget is exact, no subtraction has gone below zero,
    and a reservation that succeeds leaves the memory and its pending part within their
    limits. -/
theorem analysis_budget_exact (parsesIp : String → Bool) (operations : List Operation) :
    Accurate (operations.foldl (step parsesIp) Collector.new) ∧
      (∀ (g : Gauge) (bytes : Nat), (g.reserve bytes).1 = true → (g.reserve bytes).2.memory ≤ (g.reserve bytes).2.limits.memoryMaxBytes) ∧
      (∀ (g : Gauge) (bytes : Nat), (g.reservePending bytes).1 = true →
        (g.reservePending bytes).2.memory ≤ (g.reservePending bytes).2.limits.memoryMaxBytes ∧
          (g.reservePending bytes).2.pendingMemory ≤ (g.reservePending bytes).2.pendingLimit) := by
  have sound : Sound (operations.foldl (step parsesIp) Collector.new) := sound_run sound_new
  have alive : Alive (operations.foldl (step parsesIp) Collector.new) := by
    refine alive_run ?_
    intro id f held
    simp [Collector.new] at held
  refine ⟨⟨alive,?_,?_,?_,?_,?_,?_,?_⟩,?_,?_⟩
  · exact sound.gauge.memory
  · exact sound.gauge.pending
  · exact sound.gauge.targets
  · exact sound.gauge.pendingTargets
  · exact sound.queueBytes
  · exact fun b there => (sound.bucket b there).1
  · exact ⟨sound.gauge.sane,sound.clean,fun b there => (sound.bucket b there).2⟩
  · exact fun g bytes granted => reserve_within granted
  · exact fun g bytes granted => reservePending_within granted

end NodeAgent.AnalysisCollector
