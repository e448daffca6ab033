import NodeAgent.Traffic
import NodeAgent.Transition

/-!
The way of a byte to the panel: aggregator counters, batches being queued, the
report channel, the in-flight slot, and the reports released once the request
stream consumed them. Observations, flushes, cancelled or refused batches,
stream generations and reconnects are steps of one state; for every identity and
hour the places together hold what was observed (`bytes_conserved`).
-/
namespace NodeAgent.TrafficQueue
open NodeAgent.UnixTime NodeAgent.Tally NodeAgent.Traffic NodeAgent.Transition

/-- A report as it travels on the wire. -/
structure TrafficReport extends Identity where
  uplinkBytes : UInt64
  downlinkBytes : UInt64
  observedAtUnix : Int
deriving DecidableEq

def reportToProto (report : Report) : TrafficReport :=
  ⟨report.toIdentity,report.uplinkBytes,report.downlinkBytes,unixSeconds report.observedAt⟩

/-- The identity and hour that the panel files a report under. -/
def TrafficReport.key (report : TrafficReport) : CounterKey :=
  ⟨report.toIdentity,report.observedAtUnix / aggregationBucketSeconds⟩

/-- `enqueue_inner` at work: the reports it still owns. `flush` asks for capacity
    once per report, `flush_all` waits for it. -/
structure Enqueue where
  reports : List Report
  waitForCapacity : Bool

/-- `consume_reports` between two awaits. -/
inductive Consumer
  /-- No stream generation holds the receivers. -/
  | idle
  /-- At the head of the loop. -/
  | ready
  /-- The copy of the in-flight report waits for room in the outgoing channel. -/
  | sending (report : TrafficReport)
  /-- The copy was buffered and waits for the stream to poll it. -/
  | awaiting (report : TrafficReport)

structure State where
  aggregator : Aggregator
  enqueues : List Enqueue
  capacity : Nat
  closed : Bool
  channel : List TrafficReport
  inFlight : Option TrafficReport
  consumer : Consumer
  /-- Reports whose in-flight slot was cleared after the consumption signal. -/
  released : List TrafficReport

def initial (minReportDeltaBytes : UInt64) (maxReportDelaySeconds : Int) (capacity : Nat) : State :=
  ⟨⟨minReportDeltaBytes,maxReportDelaySeconds,[]⟩,[],capacity,false,[],none,.idle,[]⟩

inductive Event
  | observe (now : SystemTime) (event : TrafficEvent)
  /-- `flush` when not forced, `flush_all` when forced: the counters become a batch. -/
  | flush (now : SystemTime) (force : Bool)
  /-- The next report of a batch gets a permit and is sent. -/
  | queueNext (index : Nat)
  /-- The next report of a batch gets no permit: cancelled, closed, or no room. -/
  | refuse (index : Nat) (cancelled : Bool)
  /-- A batch is through. -/
  | finish (index : Nat)
  | closeChannel
  /-- A stream generation takes the receivers. -/
  | connect
  /-- The loop finds a report in flight and offers it to the outgoing channel. -/
  | offer
  /-- The loop finds nothing in flight and takes the next report. -/
  | dequeue
  | sent
  | consumed
  /-- The generation ends: cancelled, outgoing closed, drained, or dropped. -/
  | stop

/-- Whether the next report of a batch may be refused. -/
def refusable (s : State) (batch : Enqueue) (cancelled : Bool) : Bool :=
  cancelled || s.closed || (!batch.waitForCapacity && decide (s.capacity ≤ s.channel.length))

def step (s : State) : Event → Option State
  | .observe now event => some { s with aggregator := observe s.aggregator now event }
  | .flush now force =>
    let flushed := flushInner s.aggregator now force
    some { s with aggregator := flushed.2, enqueues := s.enqueues ++ [⟨flushed.1,force⟩] }
  | .queueNext index =>
    match s.enqueues[index]? with
    | some ⟨report :: rest,wait⟩ =>
      if s.closed = false ∧ s.channel.length < s.capacity then
        some { s with channel := s.channel ++ [reportToProto report], enqueues := s.enqueues.set index ⟨rest,wait⟩ }
      else none
    | _ => none
  | .refuse index cancelled =>
    match s.enqueues[index]? with
    | some ⟨report :: rest,wait⟩ =>
      if refusable s ⟨report :: rest,wait⟩ cancelled then
        some { s with aggregator := restore s.aggregator (report :: rest), enqueues := s.enqueues.eraseIdx index }
      else none
    | _ => none
  | .finish index =>
    match s.enqueues[index]? with
    | some ⟨[],_⟩ => some { s with enqueues := s.enqueues.eraseIdx index }
    | _ => none
  | .closeChannel => some { s with closed := true }
  | .connect =>
    match s.consumer with
    | .idle => some { s with consumer := .ready }
    | _ => none
  | .offer =>
    match s.consumer, s.inFlight with
    | .ready, some report => some { s with consumer := .sending report }
    | _, _ => none
  | .dequeue =>
    match s.consumer, s.inFlight, s.channel with
    | .ready, none, report :: rest => some { s with inFlight := some report, channel := rest }
    | _, _, _ => none
  | .sent =>
    match s.consumer with
    | .sending report => some { s with consumer := .awaiting report }
    | _ => none
  | .consumed =>
    match s.consumer with
    | .awaiting _ =>
      some { s with inFlight := none, released := s.released ++ s.inFlight.toList, consumer := .ready }
    | _ => none
  | .stop =>
    match s.consumer with
    | .idle => none
    | _ => some { s with consumer := .idle }

/-! ### Bytes in each place -/

def protoBytes (direction : Direction) (report : TrafficReport) : UInt64 :=
  direction.of report.uplinkBytes report.downlinkBytes
def eventBytes (direction : Direction) (observed : SystemTime × TrafficEvent) : UInt64 :=
  direction.of observed.2.uplinkBytes observed.2.downlinkBytes

/-- The bytes of wire reports for an identity and hour. -/
def carried (direction : Direction) (key : CounterKey) (reports : List TrafficReport) : UInt64 :=
  tally TrafficReport.key (protoBytes direction) key reports

/-- The bytes that batches being queued still own. -/
def held (direction : Direction) (key : CounterKey) (s : State) : UInt64 :=
  reported direction key (s.enqueues.flatMap Enqueue.reports)

/-- The observations among the events of a run, each with the clock it was made at. -/
def observations : List Event → List (SystemTime × TrafficEvent)
  | [] => []
  | .observe now event :: rest => (now,event) :: observations rest
  | _ :: rest => observations rest

/-- The bytes observed for an identity and hour. -/
def observed (direction : Direction) (key : CounterKey) (events : List Event) : UInt64 :=
  tally (fun o => o.2.key o.1) (eventBytes direction) key (observations events)

/-- The bytes that wait in counters, channel and in-flight slot or were released. -/
def settled (direction : Direction) (key : CounterKey) (s : State) : UInt64 :=
  counted direction key s.aggregator.counters + carried direction key s.channel +
    carried direction key s.inFlight.toList + carried direction key s.released

/-- An observation whose minute starts within the range of times. -/
def Event.Fits : Event → Prop
  | .observe now event => MinuteFits (event.time now)
  | _ => True

theorem observations_append (events later : List Event) :
    observations (events ++ later) = observations events ++ observations later := by
  induction events with
  | nil => rfl
  | cons e rest ih => cases e <;> simp [observations,ih]

theorem observed_observe (direction : Direction) (key : CounterKey) (events : List Event) (now : SystemTime)
    (event : TrafficEvent) :
    observed direction key (events ++ [.observe now event]) =
      observed direction key events +
        (if event.key now = key then direction.of event.uplinkBytes event.downlinkBytes else 0) := by
  simp [observed,observations_append,observations,eventBytes]

theorem observed_other (direction : Direction) (key : CounterKey) (events : List Event) {e : Event}
    (silent : observations [e] = []) : observed direction key (events ++ [e]) = observed direction key events := by
  simp [observed,observations_append,silent]

/-- A report keeps its identity, hour and bytes on the wire. -/
theorem carried_reportToProto (direction : Direction) (key : CounterKey) (report : Report) :
    carried direction key [reportToProto report] = reported direction key [report] := rfl

theorem reported_cons (direction : Direction) (key : CounterKey) (report : Report) (rest : List Report) :
    reported direction key (report :: rest) = reported direction key [report] + reported direction key rest := by
  simp [reported]

/-- The reports that the batches own besides the batch at `index`. -/
theorem held_split {enqueues : List Enqueue} {index : Nat} {batch : Enqueue} (at_index : enqueues[index]? = some batch)
    (replacement : Enqueue) :
    (enqueues.flatMap Enqueue.reports).Perm (batch.reports ++ (enqueues.eraseIdx index).flatMap Enqueue.reports) ∧
    ((enqueues.set index replacement).flatMap Enqueue.reports).Perm
      (replacement.reports ++ (enqueues.eraseIdx index).flatMap Enqueue.reports) := by
  induction enqueues generalizing index with
  | nil => simp at at_index
  | cons head rest ih =>
    cases index with
    | zero =>
      simp only [List.getElem?_cons_zero,Option.some.injEq] at at_index
      subst at_index
      simp
    | succ n =>
      obtain ⟨kept,replaced⟩ := @ih n (by simpa using at_index)
      simp only [List.flatMap_cons,List.set_cons_succ,List.eraseIdx_cons_succ]
      constructor
      · exact (kept.append_left head.reports).trans (List.perm_append_comm_assoc ..)
      · exact (replaced.append_left head.reports).trans (List.perm_append_comm_assoc ..)

theorem held_at {s : State} {index : Nat} {batch : Enqueue} (at_index : s.enqueues[index]? = some batch)
    (direction : Direction) (key : CounterKey) :
    held direction key s = reported direction key batch.reports +
      reported direction key ((s.enqueues.eraseIdx index).flatMap Enqueue.reports) := by
  have split := (held_split at_index batch).1
  unfold held reported
  rw [tally_perm _ _ _ split,tally_append]

theorem held_set {s : State} {index : Nat} {batch : Enqueue} (at_index : s.enqueues[index]? = some batch)
    (replacement : Enqueue) (direction : Direction) (key : CounterKey) :
    reported direction key ((s.enqueues.set index replacement).flatMap Enqueue.reports) =
      reported direction key replacement.reports +
        reported direction key ((s.enqueues.eraseIdx index).flatMap Enqueue.reports) := by
  have split := (held_split at_index replacement).2
  unfold reported
  rw [tally_perm _ _ _ split,tally_append]

/-- What every run keeps: counters lie in their hours, batches fit the range, and
    the places hold what was observed. -/
structure Invariant (direction : Direction) (key : CounterKey) (events : List Event) (s : State) : Prop where
  hours : HoursHold s.aggregator.counters
  fit : ∀ batch ∈ s.enqueues, ReportsFit batch.reports
  balance : observed direction key events = settled direction key s + held direction key s

theorem invariant_initial (direction : Direction) (key : CounterKey) (minimum : UInt64) (delay : Int) (capacity : Nat) :
    Invariant direction key [] (initial minimum delay capacity) := by
  refine ⟨?_,?_,?_⟩
  · intro entry member; simp [initial] at member
  · intro batch member; simp [initial] at member
  · simp [observed,observations,settled,held,counted,carried,reported,initial]

theorem invariant_step (direction : Direction) (key : CounterKey) (events : List Event) (s : State) (e : Event)
    (s' : State) (before : Invariant direction key events s) (fits : e.Fits) (taken : step s e = some s') :
    Invariant direction key (events ++ [e]) s' := by
  obtain ⟨hours,fit,balance⟩ := before
  cases e with
  | observe now event =>
    simp only [step,Option.some.injEq] at taken
    subst taken
    refine ⟨hoursHold_observe hours now event fits,fit,?_⟩
    rw [observed_observe,balance]
    simp only [settled,held,observe,counted_addLocked]
    grind
  | flush now force =>
    simp only [step,Option.some.injEq] at taken
    subst taken
    obtain ⟨kept,reportsFit⟩ := hoursHold_flushInner hours now force
    refine ⟨kept,?_,?_⟩
    · intro batch member
      rcases List.mem_append.mp member with old | new
      · exact fit batch old
      · rw [List.mem_singleton.mp new]; exact reportsFit
    · rw [observed_other _ _ _ rfl,balance]
      have moved := counted_flushInner direction key hours now force
      simp only [settled,held,moved,List.flatMap_append,List.flatMap_cons,List.flatMap_nil,List.append_nil]
      simp only [reported,tally_append]
      grind
  | queueNext index =>
    simp only [step] at taken
    split at taken
    · next report rest wait at_index =>
      split at taken
      · simp only [Option.some.injEq] at taken
        subst taken
        have batchFit := fit _ (List.mem_of_getElem? at_index)
        refine ⟨hours,?_,?_⟩
        · intro batch member
          rcases List.mem_or_eq_of_mem_set member with old | rfl
          · exact fit batch old
          · exact fun other later => batchFit other (List.mem_cons_of_mem _ later)
        · rw [observed_other _ _ _ rfl,balance,held_at at_index]
          simp only [settled,held,held_set at_index,reported_cons _ _ report rest]
          have wire := carried_reportToProto direction key report
          simp only [carried,tally_append] at wire ⊢
          rw [wire]
          grind
      · cases taken
    · cases taken
  | refuse index cancelled =>
    simp only [step] at taken
    split at taken
    · next report rest wait at_index =>
      split at taken
      · simp only [Option.some.injEq] at taken
        subst taken
        have batchFit := fit _ (List.mem_of_getElem? at_index)
        refine ⟨hoursHold_restore hours _ batchFit,?_,?_⟩
        · intro batch member
          exact fit batch (List.mem_of_mem_eraseIdx member)
        · rw [observed_other _ _ _ rfl,balance,held_at at_index]
          simp only [settled,held,counted_restore]
          grind
      · cases taken
    · cases taken
  | finish index =>
    simp only [step] at taken
    split at taken
    · next wait at_index =>
      simp only [Option.some.injEq] at taken
      subst taken
      refine ⟨hours,?_,?_⟩
      · intro batch member
        exact fit batch (List.mem_of_mem_eraseIdx member)
      · rw [observed_other _ _ _ rfl,balance,held_at at_index]
        simp [settled,held,reported]
    · cases taken
  | closeChannel =>
    simp only [step,Option.some.injEq] at taken
    subst taken
    exact ⟨hours,fit,by rw [observed_other _ _ _ rfl,balance]; rfl⟩
  | connect =>
    simp only [step] at taken
    split at taken
    · simp only [Option.some.injEq] at taken
      subst taken
      exact ⟨hours,fit,by rw [observed_other _ _ _ rfl,balance]; rfl⟩
    · cases taken
  | offer =>
    simp only [step] at taken
    split at taken
    · simp only [Option.some.injEq] at taken
      subst taken
      exact ⟨hours,fit,by rw [observed_other _ _ _ rfl,balance]; rfl⟩
    · cases taken
  | dequeue =>
    simp only [step] at taken
    split at taken
    · next report rest _ empty queue =>
      simp only [Option.some.injEq] at taken
      subst taken
      refine ⟨hours,fit,?_⟩
      rw [observed_other _ _ _ rfl,balance]
      simp only [settled,held,empty,queue,carried,Option.toList_none,Option.toList_some,tally_cons,tally_nil]
      grind
    · cases taken
  | sent =>
    simp only [step] at taken
    split at taken
    · simp only [Option.some.injEq] at taken
      subst taken
      exact ⟨hours,fit,by rw [observed_other _ _ _ rfl,balance]; rfl⟩
    · cases taken
  | consumed =>
    simp only [step] at taken
    split at taken
    · simp only [Option.some.injEq] at taken
      subst taken
      refine ⟨hours,fit,?_⟩
      rw [observed_other _ _ _ rfl,balance]
      simp only [settled,held,carried,Option.toList_none,tally_nil,tally_append]
      grind
    · cases taken
  | stop =>
    simp only [step] at taken
    split at taken
    · cases taken
    · simp only [Option.some.injEq] at taken
      subst taken
      exact ⟨hours,fit,by rw [observed_other _ _ _ rfl,balance]; rfl⟩

/-- In every run whose observations start their minute within the range of
    times, for every identity and hour: the bytes observed are, modulo 2^64, the
    bytes in the counters, in batches being queued, in the channel, in flight and
    released; between batches nothing is held outside the four places. -/
theorem bytes_conserved (minimum : UInt64) (delay : Int) (capacity : Nat) {events : List Event} {s : State}
    (run : Run step (initial minimum delay capacity) events s) (fits : ∀ e ∈ events, e.Fits)
    (direction : Direction) (key : CounterKey) :
    observed direction key events = settled direction key s + held direction key s ∧
      (s.enqueues = [] → observed direction key events = settled direction key s) := by
  have holds := run.keeps Event.Fits (invariant_initial direction key minimum delay capacity)
    (invariant_step direction key) fits
  refine ⟨holds.balance,fun none => ?_⟩
  rw [holds.balance]
  simp [held,none,reported]

/-- One uplink byte of a user, observed at the given time. -/
private def oneByte (at_time : SystemTime) : TrafficEvent :=
  ⟨⟨"machine-1","node-1","user-1","vless"⟩,1,0,some at_time⟩

/-- A batch with one byte is flushed, queued and through. -/
private def flushOne (at_time : SystemTime) : List Event :=
  [.observe at_time (oneByte at_time),.flush at_time false,.queueNext 0,.finish 0]

private theorem flushOne_follow (at_time : SystemTime) :
    follow step (initial 1 1800 1) (flushOne at_time) =
      some ⟨⟨1,1800,[]⟩,[],1,false,
        [⟨⟨"machine-1","node-1","user-1","vless"⟩,1,0,unixSeconds (observationBucketStart (at_time.max at_time))⟩],
        none,.idle,[]⟩ := by
  simp [follow,step,flushOne,oneByte,initial,observe,addLocked,flushInner,extracts,shouldReport,
    CounterValue.isZero,reportOf,reportToProto,TrafficEvent.key,TrafficEvent.time]

theorem bytes_conserved_one_byte :
    observed .uplink ⟨⟨"machine-1","node-1","user-1","vless"⟩,0⟩ (flushOne unixEpoch) = 1 ∧
      ∃ s, Run step (initial 1 1800 1) (flushOne unixEpoch) s ∧
        settled .uplink ⟨⟨"machine-1","node-1","user-1","vless"⟩,0⟩ s = 1 := by
  have run := Run.of_follow (flushOne_follow unixEpoch)
  have fits : ∀ e ∈ flushOne unixEpoch, e.Fits := by
    intro e member
    simp only [flushOne,List.mem_cons,List.not_mem_nil,or_false] at member
    rcases member with rfl | rfl | rfl | rfl
    · show MinuteFits unixEpoch; decide
    · trivial
    · trivial
    · trivial
  have conserved := (bytes_conserved 1 1800 1 run fits .uplink ⟨⟨"machine-1","node-1","user-1","vless"⟩,0⟩).2 rfl
  have one : observed .uplink ⟨⟨"machine-1","node-1","user-1","vless"⟩,0⟩ (flushOne unixEpoch) = 1 := by decide
  exact ⟨one,_,run,conserved.symm.trans one⟩

private theorem no_nanos : 0 < 10 ^ 9 := by decide

/-- The first second of the range of times. -/
private def firstSecond : SystemTime := ⟨-9223372036854775808,0,by decide,no_nanos⟩

/-- A byte observed in the first second of the range leaves its hour: the start of
    its minute wraps to the end of the range. -/
theorem first_second_changes_hour :
    ¬ ∀ (minimum : UInt64) (delay : Int) (capacity : Nat) (events : List Event) (s : State),
      Run step (initial minimum delay capacity) events s → s.enqueues = [] →
        ∀ direction key, observed direction key events = settled direction key s := by
  intro conserved
  have run := Run.of_follow (flushOne_follow firstSecond)
  have equal := conserved 1 1800 1 _ _ run rfl .uplink
    ⟨⟨"machine-1","node-1","user-1","vless"⟩,observationHour firstSecond⟩
  revert equal
  decide

end NodeAgent.TrafficQueue
