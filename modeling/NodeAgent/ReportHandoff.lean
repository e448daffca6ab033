import NodeAgent.TrafficQueue

/-!
How a report leaves the agent. `consume_reports` keeps the report it is about to hand
over in the queue's in-flight slot, offers a copy to an outgoing channel that holds one
item, and clears the slot once the request stream has signalled that it yielded the copy
to the RPC. Any number of stream generations share one queue, the latest one after the
receivers of the one before were released; a request stream may be polled until it is
dropped, also after its consumer has stopped.
-/
namespace NodeAgent.ReportHandoff
open NodeAgent.TrafficQueue (TrafficReport)
open NodeAgent.Transition

/-- A report with the number of its place in the queue. -/
structure Queued where
  ticket : Nat
  report : TrafficReport
deriving DecidableEq

/-- The oneshot that goes with an outgoing report. -/
inductive Signal
  | waiting
  /-- `acknowledge_consumption` has run. -/
  | sent
  /-- The report was dropped unyielded, and its sender with it. -/
  | dropped
deriving DecidableEq

inductive ConsumeStop
  | drain
  | cancelled
  | outgoingClosed
deriving DecidableEq

/-- `consume_reports` between two awaits. -/
inductive Consumer
  /-- Waits for the receivers. -/
  | locking
  /-- At the head of the loop. -/
  | ready
  /-- The copy of the in-flight report waits for room in the outgoing channel. -/
  | sending (copy : Queued)
  /-- The copy was buffered; the select is about to look at the signal. -/
  | awaiting (copy : Queued)
  /-- The select has found no signal and is about to look at the token. -/
  | unsignalled (copy : Queued)
  /-- Returned, or dropped at an await. -/
  | stopped (stop : Option ConsumeStop)
deriving DecidableEq

/-- One traffic stream: its consumer, its outgoing channel and its request stream. -/
structure Generation where
  consumer : Consumer
  cancelled : Bool
  buffer : Option Queued
  /-- Of the report that was last put in the buffer. -/
  signal : Signal
  streamAlive : Bool

structure State where
  capacity : Nat
  channel : List Queued
  drainRequested : Bool
  inFlight : Option Queued
  nextTicket : Nat
  generations : List Generation
  /-- What request streams have yielded to their RPCs, the latest last. -/
  yielded : List Queued

def initial (capacity : Nat) : State := ⟨capacity,[],false,none,0,[],[]⟩

/-- Whether the consumer holds both receivers. -/
def Consumer.holds : Consumer → Bool
  | .locking => false
  | .stopped _ => false
  | _ => true

/-- The report whose signal the consumer waits for. -/
def Consumer.waitsFor : Consumer → Option Queued
  | .awaiting copy => some copy
  | .unsignalled copy => some copy
  | _ => none

inductive Event
  | enqueue (report : TrafficReport)
  | requestDrain
  /-- Another `run_traffic_stream` starts. -/
  | connect
  | lock (g : Nat)
  | cancel (g : Nat)
  /-- The loop finds a report in flight. -/
  | offer (g : Nat)
  | send (g : Nat)
  | sendFailed (g : Nat)
  | pollSignal (g : Nat)
  | pollCancel (g : Nat)
  /-- The loop finds nothing in flight and takes the next report. -/
  | receive (g : Nat)
  /-- The loop finds nothing in flight and stops. -/
  | finish (g : Nat)
  /-- The consumer is dropped at an await. -/
  | abandon (g : Nat)
  /-- The RPC polls the request stream and finds the buffered report. -/
  | poll (g : Nat)
  | dropStream (g : Nat)

/-- A step of one generation. -/
def State.update (s : State) (g : Nat) (f : Generation → Option Generation) : Option State :=
  match s.generations[g]? with
  | none => none
  | some gen => (f gen).map (fun gen' => { s with generations := s.generations.set g gen' })

def step (s : State) : Event → Option State
  | .enqueue report =>
    if s.channel.length < s.capacity then
      some { s with channel := s.channel ++ [⟨s.nextTicket,report⟩], nextTicket := s.nextTicket + 1 }
    else none
  | .requestDrain => some { s with drainRequested := true }
  | .connect => some { s with generations := s.generations ++ [⟨.locking,false,none,.waiting,true⟩] }
  | .lock g => s.update g (fun gen =>
      if gen.consumer = .locking ∧ ∀ other ∈ s.generations, other.consumer.holds = false then some { gen with consumer := .ready }
      else none)
  | .cancel g => s.update g (fun gen => some { gen with cancelled := true })
  | .offer g => s.update g (fun gen =>
      match gen.consumer, s.inFlight with
      | .ready, some report => some { gen with consumer := .sending report }
      | _, _ => none)
  -- The token may be cancelled after the select has looked at it, so a send does not ask.
  | .send g => s.update g (fun gen =>
      match gen.consumer, gen.buffer with
      | .sending copy, none =>
        if gen.streamAlive then some { gen with consumer := .awaiting copy, buffer := some copy, signal := .waiting } else none
      | _, _ => none)
  | .sendFailed g => s.update g (fun gen =>
      match gen.consumer with
      | .sending _ =>
        if gen.cancelled then some { gen with consumer := .stopped (some .cancelled) }
        else if gen.streamAlive = false then some { gen with consumer := .stopped (some .outgoingClosed) }
        else none
      | _ => none)
  | .pollSignal g =>
    match s.generations[g]? with
    | none => none
    | some gen =>
      match gen.consumer, gen.signal with
      | .awaiting _, .sent =>
        some { s with inFlight := none, generations := s.generations.set g { gen with consumer := .ready } }
      | .awaiting _, .dropped =>
        let stop := if gen.cancelled then ConsumeStop.cancelled else .outgoingClosed
        some { s with generations := s.generations.set g { gen with consumer := .stopped (some stop) } }
      | .awaiting copy, .waiting =>
        some { s with generations := s.generations.set g { gen with consumer := .unsignalled copy } }
      | _, _ => none
  | .pollCancel g => s.update g (fun gen =>
      match gen.consumer with
      | .unsignalled copy =>
        if gen.cancelled then some { gen with consumer := .stopped (some .cancelled) } else some { gen with consumer := .awaiting copy }
      | _ => none)
  | .receive g =>
    match s.generations[g]?, s.inFlight, s.channel with
    | some gen, none, report :: rest =>
      if gen.consumer = .ready then some { s with inFlight := some report, channel := rest } else none
    | _, _, _ => none
  | .finish g =>
    match s.generations[g]?, s.inFlight with
    | some gen, none =>
      if gen.consumer = .ready then
        if gen.cancelled then
          some { s with generations := s.generations.set g { gen with consumer := .stopped (some .cancelled) } }
        else if s.drainRequested then
          some { s with drainRequested := false, generations := s.generations.set g { gen with consumer := .stopped (some .drain) } }
        else none
      else none
    | _, _ => none
  | .abandon g => s.update g (fun gen =>
      match gen.consumer with
      | .stopped _ => none
      | _ => some { gen with consumer := .stopped none })
  | .poll g =>
    match s.generations[g]? with
    | none => none
    | some gen =>
      match gen.streamAlive, gen.buffer with
      | true, some copy =>
        some { s with yielded := s.yielded ++ [copy], generations := s.generations.set g { gen with buffer := none, signal := .sent } }
      | _, _ => none
  | .dropStream g => s.update g (fun gen => some
      { gen with
        streamAlive := false
        buffer := none
        signal := if gen.buffer.isSome then .dropped else gen.signal })

/-- No stream yields a report that its consumer has stopped to wait for, and no consumer
    stops while the signal for its report is on the way. -/
def Proper (s : State) : Event → Bool
  | .poll g => (s.generations[g]?).all (fun gen => gen.consumer.waitsFor.isSome)
  | .pollCancel g => (s.generations[g]?).all (fun gen => !gen.cancelled || gen.signal ≠ .sent)
  | .abandon g => (s.generations[g]?).all (fun gen => gen.consumer.waitsFor.isNone || gen.signal ≠ .sent)
  | _ => true

/-! ### The invariant -/

def tickets (reports : List Queued) : List Nat := reports.map Queued.ticket

theorem tickets_append (first second : List Queued) : tickets (first ++ second) = tickets first ++ tickets second :=
  List.map_append

/-- Every report is in the channel, in flight, or handed over. -/
structure Queue (nextTicket : Nat) (channel : List Queued) (inFlight : Option Queued) (yielded : List Queued) : Prop where
  fresh : ∀ ticket ∈ tickets (channel ++ inFlight.toList ++ yielded), ticket < nextTicket
  waiting : (tickets (channel ++ inFlight.toList)).Nodup
  unyielded : ∀ ticket ∈ tickets channel, ticket ∉ tickets yielded
  once : (tickets yielded).Nodup

/-- The report in flight was not handed over. -/
def Kept (inFlight : Option Queued) (yielded : List Queued) : Prop :=
  ∀ report, inFlight = some report → report.ticket ∉ tickets yielded

/-- A consumer that waits for a signal has its report in flight, and the stream has its
    copy as long as the signal is out. -/
structure Offered (inFlight : Option Queued) (yielded : List Queued) (buffer : Option Queued) (signal : Signal) (copy : Queued) : Prop where
  held : inFlight = some copy
  unsent : signal ≠ .sent → copy.ticket ∉ tickets yielded
  buffered : ∀ report, buffer = some report → report = copy ∧ signal = .waiting

/-- What a consumer knows about the in-flight slot. -/
def Settled (inFlight : Option Queued) (yielded : List Queued) (gen : Generation) : Prop :=
  match gen.consumer with
  | .ready => Kept inFlight yielded
  | .sending copy => inFlight = some copy ∧ copy.ticket ∉ tickets yielded
  | .awaiting copy => Offered inFlight yielded gen.buffer gen.signal copy
  | .unsignalled copy => Offered inFlight yielded gen.buffer gen.signal copy
  | _ => True

theorem settled_waiting {inFlight : Option Queued} {yielded : List Queued} {gen : Generation} {copy : Queued}
    (waits : gen.consumer.waitsFor = some copy) :
    Settled inFlight yielded gen ↔ Offered inFlight yielded gen.buffer gen.signal copy := by
  unfold Settled
  cases phase : gen.consumer <;> rw [phase] at waits <;> cases waits <;> rfl

structure Inv (s : State) : Prop where
  queue : Queue s.nextTicket s.channel s.inFlight s.yielded
  /-- One generation at a time holds the receivers. -/
  alone : ∀ (i j : Nat) (gen other : Generation), s.generations[i]? = some gen → s.generations[j]? = some other →
    gen.consumer.holds = true → other.consumer.holds = true → i = j
  settled : ∀ (i : Nat) (gen : Generation), s.generations[i]? = some gen → Settled s.inFlight s.yielded gen
  released : (∀ gen ∈ s.generations, gen.consumer.holds = false) → Kept s.inFlight s.yielded

theorem settled_of_idle {inFlight : Option Queued} {yielded : List Queued} {gen : Generation} (idle : gen.consumer.holds = false) :
    Settled inFlight yielded gen := by
  unfold Settled
  cases phase : gen.consumer <;> rw [phase] at idle <;> trivial

/-- A consumer that holds no report with the stream knows that the one in flight was not
    handed over. -/
theorem kept_of_settled {inFlight : Option Queued} {yielded : List Queued} {gen : Generation} (settled : Settled inFlight yielded gen)
    (holds : gen.consumer.holds = true) (quiet : gen.consumer.waitsFor.isNone ∨ gen.signal ≠ .sent) : Kept inFlight yielded := by
  have offered {copy : Queued} (offered : Offered inFlight yielded gen.buffer gen.signal copy) (unsent : gen.signal ≠ .sent) : Kept inFlight yielded := by
    intro report held
    rw [offered.held,Option.some.injEq] at held
    rw [← held]
    exact offered.unsent unsent
  unfold Settled at settled
  cases phase : gen.consumer with
  | locking => rw [phase] at holds; cases holds
  | stopped stop => rw [phase] at holds; cases holds
  | ready => rw [phase] at settled; exact settled
  | sending copy =>
    rw [phase] at settled
    intro report held
    rw [settled.1,Option.some.injEq] at held
    rw [← held]
    exact settled.2
  | awaiting copy =>
    rw [phase] at settled quiet
    exact offered settled (quiet.resolve_left (by simp [Consumer.waitsFor]))
  | unsignalled copy =>
    rw [phase] at settled quiet
    exact offered settled (quiet.resolve_left (by simp [Consumer.waitsFor]))

section
variable {s : State} {g : Nat} {gen gen' : Generation}

theorem lookup_set {i : Nat} {other : Generation} (found : (s.generations.set g gen')[i]? = some other) :
    (i = g ∧ other = gen') ∨ (i ≠ g ∧ s.generations[i]? = some other) := by
  rw [List.getElem?_set] at found
  split at found
  · next same =>
    split at found
    · cases found
      exact .inl ⟨same.symm,rfl⟩
    · cases found
  · next different => exact .inr ⟨fun same => different same.symm,found⟩

/-- The generations next to a holder hold nothing. -/
theorem Inv.others (inv : Inv s) (at_g : s.generations[g]? = some gen) (holds : gen.consumer.holds = true) {i : Nat} {other : Generation}
    (different : i ≠ g) (found : s.generations[i]? = some other) : other.consumer.holds = false := by
  cases theirs : other.consumer.holds with
  | false => rfl
  | true => exact absurd (inv.alone i g other gen found at_g theirs holds) different

/-- A step of a generation that leaves the queue alone. -/
theorem Inv.set (inv : Inv s) (at_g : s.generations[g]? = some gen)
    (takes : gen'.consumer.holds = true → gen.consumer.holds = true ∨ ∀ other ∈ s.generations, other.consumer.holds = false)
    (settled : Settled s.inFlight s.yielded gen')
    (leaves : gen.consumer.holds = true → gen'.consumer.holds = false → Kept s.inFlight s.yielded) :
    Inv { s with generations := s.generations.set g gen' } := by
  have idle (holds : gen'.consumer.holds = true) {i : Nat} {other : Generation} (different : i ≠ g)
      (found : s.generations[i]? = some other) : other.consumer.holds = false := by
    rcases takes holds with before | none_holds
    · exact inv.others at_g before different found
    · exact none_holds other (List.mem_of_getElem? found)
  refine ⟨inv.queue,?_,?_,?_⟩
  · intro i j first second atI atJ holds holds'
    rcases lookup_set atI with ⟨rfl,rfl⟩ | ⟨apart,wasI⟩
    · rcases lookup_set atJ with ⟨rfl,_⟩ | ⟨apart',wasJ⟩
      · rfl
      · rw [idle holds apart' wasJ] at holds'
        cases holds'
    · rcases lookup_set atJ with ⟨rfl,rfl⟩ | ⟨_,wasJ⟩
      · rw [idle holds' apart wasI] at holds
        cases holds
      · exact inv.alone i j first second wasI wasJ holds holds'
  · intro i other found
    rcases lookup_set found with ⟨_,rfl⟩ | ⟨_,was⟩
    · exact settled
    · exact inv.settled i other was
  · intro none_holds
    cases before : gen.consumer.holds with
    | true => exact leaves before (none_holds gen' (List.mem_set (List.getElem?_eq_some_iff.mp at_g).1 gen'))
    | false =>
      refine inv.released ?_
      intro other member
      obtain ⟨i,found⟩ := List.mem_iff_getElem?.mp member
      by_cases same : i = g
      · subst same
        rw [at_g,Option.some.injEq] at found
        rw [← found]
        exact before
      · refine none_holds other (List.mem_iff_getElem?.mpr ⟨i,?_⟩)
        rw [List.getElem?_set_ne (Ne.symm same)]
        exact found

/-- A step of the holder that changes the queue. -/
theorem Inv.hold (inv : Inv s) (next : Generation) (at_g : s.generations[g]? = some gen) (holds : gen.consumer.holds = true)
    (holds' : next.consumer.holds = true) {channel yielded : List Queued} {inFlight : Option Queued}
    (queue : Queue s.nextTicket channel inFlight yielded) (settled : Settled inFlight yielded next) :
    Inv { s with channel := channel, inFlight := inFlight, yielded := yielded, generations := s.generations.set g next } := by
  refine ⟨queue,?_,?_,?_⟩
  · intro i j first second atI atJ theirs theirs'
    rcases lookup_set atI with ⟨rfl,_⟩ | ⟨apart,was⟩
    · rcases lookup_set atJ with ⟨rfl,_⟩ | ⟨apart',was'⟩
      · rfl
      · rw [inv.others at_g holds apart' was'] at theirs'
        cases theirs'
    · rw [inv.others at_g holds apart was] at theirs
      cases theirs
  · intro i other found
    rcases lookup_set found with ⟨_,rfl⟩ | ⟨apart,was⟩
    · exact settled
    · exact settled_of_idle (inv.others at_g holds apart was)
  · intro none_holds
    have no := none_holds next (List.mem_set (List.getElem?_eq_some_iff.mp at_g).1 next)
    rw [holds'] at no
    cases no

theorem update_eq_some {f : Generation → Option Generation} {s' : State} (updated : s.update g f = some s') :
    ∃ gen gen', s.generations[g]? = some gen ∧ f gen = some gen' ∧ s' = { s with generations := s.generations.set g gen' } := by
  unfold State.update at updated
  split at updated
  · cases updated
  · next gen at_g =>
    obtain ⟨gen',made,rfl⟩ := Option.map_eq_some_iff.mp updated
    exact ⟨gen,gen',at_g,made,rfl⟩

/-- A consumer that stops when its stream has nothing of it. -/
theorem Inv.stop (inv : Inv s) (at_g : s.generations[g]? = some gen) (stop : Option ConsumeStop)
    (quiet : gen.consumer.waitsFor.isNone ∨ gen.signal ≠ .sent) :
    Inv { s with generations := s.generations.set g { gen with consumer := .stopped stop } } := by
  refine inv.set at_g (by intro holds; cases holds) trivial ?_
  intro holds _
  exact kept_of_settled (inv.settled g gen at_g) holds quiet

end

theorem inv_initial (capacity : Nat) : Inv (initial capacity) := by
  refine ⟨⟨?_,List.nodup_nil,?_,List.nodup_nil⟩,?_,?_,?_⟩
  · intro ticket member
    cases member
  · intro ticket member
    cases member
  · intro i j gen other atI
    cases atI
  · intro i gen atI
    cases atI
  · intro _ report held
    cases held

theorem queue_enqueue {nextTicket : Nat} {channel yielded : List Queued} {inFlight : Option Queued}
    (queue : Queue nextTicket channel inFlight yielded) (report : TrafficReport) :
    Queue (nextTicket + 1) (channel ++ [⟨nextTicket,report⟩]) inFlight yielded := by
  have old {ticket : Nat} (member : ticket ∈ tickets (channel ++ inFlight.toList ++ yielded)) : ticket ≠ nextTicket :=
    Nat.ne_of_lt (queue.fresh ticket member)
  have fresh := queue.fresh
  have waiting := queue.waiting
  simp only [tickets_append,List.mem_append] at fresh old waiting
  refine ⟨?_,?_,?_,queue.once⟩
  · intro ticket member
    simp only [tickets_append,List.mem_append] at member
    rcases member with ((held | new) | held) | held
    · exact Nat.lt_succ_of_lt (fresh ticket (.inl (.inl held)))
    · rw [show ticket = nextTicket by simpa [tickets] using new]
      exact Nat.lt_succ_self nextTicket
    · exact Nat.lt_succ_of_lt (fresh ticket (.inl (.inr held)))
    · exact Nat.lt_succ_of_lt (fresh ticket (.inr held))
  · have moved : (tickets (channel ++ [⟨nextTicket,report⟩] ++ inFlight.toList)).Perm
        (nextTicket :: (tickets channel ++ tickets inFlight.toList)) := by
      rw [List.append_assoc,tickets_append,tickets_append]
      exact List.perm_middle
    refine moved.nodup_iff.mpr (List.nodup_cons.mpr ⟨?_,waiting⟩)
    intro member
    rcases List.mem_append.mp member with held | held
    · exact old (.inl (.inl held)) rfl
    · exact old (.inl (.inr held)) rfl
  · intro ticket member
    rw [tickets_append,List.mem_append] at member
    rcases member with held | new
    · exact queue.unyielded ticket held
    · rw [show ticket = nextTicket by simpa [tickets] using new]
      intro handed
      exact old (.inr handed) rfl

theorem queue_receive {nextTicket : Nat} {rest yielded : List Queued} {report : Queued}
    (queue : Queue nextTicket (report :: rest) none yielded) :
    Queue nextTicket rest (some report) yielded ∧ Kept (some report) yielded := by
  have moved : (rest ++ [report]).Perm (report :: rest) := List.perm_append_singleton report rest
  refine ⟨⟨?_,?_,?_,queue.once⟩,?_⟩
  · intro ticket member
    refine queue.fresh ticket ?_
    have all : (rest ++ [report] ++ yielded).Perm (report :: rest ++ [] ++ yielded) := by
      rw [List.append_nil]
      exact moved.append_right yielded
    exact (all.map Queued.ticket).mem_iff.mp member
  · have waiting := queue.waiting
    rw [Option.toList_none,List.append_nil] at waiting
    exact (moved.map Queued.ticket).nodup_iff.mpr waiting
  · intro ticket member
    exact queue.unyielded ticket (List.mem_cons_of_mem report.ticket member)
  · rintro found held
    cases held
    exact queue.unyielded report.ticket List.mem_cons_self

/-- The report in flight goes out once. -/
theorem queue_yield {nextTicket : Nat} {channel yielded : List Queued} {copy : Queued}
    (queue : Queue nextTicket channel (some copy) yielded) (kept : copy.ticket ∉ tickets yielded) :
    Queue nextTicket channel (some copy) (yielded ++ [copy]) := by
  have waiting := queue.waiting
  rw [tickets_append] at waiting
  refine ⟨?_,queue.waiting,?_,?_⟩
  · intro ticket member
    refine queue.fresh ticket ?_
    simp only [tickets_append,List.mem_append] at member ⊢
    rcases member with held | held | handed
    · exact .inl held
    · exact .inr held
    · exact .inl (.inr handed)
  · intro ticket member handed
    rw [tickets_append,List.mem_append] at handed
    rcases handed with before | now
    · exact queue.unyielded ticket member before
    · exact List.disjoint_of_nodup_append waiting member now
  · rw [tickets_append]
    refine List.nodup_append.mpr ⟨queue.once,List.nodup_singleton _,?_⟩
    rintro ticket before other now rfl
    rw [show ticket = copy.ticket by simpa [tickets] using now] at before
    exact kept before

/-- A lookup of the generation that a proper step is about. -/
theorem proper_at {s : State} {g : Nat} {gen : Generation} {condition : Generation → Bool} (at_g : s.generations[g]? = some gen)
    (proper : (s.generations[g]?).all condition = true) : condition gen = true := by
  rw [at_g] at proper
  exact proper

theorem inv_step {s s' : State} {e : Event} (inv : Inv s) (proper : Proper s e = true) (stepped : step s e = some s') : Inv s' := by
  cases e with
  | enqueue report =>
    simp only [step] at stepped
    split at stepped
    · cases stepped
      exact ⟨queue_enqueue inv.queue report,inv.alone,inv.settled,inv.released⟩
    · cases stepped
  | requestDrain =>
    cases stepped
    exact ⟨inv.queue,inv.alone,inv.settled,inv.released⟩
  | connect =>
    cases stepped
    have lookup {i : Nat} {gen : Generation} (found : (s.generations ++ [⟨.locking,false,none,.waiting,true⟩])[i]? = some gen) :
        s.generations[i]? = some gen ∨ gen.consumer.holds = false := by
      rcases List.mem_append.mp (List.mem_of_getElem? found) with _ | last
      · by_cases inside : i < s.generations.length
        · rw [List.getElem?_append_left inside] at found
          exact .inl found
        · rw [List.getElem?_append_right (Nat.le_of_not_lt inside)] at found
          rw [List.mem_singleton.mp (List.mem_of_getElem? found)]
          exact .inr rfl
      · rw [List.mem_singleton.mp last]
        exact .inr rfl
    refine ⟨inv.queue,?_,?_,?_⟩
    · intro i j gen other atI atJ holds holds'
      rcases lookup atI with was | idle
      · rcases lookup atJ with was' | idle
        · exact inv.alone i j gen other was was' holds holds'
        · rw [idle] at holds'; cases holds'
      · rw [idle] at holds; cases holds
    · intro i gen found
      rcases lookup found with was | idle
      · exact inv.settled i gen was
      · exact settled_of_idle idle
    · intro none_holds
      exact inv.released (fun gen member => none_holds gen (List.mem_append_left _ member))
  | lock g =>
    obtain ⟨gen,gen',at_g,made,rfl⟩ := update_eq_some stepped
    split at made
    · next free =>
      cases made
      refine inv.set at_g (fun _ => .inr free.2) (inv.released free.2) ?_
      intro holds
      rw [free.1] at holds
      cases holds
    · cases made
  | cancel g =>
    obtain ⟨gen,gen',at_g,made,rfl⟩ := update_eq_some stepped
    cases made
    have settled := inv.settled g gen at_g
    refine inv.set at_g .inl ?_ ?_
    · unfold Settled at settled ⊢
      dsimp only
      cases phase : gen.consumer <;> rw [phase] at settled <;> exact settled
    · intro holds idle
      rw [holds] at idle
      cases idle
  | offer g =>
    obtain ⟨gen,gen',at_g,made,rfl⟩ := update_eq_some stepped
    split at made
    · next report phase held =>
      cases made
      have settled := inv.settled g gen at_g
      unfold Settled at settled
      rw [phase] at settled
      refine inv.set at_g (fun _ => .inl (by rw [phase]; rfl)) ⟨held,settled report held⟩ ?_
      intro _ idle
      cases idle
    · cases made
  | send g =>
    obtain ⟨gen,gen',at_g,made,rfl⟩ := update_eq_some stepped
    split at made
    · next copy phase empty =>
      split at made
      · cases made
        have settled := inv.settled g gen at_g
        unfold Settled at settled
        rw [phase] at settled
        refine inv.set at_g (fun _ => .inl (by rw [phase]; rfl)) ⟨settled.1,fun _ => settled.2,?_⟩ ?_
        · rintro report buffered
          cases buffered
          exact ⟨rfl,rfl⟩
        · intro _ idle
          cases idle
      · cases made
    · cases made
  | sendFailed g =>
    obtain ⟨gen,gen',at_g,made,rfl⟩ := update_eq_some stepped
    split at made
    · next copy phase =>
      have quiet : gen.consumer.waitsFor.isNone ∨ gen.signal ≠ .sent := by rw [phase]; exact .inl rfl
      split at made
      · cases made
        exact inv.stop at_g _ quiet
      · split at made
        · cases made
          exact inv.stop at_g _ quiet
        · cases made
    · cases made
  | pollSignal g =>
    simp only [step] at stepped
    split at stepped
    · cases stepped
    next gen at_g =>
    have settled := inv.settled g gen at_g
    unfold Settled at settled
    split at stepped
    · next copy phase signal =>
      cases stepped
      rw [phase] at settled
      have queue := inv.queue
      refine inv.hold { gen with consumer := .ready } at_g (by rw [phase]; rfl) rfl ⟨?_,?_,queue.unyielded,queue.once⟩ ?_
      · intro ticket member
        refine queue.fresh ticket ?_
        simp only [tickets_append,List.mem_append] at member ⊢
        rcases member with (held | none_there) | handed
        · exact .inl (.inl held)
        · cases none_there
        · exact .inr handed
      · have waiting := queue.waiting
        rw [tickets_append] at waiting ⊢
        exact List.nodup_append.mpr ⟨(List.nodup_append.mp waiting).1,List.nodup_nil,by intro _ _ _ none_there; cases none_there⟩
      · intro report held
        cases held
    · next copy phase signal =>
      cases stepped
      exact inv.stop at_g _ (.inr (by rw [signal]; intro no; cases no))
    · next copy phase signal =>
      cases stepped
      rw [phase] at settled
      refine inv.set at_g (fun _ => .inl (by rw [phase]; rfl)) ⟨settled.held,settled.unsent,settled.buffered⟩ ?_
      intro _ idle
      cases idle
    · cases stepped
  | pollCancel g =>
    obtain ⟨gen,gen',at_g,made,rfl⟩ := update_eq_some stepped
    split at made
    · next copy phase =>
      split at made
      · next cancelled =>
        cases made
        have unsent := proper_at at_g proper
        rw [cancelled] at unsent
        exact inv.stop at_g _ (.inr (by simpa using unsent))
      · cases made
        have settled := inv.settled g gen at_g
        unfold Settled at settled
        rw [phase] at settled
        refine inv.set at_g (fun _ => .inl (by rw [phase]; rfl)) ⟨settled.held,settled.unsent,settled.buffered⟩ ?_
        intro _ idle
        cases idle
    · cases made
  | receive g =>
    simp only [step] at stepped
    split at stepped
    · next gen report rest at_g empty waiting =>
      split at stepped
      · next phase =>
        cases stepped
        have queue := inv.queue
        rw [empty,waiting] at queue
        obtain ⟨received,kept⟩ := queue_receive queue
        have settled : Settled (some report) s.yielded gen := by
          unfold Settled
          rw [phase]
          exact kept
        have after := inv.hold gen at_g (by rw [phase]; rfl) (by rw [phase]; rfl) received settled
        have same : s.generations.set g gen = s.generations := by
          obtain ⟨inside,found⟩ := List.getElem?_eq_some_iff.mp at_g
          rw [← found]
          exact List.set_getElem_self inside
        rw [same] at after
        exact after
      · cases stepped
    · cases stepped
  | finish g =>
    simp only [step] at stepped
    split at stepped
    · next gen at_g empty =>
      split at stepped
      · next phase =>
        have quiet : gen.consumer.waitsFor.isNone ∨ gen.signal ≠ .sent := by rw [phase]; exact .inl rfl
        split at stepped
        · cases stepped
          exact inv.stop at_g _ quiet
        · split at stepped
          · cases stepped
            have after := inv.stop at_g (some .drain) quiet
            exact ⟨after.queue,after.alone,after.settled,after.released⟩
          · cases stepped
      · cases stepped
    · cases stepped
  | abandon g =>
    obtain ⟨gen,gen',at_g,made,rfl⟩ := update_eq_some stepped
    have quiet := proper_at at_g proper
    simp only [Bool.or_eq_true,decide_eq_true_eq] at quiet
    split at made
    · cases made
    · cases made
      exact inv.stop at_g none quiet
  | poll g =>
    simp only [step] at stepped
    split at stepped
    · cases stepped
    next gen at_g =>
    split at stepped
    · next copy alive buffered =>
      cases stepped
      have waits := proper_at at_g proper
      have settled := inv.settled g gen at_g
      -- The consumer still waits, so the copy is the report in flight.
      obtain ⟨mine,waits⟩ := Option.isSome_iff_exists.mp waits
      have offered := (settled_waiting waits).mp settled
      obtain ⟨rfl,signal⟩ := offered.buffered copy buffered
      have kept := offered.unsent (by rw [signal]; intro no; cases no)
      have holds : gen.consumer.holds = true := by
        cases phase : gen.consumer <;> rw [phase] at waits <;> cases waits <;> rfl
      have queue := inv.queue
      rw [offered.held] at queue
      have after : Settled (some copy) (s.yielded ++ [copy]) { gen with buffer := none, signal := .sent } := by
        refine (settled_waiting (show ({ gen with buffer := none, signal := .sent } : Generation).consumer.waitsFor = some copy from waits)).mpr
          ⟨rfl,fun unsent => absurd rfl unsent,?_⟩
        intro report none_there
        cases none_there
      have whole := inv.hold { gen with buffer := none, signal := .sent } at_g holds holds (queue_yield queue kept) after
      rw [← offered.held] at whole
      exact whole
    · cases stepped
  | dropStream g =>
    obtain ⟨gen,gen',at_g,made,rfl⟩ := update_eq_some stepped
    cases made
    have settled := inv.settled g gen at_g
    have offered {copy : Queued} (offered : Offered s.inFlight s.yielded gen.buffer gen.signal copy) :
        Offered s.inFlight s.yielded none (if gen.buffer.isSome then .dropped else gen.signal) copy := by
      refine ⟨offered.held,?_,?_⟩
      · intro unsent
        cases held : gen.buffer with
        | none =>
          rw [held] at unsent
          exact offered.unsent unsent
        | some report =>
          refine offered.unsent ?_
          rw [(offered.buffered report held).2]
          intro no
          cases no
      · intro report none_there
        cases none_there
    refine inv.set at_g .inl ?_ ?_
    · unfold Settled at settled ⊢
      dsimp only
      cases phase : gen.consumer <;> rw [phase] at settled <;> first
        | exact offered settled
        | exact settled
    · intro holds idle
      rw [holds] at idle
      cases idle

/-- In every run in which no stream yields a report after its consumer has stopped to wait
    for it, and no consumer stops over a signal that is on the way, each report that was
    put in the queue is yielded at most once. -/
theorem yielded_at_most_once (capacity : Nat) {events : List Event} {s : State}
    (run : Run (guarded Proper step) (initial capacity) events s) (ticket : Nat) : (tickets s.yielded).count ticket ≤ 1 := by
  have inv : Inv s := run.invariant (inv_initial capacity) (fun _ _ _ inv stepped => by
    obtain ⟨proper,stepped⟩ := guarded_eq_some.mp stepped
    exact inv_step inv proper stepped)
  exact List.nodup_iff_count_le_one.mp inv.queue.once ticket

def oneReport : TrafficReport := ⟨⟨"machine","node","user","vless"⟩,21,22,1200⟩

/-- A report that waits while the token is cancelled, and is delivered by the next stream. -/
theorem yielded_at_most_once_reconnect : ∃ s,
    Run (guarded Proper step) (initial 1) [.enqueue oneReport,.connect,.lock 0,.receive 0,.offer 0,.send 0,.cancel 0,.pollSignal 0,
      .pollCancel 0,.dropStream 0,.connect,.lock 1,.offer 1,.send 1,.poll 1,.pollSignal 1] s ∧
    s.yielded.length = 1 ∧ (tickets s.yielded).count 0 ≤ 1 := by
  have followed : (follow (guarded Proper step) (initial 1) [.enqueue oneReport,.connect,.lock 0,.receive 0,.offer 0,.send 0,.cancel 0,
      .pollSignal 0,.pollCancel 0,.dropStream 0,.connect,.lock 1,.offer 1,.send 1,.poll 1,.pollSignal 1]).map
      (fun s => s.yielded.length) = some 1 := by decide
  obtain ⟨s,reached,length⟩ := Option.map_eq_some_iff.mp followed
  have run := Run.of_follow reached
  exact ⟨s,run,length,yielded_at_most_once 1 run 0⟩

/-- The token is cancelled while the copy waits in the buffer, the consumer returns, the RPC
    polls the copy during the grace period, and the next stream sends the report again. -/
theorem cancelled_report_yielded_twice : ∃ events s, Run step (initial 1) events s ∧ (tickets s.yielded).count 0 = 2 := by
  have followed : (follow step (initial 1) [.enqueue oneReport,.connect,.lock 0,.receive 0,.offer 0,.send 0,.cancel 0,.pollSignal 0,
      .pollCancel 0,.poll 0,.dropStream 0,.connect,.lock 1,.offer 1,.send 1,.poll 1]).map
      (fun s => (tickets s.yielded).count 0) = some 2 := by decide
  obtain ⟨s,reached,twice⟩ := Option.map_eq_some_iff.mp followed
  exact ⟨_,s,Run.of_follow reached,twice⟩

end NodeAgent.ReportHandoff
