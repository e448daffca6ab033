import NodeAgent.AckStore
import NodeAgent.Transition

/-!
The workers of all panel sessions: `submit`, the two serial lanes of each worker and the
channel of acknowledgements, over one store. Every await is a step of its own, at which the
session may have been cancelled or the call dropped; whatever is done between two awaits on
shared state is one step.
-/
namespace NodeAgent.Control
open NodeAgent.Topology NodeAgent.FifoCache NodeAgent.KeyedGates NodeAgent.Transition

variable {sc : Sections}

/-! ### Acknowledgements on the wire -/

/-- `ControlAck`; the status stands for its number. -/
structure ControlAck where
  commandId : String
  operationId : String
  machineId : String
  nodeId : String
  revision : UInt64
  idempotencyKey : String
  status : AckStatus
  message : String
deriving DecidableEq

def protoAck (command : ControlCommand sc) (result : TerminalResult) : ControlAck :=
  ⟨command.commandId,command.operationId,command.machineId,command.nodeId,command.revision,command.idempotencyKey,
    result.status,result.message⟩

def ackCommandFromProto (command : ControlCommand sc) : Command :=
  ⟨command.commandId,command.operationId,command.machineId,command.nodeId,command.revision,command.idempotencyKey⟩

def maxQueuedControlAcks : Nat := 64

/-! ### Workers -/

inductive LaneKind
  | regular
  | refresh
deriving DecidableEq

/-- `uses_refresh_lane`. -/
def laneOf (command : ControlCommand sc) : LaneKind := if command.type = 10 then .refresh else .regular

structure LaneId where
  worker : Nat
  kind : LaneKind
deriving DecidableEq

/-- A command with the number of the `submit` call it came with. -/
structure Delivery (sc : Sections) where
  submission : Nat
  command : ControlCommand sc

def Delivery.key (delivery : Delivery sc) : String := delivery.command.idempotencyKey

/-- Where a call of `submit` stands. -/
inductive SubmitPhase
  /-- Waits for a place in the regular queue. -/
  | reserving
  /-- Waits to send `Accepted`, with a place in the regular queue. -/
  | accepting
  /-- Has sent `Accepted` and fills its place. -/
  | placing
  /-- Has sent `Accepted` and tries the refresh queue. -/
  | offering
  /-- Waits to send `Failed` for a command that found no place. -/
  | refusing (message : String)
  | returned (ok : Bool)
deriving DecidableEq

structure Submission (sc : Sections) where
  command : ControlCommand sc
  phase : SubmitPhase
  /-- The calls that had returned when this one began; the program does not keep them. -/
  before : List Nat

/-- What a lane does after it has dropped its execution permit. -/
inductive Next (sc : Sections)
  | reply (delivery : Delivery sc) (result : TerminalResult)
  | stop (delivery : Delivery sc)

/-- Where a lane stands. A gate is held from `waiting` on and locked from `ready` on; there is none for an empty key. -/
inductive LanePhase (sc : Sections)
  | idle
  | taken (delivery : Delivery sc)
  | waiting (delivery : Delivery sc) (gate : Nat)
  | ready (delivery : Delivery sc) (gate : Option Nat)
  | executing (delivery : Delivery sc) (gate : Option Nat)
  | completing (delivery : Delivery sc) (gate : Option Nat) (result : TerminalResult)
  /-- The permit is dropped: its lock first, its gate afterwards. -/
  | unlocking (gate : Nat) (next : Next sc)
  | releasing (gate : Nat) (next : Next sc)
  | replying (delivery : Delivery sc) (result : TerminalResult)
  /-- The loop was left, in the middle of a command or between two. -/
  | stopped (delivery : Option (Delivery sc))

def Next.phase : Next sc → LanePhase sc
  | .reply delivery result => .replying delivery result
  | .stop delivery => .stopped (some delivery)

/-- `drop(execution)`. -/
def dropExecution (gate : Option Nat) (next : Next sc) : LanePhase sc :=
  match gate with
  | none => next.phase
  | some gate => .unlocking gate next

def LanePhase.isStopped : LanePhase sc → Bool
  | .stopped _ => true
  | _ => false

structure Lane (sc : Sections) where
  phase : LanePhase sc
  queue : List (Delivery sc)
  /-- Places that are reserved and not filled yet. -/
  reserved : Nat
  capacity : Nat
  /-- The submissions whose commands have entered the queue, in this order; the program does not keep them. -/
  entered : List Nat

/-- An acknowledgement that was put on the output; `lane` is none when `submit` put it there. -/
structure Sent where
  submission : Nat
  lane : Option LaneKind
  ack : ControlAck
deriving DecidableEq

structure Worker (sc : Sections) where
  cancelled : Bool
  /-- All handles of the worker are gone. -/
  hungUp : Bool
  lanes : LaneKind → Lane sc
  submissions : List (Submission sc)
  /-- Everything that was put on the output so far. -/
  output : List Sent
  /-- How many of them wait in the channel. -/
  unread : Nat
  /-- The receiver of the output is gone. -/
  closed : Bool

/-- `spawn_configured`. -/
def Worker.spawn (capacities : LaneKind → Nat) : Worker sc :=
  ⟨false,false,fun kind => ⟨.idle,[],0,capacities kind,[]⟩,[],[],0,false⟩

def Worker.setLane (w : Worker sc) (kind : LaneKind) (lane : Lane sc) : Worker sc :=
  { w with lanes := Function.update w.lanes kind lane }

def Worker.setPhase (w : Worker sc) (kind : LaneKind) (phase : LanePhase sc) : Worker sc :=
  w.setLane kind { w.lanes kind with phase := phase }

def Worker.put (w : Worker sc) (sent : Sent) : Worker sc := { w with output := w.output ++ [sent], unread := w.unread + 1 }

/-- A send on the output: `none` while the channel is full, an error when the session is over. -/
def Worker.send (w : Worker sc) (submission : Nat) (lane : Option LaneKind) (ack : ControlAck) : Option (Except Unit (Worker sc)) :=
  if w.cancelled ∨ w.closed then some (.error ())
  else if w.unread < maxQueuedControlAcks then some (.ok (w.put ⟨submission,lane,ack⟩))
  else none

/-! ### Submissions -/

def Worker.moveSubmission (w : Worker sc) (i : Nat) (phase : SubmitPhase) : Worker sc :=
  { w with submissions := w.submissions.modify i (fun submission => { submission with phase := phase }) }

/-- Gives a place in the regular queue back. -/
def Worker.unreserve (w : Worker sc) (kind : LaneKind) : Worker sc :=
  match kind with
  | .refresh => w
  | .regular => w.setLane .regular { w.lanes .regular with reserved := (w.lanes .regular).reserved - 1 }

/-- Puts a command into its queue. -/
def Worker.enqueue (w : Worker sc) (kind : LaneKind) (delivery : Delivery sc) : Worker sc :=
  w.setLane kind { w.lanes kind with
    queue := (w.lanes kind).queue ++ [delivery], entered := (w.lanes kind).entered ++ [delivery.submission] }

/-- There is a place in the queue. -/
def Lane.hasRoom (lane : Lane sc) : Bool := lane.queue.length + lane.reserved < lane.capacity

def SubmitPhase.isReturned : SubmitPhase → Bool
  | .returned _ => true
  | _ => false

/-- The calls of `submit` that have returned. -/
def Worker.returnedCalls (w : Worker sc) : List Nat :=
  (List.range w.submissions.length).filter (fun i => w.submissions[i]?.any (fun submission => submission.phase.isReturned))

/-- A call of `submit` begins. -/
def Worker.beginSubmit (w : Worker sc) (command : ControlCommand sc) : Option (Worker sc) :=
  if w.hungUp then none
  else
    let phase : SubmitPhase :=
      if w.cancelled then .returned false
      else match laneOf command with
        | .refresh => .accepting
        | .regular => .reserving
    some { w with submissions := w.submissions ++ [⟨command,phase,w.returnedCalls⟩] }

/-- The next step of a call of `submit`. -/
def Worker.advanceSubmit (w : Worker sc) (i : Nat) : Option (Worker sc) :=
  match w.submissions[i]? with
  | none => none
  | some submission =>
    let command := submission.command
    let kind := laneOf command
    let lane := w.lanes kind
    match submission.phase with
    | .reserving =>
      if lane.phase.isStopped then some (w.moveSubmission i (.returned false))
      else if lane.hasRoom then
        some ((w.setLane kind { lane with reserved := lane.reserved + 1 }).moveSubmission i .accepting)
      else none
    | .accepting => match w.send i none (protoAck command ⟨.accepted,"accepted for execution"⟩) with
      | none => none
      | some (.error _) => some ((w.unreserve kind).moveSubmission i (.returned false))
      | some (.ok w) => match kind with
        | .regular => some (w.moveSubmission i .placing)
        | .refresh => some (w.moveSubmission i .offering)
    | .placing => some (((w.unreserve kind).enqueue kind ⟨i,command⟩).moveSubmission i (.returned true))
    | .offering =>
      if lane.phase.isStopped then some (w.moveSubmission i (.refusing "control command worker is closed"))
      else if lane.hasRoom then some ((w.enqueue kind ⟨i,command⟩).moveSubmission i (.returned true))
      else some (w.moveSubmission i (.refusing "user refresh queue is full"))
    | .refusing message => match w.send i none (protoAck command ⟨.failed,message⟩) with
      | none => none
      | some (.error _) => some (w.moveSubmission i (.returned false))
      | some (.ok w) => some (w.moveSubmission i (.returned true))
    | .returned _ => none

/-- The caller drops the future of a call of `submit` at one of its awaits. -/
def Worker.abandonSubmit (w : Worker sc) (i : Nat) : Option (Worker sc) :=
  match w.submissions[i]? with
  | none => none
  | some submission => match submission.phase with
    | .reserving => some (w.moveSubmission i (.returned false))
    | .accepting => some ((w.unreserve (laneOf submission.command)).moveSubmission i (.returned false))
    | .refusing _ => some (w.moveSubmission i (.returned false))
    | _ => none

/-! ### Lanes -/

/-- How the task of an execution ends. -/
inductive Joined
  | finished (result : TerminalResult)
  /-- With the text of the panic, if it has one. -/
  | panicked (payload : Option String)
  | failed (error : String)

def panicMessage (payload : Option String) : String := payload.getD "non-string panic payload"

def Joined.result : Joined → TerminalResult
  | .finished result =>
    if result.status = .accepted then ⟨.failed,"control command completed without a terminal result"⟩ else result
  | .panicked payload => ⟨.failed,"control command execution panicked: " ++ panicMessage payload⟩
  | .failed error => ⟨.failed,"control command execution task failed: " ++ error⟩

/-- What has happened to commands, in order; the program does not keep it. -/
inductive Entry (sc : Sections)
  | started (lane : LaneId) (delivery : Delivery sc)
  | replayed (lane : LaneId) (delivery : Delivery sc) (result : TerminalResult)
  | cached (key : String)
  | completed (lane : LaneId) (delivery : Delivery sc) (result : TerminalResult)
  | answered (lane : LaneId) (delivery : Delivery sc) (result : TerminalResult)

structure Workers (sc : Sections) where
  store : AckStore LaneId
  workers : Nat → Worker sc
  log : List (Entry sc)

def Workers.start (capacity : Nat) (capacities : Nat → LaneKind → Nat) : Workers sc :=
  ⟨AckStore.withCapacity capacity,fun i => Worker.spawn (capacities i),[]⟩

def Workers.lane (s : Workers sc) (l : LaneId) : Lane sc := (s.workers l.worker).lanes l.kind

def Workers.setWorker (s : Workers sc) (i : Nat) (w : Worker sc) : Workers sc := { s with workers := Function.update s.workers i w }

/-- The lane goes on to a phase. -/
def Workers.goTo (s : Workers sc) (l : LaneId) (phase : LanePhase sc) : Workers sc :=
  s.setWorker l.worker ((s.workers l.worker).setPhase l.kind phase)

def Workers.record (s : Workers sc) (entries : List (Entry sc)) : Workers sc := { s with log := s.log ++ entries }

/-- The acknowledgement and the store after an execution, with the entry of a key that is cached now. -/
def Workers.completeExecution (s : Workers sc) (delivery : Delivery sc) (result : TerminalResult) :
    TerminalResult × AckStore LaneId × List (Entry sc) :=
  if delivery.key = "" then (result,s.store,[])
  else match s.store.complete (ackCommandFromProto delivery.command) (Ack.ofResult result) with
    | (.ok ack,store) =>
      (ack.result,store,if result.status ≠ .failed ∧ result.status ≠ .rolledBack ∧ delivery.key ∉ s.store.cache.seen
        then [.cached delivery.key] else [])
    | (.error error,store) => (⟨.failed,error.message⟩,store,[])

/-- One step of a lane; `joined` is how an execution that ends now has ended. -/
def Workers.advanceLane (s : Workers sc) (l : LaneId) (joined : Joined) : Option (Workers sc) :=
  let w := s.workers l.worker
  let lane := s.lane l
  match lane.phase with
  | .idle =>
    if w.cancelled then some (s.goTo l (.stopped none))
    else match lane.queue with
      | delivery :: rest =>
        some (s.setWorker l.worker (w.setLane l.kind { lane with phase := .taken delivery, queue := rest }))
      | [] => if w.hungUp then some (s.goTo l (.stopped none)) else none
  | .taken delivery =>
    if w.cancelled then some (s.goTo l (.stopped (some delivery)))
    else if delivery.key = "" then some (s.goTo l (.ready delivery none))
    else
      let (gate,store) := s.store.executionGate delivery.key l
      some ({ s with store := store }.goTo l (.waiting delivery gate))
  | .waiting delivery gate =>
    if w.cancelled then some (s.goTo l (.releasing gate (.stop delivery)))
    else match s.store.gates.lock gate l with
      | none => none
      | some gates => some ({ s with store := { s.store with gates := gates } }.goTo l (.ready delivery (some gate)))
  | .ready delivery gate =>
    if w.cancelled then some (s.goTo l (dropExecution gate (.stop delivery)))
    else match s.store.replay (ackCommandFromProto delivery.command) with
      | .ok (some ack) =>
        some ((s.goTo l (dropExecution gate (.reply delivery ack.result))).record [.replayed l delivery ack.result])
      | _ => some ((s.goTo l (.executing delivery gate)).record [.started l delivery])
  | .executing delivery gate => some (s.goTo l (.completing delivery gate joined.result))
  | .completing delivery gate result =>
    let (terminal,store,cached) := s.completeExecution delivery result
    some (({ s with store := store }.goTo l (dropExecution gate (.reply delivery terminal))).record
      (cached ++ [Entry.completed l delivery terminal]))
  | .unlocking gate next =>
    some ({ s with store := { s.store with gates := s.store.gates.unlock gate } }.goTo l (.releasing gate next))
  | .releasing gate next =>
    some ({ s with store := { s.store with gates := s.store.gates.release gate l } }.goTo l next.phase)
  | .replying delivery result => match w.send delivery.submission (some l.kind) (protoAck delivery.command result) with
    | none => none
    | some (.error _) => some (s.goTo l (.stopped (some delivery)))
    | some (.ok w) => some ((s.setWorker l.worker (w.setPhase l.kind .idle)).record [.answered l delivery result])
  | .stopped _ => none

/-! ### Steps -/

inductive WorkerEvent (sc : Sections)
  | submit (worker : Nat) (command : ControlCommand sc)
  | advanceSubmit (worker submission : Nat)
  | abandonSubmit (worker submission : Nat)
  | advanceLane (lane : LaneId) (joined : Joined)
  /-- The destructor of an execution gate. -/
  | destroy (gate : Nat)
  | cancel (worker : Nat)
  /-- The transport takes an acknowledgement off the channel. -/
  | read (worker : Nat)
  | closeOutput (worker : Nat)
  /-- The last handle of the worker is dropped; no call of `submit` borrows one. -/
  | hangUp (worker : Nat)

def Workers.step (s : Workers sc) : WorkerEvent sc → Option (Workers sc)
  | .submit i command => ((s.workers i).beginSubmit command).map (s.setWorker i)
  | .advanceSubmit i submission => ((s.workers i).advanceSubmit submission).map (s.setWorker i)
  | .abandonSubmit i submission => ((s.workers i).abandonSubmit submission).map (s.setWorker i)
  | .advanceLane l joined => s.advanceLane l joined
  | .destroy gate => (s.store.gates.destroy gate).map (fun gates => { s with store := { s.store with gates := gates } })
  | .cancel i => some (s.setWorker i { s.workers i with cancelled := true })
  | .read i =>
    if (s.workers i).unread = 0 then none
    else some (s.setWorker i { s.workers i with unread := (s.workers i).unread - 1 })
  | .closeOutput i => some (s.setWorker i { s.workers i with closed := true })
  | .hangUp i =>
    if (s.workers i).submissions.all (fun submission => submission.phase.isReturned) then
      some (s.setWorker i { s.workers i with hungUp := true })
    else none

/-! ### What a lane can do -/

/-- The session is over for a lane that waits on its output. -/
def Worker.isOver (w : Worker sc) : Prop := w.cancelled = true ∨ w.closed = true

/-- Every step of a lane, with what was found before it. -/
inductive LaneMove (s : Workers sc) (l : LaneId) : Workers sc → Prop
  | halts : (s.lane l).phase = .idle → LaneMove s l (s.goTo l (.stopped none))
  | takes {delivery rest} : (s.lane l).phase = .idle → (s.lane l).queue = delivery :: rest →
      LaneMove s l (s.setWorker l.worker ((s.workers l.worker).setLane l.kind
        { s.lane l with phase := .taken delivery, queue := rest }))
  | quits {delivery} : (s.lane l).phase = .taken delivery → (s.workers l.worker).isOver → LaneMove s l (s.goTo l (.stopped (some delivery)))
  | passes {delivery} : (s.lane l).phase = .taken delivery → delivery.key = "" → LaneMove s l (s.goTo l (.ready delivery none))
  | enters {delivery} : (s.lane l).phase = .taken delivery → delivery.key ≠ "" →
      LaneMove s l ({ s with store := (s.store.executionGate delivery.key l).2 }.goTo l
        (.waiting delivery (s.store.executionGate delivery.key l).1))
  | leaves {delivery gate} : (s.lane l).phase = .waiting delivery gate → (s.workers l.worker).isOver →
      LaneMove s l (s.goTo l (.releasing gate (.stop delivery)))
  | locks {delivery gate gates} : (s.lane l).phase = .waiting delivery gate → s.store.gates.lock gate l = some gates →
      LaneMove s l ({ s with store := { s.store with gates := gates } }.goTo l (.ready delivery (some gate)))
  | drops {delivery gate} : (s.lane l).phase = .ready delivery gate → (s.workers l.worker).isOver →
      LaneMove s l (s.goTo l (dropExecution gate (.stop delivery)))
  | replays {delivery gate ack} : (s.lane l).phase = .ready delivery gate → delivery.key ≠ "" →
      s.store.cache.seen[delivery.key]? = some ack →
      LaneMove s l ((s.goTo l (dropExecution gate (.reply delivery ack.result))).record [.replayed l delivery ack.result])
  | starts {delivery gate} : (s.lane l).phase = .ready delivery gate →
      (delivery.key ≠ "" → s.store.cache.seen[delivery.key]? = none) →
      LaneMove s l ((s.goTo l (.executing delivery gate)).record [.started l delivery])
  | joins {delivery gate joined} : (s.lane l).phase = .executing delivery gate →
      LaneMove s l (s.goTo l (.completing delivery gate (Joined.result joined)))
  | completes {delivery gate result} : (s.lane l).phase = .completing delivery gate result →
      LaneMove s l (({ s with store := (s.completeExecution delivery result).2.1 }.goTo l
        (dropExecution gate (.reply delivery (s.completeExecution delivery result).1))).record
          ((s.completeExecution delivery result).2.2 ++ [Entry.completed l delivery (s.completeExecution delivery result).1]))
  | unlocks {gate next} : (s.lane l).phase = .unlocking gate next →
      LaneMove s l ({ s with store := { s.store with gates := s.store.gates.unlock gate } }.goTo l (.releasing gate next))
  | releases {gate next} : (s.lane l).phase = .releasing gate next →
      LaneMove s l ({ s with store := { s.store with gates := s.store.gates.release gate l } }.goTo l next.phase)
  | gives {delivery result} : (s.lane l).phase = .replying delivery result → (s.workers l.worker).isOver →
      LaneMove s l (s.goTo l (.stopped (some delivery)))
  | replies {delivery result} : (s.lane l).phase = .replying delivery result →
      LaneMove s l ((s.setWorker l.worker (((s.workers l.worker).put
        ⟨delivery.submission,some l.kind,protoAck delivery.command result⟩).setPhase l.kind .idle)).record
          [.answered l delivery result])

theorem send_ok {w w' : Worker sc} {i : Nat} {lane : Option LaneKind} {ack : ControlAck} (sent : w.send i lane ack = some (.ok w')) :
    w' = w.put ⟨i,lane,ack⟩ := by
  unfold Worker.send at sent
  split at sent
  · cases sent
  · split at sent
    · cases sent
      rfl
    · cases sent

theorem send_error {w : Worker sc} {i : Nat} {lane : Option LaneKind} {ack : ControlAck}
    (refused : w.send i lane ack = some (.error ())) : w.isOver := by
  unfold Worker.send at refused
  split at refused
  · next ended => exact ended
  · split at refused <;> cases refused

/-- The lookup of a replay. -/
theorem replay_cases {ι : Type} [DecidableEq ι] (store : AckStore ι) (delivery : Delivery sc) :
    (∃ ack, store.replay (ackCommandFromProto delivery.command) = .ok (some ack) ∧ delivery.key ≠ "" ∧
      ∃ held, store.cache.seen[delivery.key]? = some held ∧ held.result = ack.result) ∨
    ((∀ ack, store.replay (ackCommandFromProto delivery.command) ≠ .ok (some ack)) ∧
      (delivery.key ≠ "" → store.cache.seen[delivery.key]? = none)) := by
  have replay : store.replay (ackCommandFromProto delivery.command) = if delivery.key = "" then .error {}
    else .ok (store.cache.seen[delivery.key]?.map (fun ack =>
      { ack with commandId := delivery.command.commandId, operationId := delivery.command.operationId })) := rfl
  by_cases empty : delivery.key = ""
  · rw [if_pos empty] at replay
    rw [replay]
    exact Or.inr ⟨nofun,fun nonempty => absurd empty nonempty⟩
  · rw [if_neg empty] at replay
    rw [replay]
    cases store.cache.seen[delivery.key]? with
    | none => exact Or.inr ⟨nofun,fun _ => rfl⟩
    | some held => exact Or.inl ⟨_,rfl,empty,held,rfl,rfl⟩

/-- The acknowledgement that is cached for an execution. -/
def cachedAck (delivery : Delivery sc) (result : TerminalResult) : Ack :=
  (Ack.ofResult result).withEnvelope (ackCommandFromProto delivery.command)

/-- The result of an execution is acknowledged as it is; it is cached if it has a key and did not fail. -/
theorem completeExecution_cases (s : Workers sc) (delivery : Delivery sc) (result : TerminalResult) :
    (s.completeExecution delivery result).1 = result ∧
    (((delivery.key = "" ∨ result.status = .failed ∨ result.status = .rolledBack) ∧
        (s.completeExecution delivery result).2 = (s.store,[])) ∨
      (delivery.key ≠ "" ∧ result.status ≠ .failed ∧ result.status ≠ .rolledBack ∧
        (s.completeExecution delivery result).2 =
          ({ s.store with cache := s.store.cache.add s.store.capacity delivery.key (cachedAck delivery result) },
            if delivery.key ∈ s.store.cache.seen then [] else [.cached delivery.key]))) := by
  by_cases empty : delivery.key = ""
  · have skipped : s.completeExecution delivery result = (result,s.store,[]) := by
      unfold Workers.completeExecution
      rw [if_pos empty]
    rw [skipped]
    exact ⟨rfl,Or.inl ⟨Or.inl empty,rfl⟩⟩
  · by_cases failed : result.status = .failed ∨ result.status = .rolledBack
    · have completed : s.store.complete (ackCommandFromProto delivery.command) (Ack.ofResult result) =
          (.ok (cachedAck delivery result),s.store) := by
        unfold AckStore.complete
        rw [if_neg (show (ackCommandFromProto delivery.command).idempotencyKey ≠ "" from empty)]
        exact if_pos failed
      have uncached : ¬ (result.status ≠ .failed ∧ result.status ≠ .rolledBack ∧ delivery.key ∉ s.store.cache.seen) := by
        rintro ⟨first,second,-⟩
        exact failed.elim first second
      have ended : s.completeExecution delivery result = (result,s.store,[]) := by
        unfold Workers.completeExecution
        rw [if_neg empty,completed]
        simp only
        rw [if_neg uncached]
        rfl
      rw [ended]
      exact ⟨rfl,Or.inl ⟨Or.inr failed,rfl⟩⟩
    · obtain ⟨first,second⟩ := not_or.mp failed
      have completed : s.store.complete (ackCommandFromProto delivery.command) (Ack.ofResult result) =
          (.ok (cachedAck delivery result),
            { s.store with cache := s.store.cache.add s.store.capacity delivery.key (cachedAck delivery result) }) := by
        unfold AckStore.complete
        rw [if_neg (show (ackCommandFromProto delivery.command).idempotencyKey ≠ "" from empty)]
        exact if_neg failed
      have ended : s.completeExecution delivery result = (result,
          { s.store with cache := s.store.cache.add s.store.capacity delivery.key (cachedAck delivery result) },
          if delivery.key ∈ s.store.cache.seen then [] else [.cached delivery.key]) := by
        unfold Workers.completeExecution
        rw [if_neg empty,completed]
        simp only [ne_eq,first,second,not_false_eq_true,true_and,ite_not]
        rfl
      rw [ended]
      exact ⟨rfl,Or.inr ⟨empty,first,second,rfl⟩⟩

theorem advanceLane_moves {s s' : Workers sc} {l : LaneId} {joined : Joined} (stepped : s.advanceLane l joined = some s') :
    LaneMove s l s' := by
  unfold Workers.advanceLane at stepped
  simp only at stepped
  cases at_phase : (s.lane l).phase with
  | idle =>
    simp only [at_phase] at stepped
    split at stepped
    · cases stepped
      exact .halts at_phase
    · split at stepped
      · next queued =>
        cases stepped
        exact .takes at_phase queued
      · split at stepped
        · cases stepped
          exact .halts at_phase
        · cases stepped
  | taken delivery =>
    simp only [at_phase] at stepped
    split at stepped
    · next cancelled =>
      cases stepped
      exact .quits at_phase (Or.inl cancelled)
    · split at stepped
      · next empty =>
        cases stepped
        exact .passes at_phase empty
      · next nonempty =>
        cases stepped
        exact .enters at_phase nonempty
  | waiting delivery gate =>
    simp only [at_phase] at stepped
    split at stepped
    · next cancelled =>
      cases stepped
      exact .leaves at_phase (Or.inl cancelled)
    · split at stepped
      · cases stepped
      · next locked =>
        cases stepped
        exact .locks at_phase locked
  | ready delivery gate =>
    simp only [at_phase] at stepped
    split at stepped
    · next cancelled =>
      cases stepped
      exact .drops at_phase (Or.inl cancelled)
    · rcases replay_cases s.store delivery with ⟨ack,found,nonempty,held,cached,same⟩ | ⟨absent,unheld⟩
      · rw [found] at stepped
        cases stepped
        rw [← same]
        exact .replays at_phase nonempty cached
      · split at stepped
        · next ack found => exact absurd found (absent ack)
        · cases stepped
          exact .starts at_phase unheld
  | executing delivery gate =>
    simp only [at_phase] at stepped
    cases stepped
    exact .joins at_phase
  | completing delivery gate result =>
    simp only [at_phase] at stepped
    cases stepped
    exact .completes at_phase
  | unlocking gate next =>
    simp only [at_phase] at stepped
    cases stepped
    exact .unlocks at_phase
  | releasing gate next =>
    simp only [at_phase] at stepped
    cases stepped
    exact .releases at_phase
  | replying delivery result =>
    simp only [at_phase] at stepped
    split at stepped
    · cases stepped
    · next refused =>
      cases stepped
      exact .gives at_phase (send_error refused)
    · next sent =>
      cases stepped
      rw [send_ok sent]
      exact .replies at_phase
  | stopped delivery =>
    simp only [at_phase] at stepped
    cases stepped

end NodeAgent.Control
