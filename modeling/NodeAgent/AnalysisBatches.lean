import NodeAgent.AnalysisRows
import NodeAgent.Transition
import Mathlib.Data.List.Perm.Basic

/-!
What becomes of an analysis batch. A batch that is accepted waits in the queue until it is
handed to a sender, expires or is discarded with its session; whoever settles it first
counts it as sent or as dropped, and everybody else finds it completed. Counting takes
several atomic additions, between which the other tasks run. When the last handle is gone,
the destructor settles what nobody has settled.
-/
namespace NodeAgent.AnalysisBatches
open NodeAgent.AnalysisRows NodeAgent.Transition

/-! ### Counters -/

/-- One atomic addition to the counters. -/
inductive Count
  | sent
  | droppedBatches
  | droppedEntries (rows : Nat)
  | reason (r : Reason)
  | sendFailures
deriving DecidableEq

structure Counters where
  sent : Nat
  droppedBatches : Nat
  droppedEntries : Nat
  drops : Reason → Nat
  sendFailures : Nat

def Counters.zero : Counters := ⟨0,0,0,fun _ => 0,0⟩

def Counters.add (c : Counters) : Count → Counters
  | .sent => { c with sent := c.sent + 1 }
  | .droppedBatches => { c with droppedBatches := c.droppedBatches + 1 }
  | .droppedEntries rows => { c with droppedEntries := c.droppedEntries + rows }
  | .reason r => { c with drops := Function.update c.drops r (c.drops r + 1) }
  | .sendFailures => { c with sendFailures := c.sendFailures + 1 }

/-- How a batch ends. -/
inductive Outcome
  | sent
  | dropped (reason : Reason)
deriving DecidableEq

/-- The additions of `complete` and of `drop_batch` after their swap, in order. -/
def counts (rows : Nat) : Outcome → List Count
  | .sent => [.sent]
  | .dropped reason => [.droppedBatches,.droppedEntries rows,.reason reason] ++ (if reason = .sendFailed then [.sendFailures] else [])

/-! ### Batches and their handles -/

/-- What a task is about to do with a batch. -/
inductive Task
  /-- `completed.swap(true)`, on the way to an outcome. -/
  | settle (outcome : Outcome)
  /-- The additions that are still to come. -/
  | counting (rest : List Count)

/-- Where a sender is. -/
inductive Phase
  | acquiring
  | sending
  /-- The guard is finished, or is being dropped. -/
  | finishing
deriving DecidableEq

inductive Role
  /-- Popped after its time or by `discard_buffered`, and about to be dropped. -/
  | dismissed
  /-- The guard of `run_analysis_stream`. -/
  | sender (phase : Phase)
  /-- Another handle, which may settle the batch as well. -/
  | clone

/-- A handle outside the queue, with what its task is doing. -/
structure Holder where
  role : Role
  task : Task

structure Batch where
  message : TrafficAnalysisBatch
  cost : Nat
  completed : Bool
  /-- The queue has a handle. -/
  queued : Bool
  holders : List Holder
  /-- `Drop for QueuedBatch`, while it runs. -/
  destructor : Option Task
  /-- The additions of an `enqueue` that refused the batch, as far as they are still to come. -/
  refusing : List Count
  /-- Every addition made for this batch. -/
  ledger : List Count
  /-- How often `next` has returned the batch. -/
  handed : Nat
  /-- The batch was refused and never existed in the queue. -/
  refused : Bool

/-- The last handle is gone, and so is the destructor. -/
def Batch.gone (b : Batch) : Prop := b.queued = false ∧ b.holders = [] ∧ b.destructor = none ∧ b.refusing = []

instance (b : Batch) : Decidable b.gone :=
  decidable_of_iff (b.queued = false ∧ b.holders.isEmpty ∧ b.destructor.isNone ∧ b.refusing = []) (by simp [Batch.gone])

/-- A task takes its next atomic action: the batch after it, what is left of the task and
    the addition it made. -/
def perform (b : Batch) : Task → Batch × Task × Option Count
  | .settle outcome =>
    if b.completed then (b,.counting [],none)
    else ({ b with completed := true },.counting (counts (entries b.message) outcome),none)
  | .counting [] => (b,.counting [],none)
  | .counting (c :: rest) => ({ b with ledger := b.ledger ++ [c] },.counting rest,some c)

/-- What the world does to a sender. -/
inductive SenderEvent
  /-- The session is cancelled or the future is dropped: the guard drops the batch. -/
  | cancelled
  /-- The response of the stream arrives first. -/
  | response
  /-- The limiter lets the batch through, or its time is over. -/
  | acquired (success : Bool)
  /-- The send ends. -/
  | done (success : Bool)

/-- The sender after an event, with what it starts to do. -/
def sender : Phase → SenderEvent → Option (Phase × Task)
  | .acquiring, .cancelled => some (.finishing,.settle (.dropped .sessionReset))
  | .acquiring, .response => some (.finishing,.settle (.dropped .sendFailed))
  | .acquiring, .acquired true => some (.sending,.counting [])
  | .acquiring, .acquired false => some (.finishing,.settle (.dropped .expired))
  | .sending, .cancelled => some (.finishing,.settle (.dropped .sessionReset))
  | .sending, .response => some (.finishing,.settle (.dropped .sendFailed))
  | .sending, .done true => some (.finishing,.settle .sent)
  | .sending, .done false => some (.finishing,.settle (.dropped .sendFailed))
  | _, _ => none

/-- What the tasks with handles of one batch do. -/
inductive HandleEvent
  /-- The holder takes its next atomic action. -/
  | act (holder : Nat)
  | sender (holder : Nat) (event : SenderEvent)
  | clone (holder : Nat)
  /-- A clone calls `complete` or `drop_batch`. -/
  | settle (holder : Nat) (outcome : Outcome)
  /-- The holder's handle goes out of scope. -/
  | release (holder : Nat)
  /-- The destructor takes its next atomic action, or ends. -/
  | destroy
  /-- The refusing `enqueue` makes its next addition. -/
  | refuse

/-- Whether the holder has nothing to do but to let its handle go. -/
def Role.leaving : Role → Bool
  | .dismissed => true
  | .sender phase => phase = .finishing
  | .clone => true

/-- The strong references outside the given one. -/
def Batch.others (b : Batch) (holder : Nat) : Nat := (b.holders.eraseIdx holder).length + (if b.queued then 1 else 0)

def handle (b : Batch) : HandleEvent → Option (Batch × Option Count)
  | .act k =>
    match b.holders[k]? with
    | none => none
    | some holder =>
      let (b,task,count) := perform b holder.task
      some ({ b with holders := b.holders.set k { holder with task := task } },count)
  | .sender k event =>
    match b.holders[k]? with
    | some ⟨.sender phase,.counting []⟩ =>
      (sender phase event).map (fun (phase,task) => ({ b with holders := b.holders.set k ⟨.sender phase,task⟩ },none))
    | _ => none
  | .clone k =>
    match b.holders[k]? with
    | some _ => some ({ b with holders := b.holders ++ [⟨.clone,.counting []⟩] },none)
    | none => none
  | .settle k outcome =>
    match b.holders[k]? with
    | some ⟨.clone,.counting []⟩ => some ({ b with holders := b.holders.set k ⟨.clone,.settle outcome⟩ },none)
    | _ => none
  | .release k =>
    match b.holders[k]? with
    | some ⟨role,.counting []⟩ =>
      if role.leaving then
        some ({ b with
          holders := b.holders.eraseIdx k
          destructor := if b.others k = 0 then some (.settle (.dropped .sessionReset)) else b.destructor },none)
      else none
    | _ => none
  | .destroy =>
    match b.destructor with
    | none => none
    | some (.counting []) => some ({ b with destructor := none },none)
    | some task =>
      let (b,task,count) := perform b task
      some ({ b with destructor := some task },count)
  | .refuse =>
    match b.refusing with
    | [] => none
    | c :: rest => some ({ b with refusing := rest, ledger := b.ledger ++ [c] },some c)

/-! ### The queue -/

structure State where
  /-- The batches in the queue, the oldest first. -/
  queue : List Nat
  queueBytes : Nat
  /-- Every batch that `enqueue` was ever called with. -/
  batches : List Batch
  counters : Counters

def initial : State := ⟨[],0,[],Counters.zero⟩

/-- Why `enqueue` refuses a batch of this encoded length; `reserved` is the answer of the
    memory budget. -/
def refusal (config : TrafficAnalysisConfig) (queueBytes bytes cost : Nat) (reserved : Bool) : Option Reason :=
  if bytes > config.batchMaxBytes then some .budget
  else if queueBytes + cost > config.queueMaxBytes then some .queueFull
  else if !reserved then some .budget
  else none

def batchCost (message : TrafficAnalysisBatch) (bytes : Nat) : Nat := bytes * 2 + entries message * 512 + 256

def accepted (message : TrafficAnalysisBatch) (cost : Nat) : Batch := ⟨message,cost,false,true,[],none,[],[],0,false⟩

def refusedBatch (message : TrafficAnalysisBatch) (cost : Nat) (reason : Reason) : Batch :=
  ⟨message,cost,true,false,[],none,counts (entries message) (.dropped reason),[],0,true⟩

inductive Event
  | enqueue (message : TrafficAnalysisBatch) (config : TrafficAnalysisConfig) (bytes : Nat) (reserved : Bool)
  /-- `next` returns the batch in front. -/
  | next
  /-- `next` drops the batch in front, whose time is over. -/
  | expire
  /-- `begin_session` or `pause`. -/
  | discardBuffered
  | handle (batch : Nat) (event : HandleEvent)

/-- The batch in front leaves the queue for a task. -/
def pop (s : State) (take : Batch → Batch) : Option State :=
  match s.queue with
  | [] => none
  | i :: rest => some { s with
      queue := rest
      queueBytes := s.queueBytes - ((s.batches[i]?).map Batch.cost).getD 0
      batches := s.batches.modify i take }

def hand (b : Batch) : Batch :=
  { b with queued := false, handed := b.handed + 1, holders := b.holders ++ [⟨.sender .acquiring,.counting []⟩] }

/-- The batch is about to be dropped by the task that took it out of the queue. -/
def dismiss (reason : Reason) (b : Batch) : Batch :=
  { b with queued := false, holders := b.holders ++ [⟨.dismissed,.settle (.dropped reason)⟩] }

def step (s : State) : Event → Option State
  | .enqueue message config bytes reserved =>
    if entries message = 0 then some s
    else
      let cost := batchCost message bytes
      match refusal config s.queueBytes bytes cost reserved with
      | some reason => some { s with batches := s.batches ++ [refusedBatch message cost reason] }
      | none => some { s with
          queue := s.queue ++ [s.batches.length]
          queueBytes := s.queueBytes + cost
          batches := s.batches ++ [accepted message cost] }
  | .next => pop s hand
  | .expire => pop s (dismiss .expired)
  | .discardBuffered => some { s with
      queue := []
      queueBytes := 0
      batches := s.queue.foldl (fun batches i => batches.modify i (dismiss .sessionReset)) s.batches }
  | .handle i event =>
    match s.batches[i]? with
    | none => none
    | some b => (handle b event).map (fun (b,count) => { s with
        batches := s.batches.set i b
        counters := (count.map s.counters.add).getD s.counters })

/-! ### One batch -/

/-- The additions that a task is still going to make. -/
def Task.pending : Task → List Count
  | .settle _ => []
  | .counting rest => rest

/-- The additions that are still to come for the batch. -/
def Batch.pending (b : Batch) : List Count :=
  b.holders.flatMap (fun holder => holder.task.pending) ++ ((b.destructor.map Task.pending).getD [] ++ b.refusing)

/-- Somebody is going to settle the batch, or can. -/
def Batch.alive (b : Batch) : Prop := b.queued = true ∨ b.holders ≠ [] ∨ ∃ outcome, b.destructor = some (.settle outcome)

/-- A batch is settled at most once, and everything that its outcome adds is added or is
    about to be added by somebody. -/
structure Accounted (b : Batch) : Prop where
  unsettled : b.completed = false → b.ledger = [] ∧ b.pending = [] ∧ b.alive
  settled : b.completed = true → ∃ outcome, (b.ledger ++ b.pending).Perm (counts (entries b.message) outcome) ∧
    (b.refused = true → ∃ reason, outcome = .dropped reason)
  alone : b.destructor.isSome → b.holders = [] ∧ b.queued = false
  once : b.handed + (if b.queued then 1 else 0) ≤ 1
  never : b.refused = true → b.queued = false ∧ b.handed = 0 ∧ b.holders = [] ∧ b.destructor = none ∧ b.completed = true

section
variable {α β : Type} {l : List α} {k : Nat} {a : α} {f : α → List β}

/-- An item in the place of another one brings its own parts and takes those of the other away. -/
theorem flatMap_set (at_k : l[k]? = some a) (a' : α) : ((l.set k a').flatMap f ++ f a).Perm (l.flatMap f ++ f a') := by
  obtain ⟨inside,rfl⟩ := List.getElem?_eq_some_iff.mp at_k
  have after := (List.set_perm_cons_eraseIdx inside a').flatMap_right f
  have before := (List.getElem_cons_eraseIdx_perm inside).flatMap_right f
  rw [List.flatMap_cons] at after before
  calc ((l.set k a').flatMap f ++ f l[k]).Perm ((f a' ++ (l.eraseIdx k).flatMap f) ++ f l[k]) := after.append_right _
    _ = f a' ++ ((l.eraseIdx k).flatMap f ++ f l[k]) := List.append_assoc _ _ _
    List.Perm _ (((l.eraseIdx k).flatMap f ++ f l[k]) ++ f a') := List.perm_append_comm
    List.Perm _ ((f l[k] ++ (l.eraseIdx k).flatMap f) ++ f a') := List.perm_append_comm.append_right _
    List.Perm _ (l.flatMap f ++ f a') := before.append_right _

theorem flatMap_eraseIdx (at_k : l[k]? = some a) (nothing : f a = []) : ((l.eraseIdx k).flatMap f).Perm (l.flatMap f) := by
  obtain ⟨inside,rfl⟩ := List.getElem?_eq_some_iff.mp at_k
  have before := (List.getElem_cons_eraseIdx_perm inside).flatMap_right f
  rwa [List.flatMap_cons,nothing,List.nil_append] at before

end

/-- The additions that the holders are still going to make. -/
def owed (holders : List Holder) : List Count := holders.flatMap (fun holder => holder.task.pending)

variable {b b' : Batch} {k : Nat} {holder : Holder} {count : Option Count}

/-- A batch with a handle outside the queue was accepted, and nobody destroys it. -/
theorem Accounted.busy (accounted : Accounted b) (at_k : b.holders[k]? = some holder) : b.destructor = none ∧ b.refused = false := by
  have some_holder : b.holders ≠ [] := by
    intro empty
    rw [empty] at at_k
    cases at_k
  constructor
  · cases destroying : b.destructor with
    | none => rfl
    | some task => exact absurd (accounted.alone (by rw [destroying]; rfl)).1 some_holder
  · cases refused : b.refused with
    | false => rfl
    | true => exact absurd (accounted.never refused).2.2.1 some_holder

/-- The handles change, but not what is owed. -/
theorem Accounted.holders (accounted : Accounted b) {holders : List Holder} (some_holder : holders ≠ []) (undisturbed : b.destructor = none)
    (accepted : b.refused = false) (same : (owed holders).Perm (owed b.holders)) : Accounted { b with holders := holders } where
  unsettled open_ := by
    obtain ⟨fresh,nothing,-⟩ := accounted.unsettled open_
    refine ⟨fresh,?_,.inr (.inl some_holder)⟩
    simp only [Batch.pending,undisturbed,List.append_eq_nil_iff] at nothing ⊢
    refine ⟨?_,nothing.2⟩
    have none_owed : owed b.holders = [] := nothing.1
    rw [none_owed] at same
    exact same.eq_nil
  settled done := by
    obtain ⟨outcome,all,-⟩ := accounted.settled done
    refine ⟨outcome,?_,fun refused => by rw [accepted] at refused; cases refused⟩
    exact ((same.append_right _).append_left _).trans all
  alone destroying := by rw [undisturbed] at destroying; cases destroying
  once := accounted.once
  never refused := by rw [accepted] at refused; cases refused

/-- A holder with nothing to add turns to something else that adds nothing yet. -/
theorem Accounted.set (accounted : Accounted b) (at_k : b.holders[k]? = some holder) {holder' : Holder}
    (before : holder.task.pending = []) (after : holder'.task.pending = []) : Accounted { b with holders := b.holders.set k holder' } := by
  obtain ⟨undisturbed,accepted⟩ := accounted.busy at_k
  refine accounted.holders ?_ undisturbed accepted ?_
  · intro empty
    rw [List.set_eq_nil_iff] at empty
    rw [empty] at at_k
    cases at_k
  · have both := flatMap_set (f := fun holder : Holder => holder.task.pending) at_k holder'
    rwa [before,after,List.append_nil,List.append_nil] at both

theorem perform_settle_open {outcome : Outcome} (open_ : b.completed = false) : perform b (.settle outcome) =
    ({ b with completed := true },.counting (counts (entries b.message) outcome),none) := by
  simp [perform,open_]

theorem perform_settle_done {outcome : Outcome} (done : b.completed = true) : perform b (.settle outcome) = (b,.counting [],none) := by
  simp [perform,done]

/-- A holder takes an atomic action. -/
theorem Accounted.act (accounted : Accounted b) (at_k : b.holders[k]? = some holder) :
    Accounted { (perform b holder.task).1 with
      holders := (perform b holder.task).1.holders.set k { holder with task := (perform b holder.task).2.1 } } := by
  obtain ⟨undisturbed,accepted⟩ := accounted.busy at_k
  have moved (task : Task) := flatMap_set (f := fun holder : Holder => holder.task.pending) at_k { holder with task := task }
  have some_holder (task : Task) : b.holders.set k { holder with task := task } ≠ [] := by
    intro empty
    rw [List.set_eq_nil_iff] at empty
    rw [empty] at at_k
    cases at_k
  cases doing : holder.task with
  | settle outcome =>
    cases done : b.completed with
    | true =>
      rw [perform_settle_done done]
      exact accounted.set at_k (by rw [doing]; rfl) rfl
    | false =>
      -- The swap is won: nothing was added before, and all that this outcome adds is now owed.
      rw [perform_settle_open done]
      obtain ⟨fresh,nothing,-⟩ := accounted.unsettled done
      simp only [Batch.pending,List.append_eq_nil_iff] at nothing
      have all := moved (.counting (counts (entries b.message) outcome))
      rw [doing,nothing.1] at all
      refine ⟨fun no => ?_,fun _ => ⟨outcome,?_,fun refused => ?_⟩,fun destroying => ?_,accounted.once,fun refused => ?_⟩
      · cases no
      · simp only [Batch.pending,fresh,nothing.2.1,nothing.2.2,List.nil_append,List.append_nil]
        simpa [Task.pending] using all
      · rw [accepted] at refused; cases refused
      · rw [undisturbed] at destroying; cases destroying
      · rw [accepted] at refused; cases refused
  | counting rest =>
    cases rest with
    | nil =>
      exact accounted.set at_k (by rw [doing]; rfl) rfl
    | cons c rest =>
      have all := moved (.counting rest)
      rw [doing] at all
      change ((b.holders.set k { holder with task := .counting rest }).flatMap (fun holder => holder.task.pending) ++ (c :: rest)).Perm
        (owed b.holders ++ rest) at all
      have one : (c :: (b.holders.set k { holder with task := .counting rest }).flatMap (fun holder => holder.task.pending)).Perm
          (owed b.holders) := by
        refine (List.perm_append_right_iff rest).mp (List.Perm.trans ?_ all)
        exact (List.perm_middle (a := c)).symm
      have completed : b.completed = true := by
        cases done : b.completed with
        | true => rfl
        | false =>
          obtain ⟨-,nothing,-⟩ := accounted.unsettled done
          simp only [Batch.pending,List.append_eq_nil_iff] at nothing
          have none_owed : owed b.holders = [] := nothing.1
          rw [none_owed] at one
          cases one.eq_nil
      obtain ⟨outcome,whole,-⟩ := accounted.settled completed
      refine ⟨fun no => ?_,fun _ => ⟨outcome,List.Perm.trans ?_ whole,fun refused => ?_⟩,fun destroying => ?_,accounted.once,fun refused => ?_⟩
      · change b.completed = false at no
        rw [completed] at no; cases no
      · show (b.ledger ++ [c] ++ ((b.holders.set k { holder with task := .counting rest }).flatMap (fun holder => holder.task.pending) ++
          ((b.destructor.map Task.pending).getD [] ++ b.refusing))).Perm (b.ledger ++ b.pending)
        rw [List.append_assoc]
        refine List.Perm.append_left _ ?_
        exact one.append_right _
      · change b.refused = true at refused
        rw [accepted] at refused; cases refused
      · change b.destructor.isSome = true at destroying
        rw [undisturbed] at destroying; cases destroying
      · change b.refused = true at refused
        rw [accepted] at refused; cases refused

/-- A handle goes; behind the last one the destructor starts. -/
theorem Accounted.release (accounted : Accounted b) (at_k : b.holders[k]? = some holder) (idle : holder.task.pending = []) :
    Accounted { b with
      holders := b.holders.eraseIdx k
      destructor := if b.others k = 0 then some (.settle (.dropped .sessionReset)) else b.destructor } := by
  obtain ⟨undisturbed,accepted⟩ := accounted.busy at_k
  have same := flatMap_eraseIdx (f := fun holder : Holder => holder.task.pending) at_k idle
  by_cases last : b.others k = 0
  · rw [if_pos last]
    have alone : b.holders.eraseIdx k = [] ∧ b.queued = false := by
      unfold Batch.others at last
      have none_left : (b.holders.eraseIdx k).length = 0 := by omega
      refine ⟨List.length_eq_zero_iff.mp none_left,?_⟩
      cases queued : b.queued with
      | false => rfl
      | true => simp [queued] at last
    rw [alone.1] at same
    have none_owed : b.holders.flatMap (fun holder => holder.task.pending) = [] := same.symm.eq_nil
    refine ⟨fun open_ => ?_,fun done => ?_,fun _ => alone,accounted.once,fun refused => ?_⟩
    · obtain ⟨fresh,nothing,-⟩ := accounted.unsettled open_
      simp only [Batch.pending,List.append_eq_nil_iff] at nothing
      refine ⟨fresh,?_,.inr (.inr ⟨_,rfl⟩)⟩
      simp [Batch.pending,alone.1,Task.pending,nothing.2.2]
    · obtain ⟨outcome,all,-⟩ := accounted.settled done
      refine ⟨outcome,?_,fun refused => by rw [accepted] at refused; cases refused⟩
      rw [Batch.pending,none_owed,undisturbed] at all
      simpa [Batch.pending,alone.1,Task.pending] using all
    · rw [accepted] at refused; cases refused
  · rw [if_neg last,undisturbed]
    refine ⟨fun open_ => ?_,fun done => ?_,fun no => (by cases no),accounted.once,fun refused => ?_⟩
    · obtain ⟨fresh,nothing,-⟩ := accounted.unsettled open_
      simp only [Batch.pending,List.append_eq_nil_iff] at nothing
      rw [nothing.1] at same
      refine ⟨fresh,?_,?_⟩
      · simp [Batch.pending,same.eq_nil,nothing.2.2]
      · unfold Batch.others at last
        by_cases queued : b.queued = true
        · exact .inl queued
        · refine .inr (.inl (fun empty => last ?_))
          change b.holders.eraseIdx k = [] at empty
          rw [empty,if_neg queued]
          rfl
    · obtain ⟨outcome,all,-⟩ := accounted.settled done
      refine ⟨outcome,?_,fun refused => by rw [accepted] at refused; cases refused⟩
      refine List.Perm.trans (List.Perm.append_left _ ?_) all
      show (_ ++ ([] ++ b.refusing)).Perm (_ ++ ((b.destructor.map Task.pending).getD [] ++ b.refusing))
      rw [undisturbed]
      exact same.append_right _
    · rw [accepted] at refused; cases refused

/-- The destructor takes an atomic action. -/
theorem Accounted.destroy {task : Task} (accounted : Accounted b) (destroying : b.destructor = some task) :
    Accounted { (perform b task).1 with destructor := some (perform b task).2.1 } := by
  obtain ⟨no_holder,unqueued⟩ := accounted.alone (by rw [destroying]; rfl)
  have accepted : b.refused = false := by
    cases refused : b.refused with
    | false => rfl
    | true => rw [(accounted.never refused).2.2.2.1] at destroying; cases destroying
  have refuses (refused : b.refused = true) {P : Prop} : P := by rw [accepted] at refused; cases refused
  cases task with
  | settle outcome =>
    cases done : b.completed with
    | true =>
      rw [perform_settle_done done]
      refine ⟨fun open_ => ?_,fun _ => ?_,fun _ => ⟨no_holder,unqueued⟩,accounted.once,fun refused => refuses refused⟩
      · change b.completed = false at open_
        rw [done] at open_; cases open_
      · obtain ⟨outcome,all,-⟩ := accounted.settled done
        refine ⟨outcome,?_,fun refused => refuses refused⟩
        simpa [Batch.pending,destroying,Task.pending] using all
    | false =>
      rw [perform_settle_open done]
      obtain ⟨fresh,nothing,-⟩ := accounted.unsettled done
      simp only [Batch.pending,List.append_eq_nil_iff] at nothing
      refine ⟨fun no => ?_,fun _ => ⟨outcome,?_,fun refused => refuses refused⟩,fun _ => ⟨no_holder,unqueued⟩,accounted.once,
        fun refused => refuses refused⟩
      · cases no
      · simp [Batch.pending,fresh,no_holder,nothing.2.2,Task.pending]
  | counting rest =>
    have completed : b.completed = true := by
      cases done : b.completed with
      | true => rfl
      | false =>
        obtain ⟨-,-,queued | some_holder | ⟨outcome,settling⟩⟩ := accounted.unsettled done
        · rw [unqueued] at queued; cases queued
        · exact absurd no_holder some_holder
        · rw [destroying] at settling; cases settling
    obtain ⟨outcome,all,-⟩ := accounted.settled completed
    have opened (no : b.completed = false) {P : Prop} : P := by rw [completed] at no; cases no
    cases rest with
    | nil =>
      refine ⟨fun no => opened no,fun _ => ⟨outcome,?_,fun refused => refuses refused⟩,fun _ => ⟨no_holder,unqueued⟩,accounted.once,
        fun refused => refuses refused⟩
      simpa [perform,Batch.pending,destroying,Task.pending] using all
    | cons c rest =>
      refine ⟨fun no => opened no,fun _ => ⟨outcome,?_,fun refused => refuses refused⟩,fun _ => ⟨no_holder,unqueued⟩,accounted.once,
        fun refused => refuses refused⟩
      simpa [perform,Batch.pending,destroying,no_holder,Task.pending] using all

/-- The destructor has nothing left to do. -/
theorem Accounted.destroyed (accounted : Accounted b) (destroying : b.destructor = some (.counting [])) :
    Accounted { b with destructor := none } := by
  obtain ⟨no_holder,unqueued⟩ := accounted.alone (by rw [destroying]; rfl)
  refine ⟨fun open_ => ?_,fun done => ?_,fun no => (by cases no),accounted.once,fun refused => ?_⟩
  · obtain ⟨-,-,queued | some_holder | ⟨outcome,settling⟩⟩ := accounted.unsettled open_
    · rw [unqueued] at queued; cases queued
    · exact absurd no_holder some_holder
    · rw [destroying] at settling; cases settling
  · obtain ⟨outcome,all,refusal⟩ := accounted.settled done
    refine ⟨outcome,?_,refusal⟩
    simpa [Batch.pending,destroying,Task.pending] using all
  · rw [(accounted.never refused).2.2.2.1] at destroying; cases destroying

/-- A refusing `enqueue` makes an addition. -/
theorem Accounted.refuse {c : Count} {rest : List Count} (accounted : Accounted b) (refusing : b.refusing = c :: rest) :
    Accounted { b with refusing := rest, ledger := b.ledger ++ [c] } := by
  have completed : b.completed = true := by
    cases done : b.completed with
    | true => rfl
    | false =>
      obtain ⟨-,nothing,-⟩ := accounted.unsettled done
      simp [Batch.pending,refusing] at nothing
  refine ⟨fun no => ?_,fun _ => ?_,accounted.alone,accounted.once,accounted.never⟩
  · change b.completed = false at no
    rw [completed] at no; cases no
  · obtain ⟨outcome,all,refusal⟩ := accounted.settled completed
    refine ⟨outcome,List.Perm.trans ?_ all,refusal⟩
    show (b.ledger ++ [c] ++ (_ ++ (_ ++ rest))).Perm (b.ledger ++ (_ ++ (_ ++ b.refusing)))
    rw [refusing,List.append_assoc]
    refine List.Perm.append_left _ ?_
    have moved : (c :: (owed b.holders ++ (b.destructor.map Task.pending).getD [] ++ rest)).Perm
        (owed b.holders ++ (b.destructor.map Task.pending).getD [] ++ c :: rest) := List.perm_middle.symm
    rw [List.append_assoc,List.append_assoc] at moved
    exact moved

/-- What can happen to the handles of a batch. -/
inductive Handled (b : Batch) : Batch → Option Count → Prop
  | act {k : Nat} {holder : Holder} (at_k : b.holders[k]? = some holder) : Handled b
      { (perform b holder.task).1 with
        holders := (perform b holder.task).1.holders.set k { holder with task := (perform b holder.task).2.1 } }
      (perform b holder.task).2.2
  | turn {k : Nat} {holder holder' : Holder} (at_k : b.holders[k]? = some holder) (before : holder.task.pending = [])
      (after : holder'.task.pending = []) : Handled b { b with holders := b.holders.set k holder' } none
  | clone {k : Nat} {holder : Holder} (at_k : b.holders[k]? = some holder) :
      Handled b { b with holders := b.holders ++ [⟨.clone,.counting []⟩] } none
  | release {k : Nat} {holder : Holder} (at_k : b.holders[k]? = some holder) (idle : holder.task.pending = []) : Handled b
      { b with
        holders := b.holders.eraseIdx k
        destructor := if b.others k = 0 then some (.settle (.dropped .sessionReset)) else b.destructor } none
  | destroy {task : Task} (destroying : b.destructor = some task) :
      Handled b { (perform b task).1 with destructor := some (perform b task).2.1 } (perform b task).2.2
  | destroyed (destroying : b.destructor = some (.counting [])) : Handled b { b with destructor := none } none
  | refuse {c : Count} {rest : List Count} (refusing : b.refusing = c :: rest) :
      Handled b { b with refusing := rest, ledger := b.ledger ++ [c] } (some c)

theorem handle_cases {event : HandleEvent} (handled : handle b event = some (b',count)) : Handled b b' count := by
  cases event with
  | act k =>
    cases at_k : b.holders[k]? with
    | none =>
      simp only [handle,at_k] at handled
      cases handled
    | some holder =>
      simp only [handle,at_k,Option.some.injEq,Prod.mk.injEq] at handled
      rw [← handled.1,← handled.2]
      exact .act at_k
  | sender k event =>
    simp only [handle] at handled
    split at handled
    · next phase at_k =>
      obtain ⟨⟨phase',task⟩,moved,same⟩ := Option.map_eq_some_iff.mp handled
      cases same
      refine .turn at_k rfl ?_
      unfold AnalysisBatches.sender at moved
      split at moved <;> cases moved <;> rfl
    · cases handled
  | clone k =>
    simp only [handle] at handled
    split at handled
    · next holder at_k =>
      cases handled
      exact .clone at_k
    · cases handled
  | settle k outcome =>
    simp only [handle] at handled
    split at handled
    · next at_k =>
      cases handled
      exact .turn at_k rfl rfl
    · cases handled
  | release k =>
    simp only [handle] at handled
    split at handled
    · next role at_k =>
      split at handled
      · cases handled
        exact .release at_k rfl
      · cases handled
    · cases handled
  | destroy =>
    simp only [handle] at handled
    split at handled
    · cases handled
    · next destroying =>
      cases handled
      exact .destroyed destroying
    · next task _ destroying =>
      cases handled
      exact .destroy destroying
  | refuse =>
    simp only [handle] at handled
    split at handled
    · cases handled
    · next c rest refusing =>
      cases handled
      exact .refuse refusing

/-- Everything that happens to the handles of a batch keeps its account. -/
theorem Accounted.handled (accounted : Accounted b) (handled : Handled b b' count) : Accounted b' := by
  cases handled with
  | act at_k => exact accounted.act at_k
  | turn at_k before after => exact accounted.set at_k before after
  | clone at_k =>
    obtain ⟨undisturbed,accepted⟩ := accounted.busy at_k
    refine accounted.holders (by simp) undisturbed accepted ?_
    simp [owed,Task.pending]
  | release at_k idle => exact accounted.release at_k idle
  | destroy destroying => exact accounted.destroy destroying
  | destroyed destroying => exact accounted.destroyed destroying
  | refuse refusing => exact accounted.refuse refusing

theorem perform_queued (b : Batch) (task : Task) : (perform b task).1.queued = b.queued := by
  unfold perform
  split
  · split <;> rfl
  · rfl
  · rfl

theorem perform_ledger (b : Batch) (task : Task) : (perform b task).1.ledger = b.ledger ++ (perform b task).2.2.toList := by
  unfold perform
  split
  · split <;> simp
  · simp
  · simp

/-- Handles outside the queue leave the queue alone, and the ledger has every addition that is made. -/
theorem Handled.ledger (handled : Handled b b' count) : b'.queued = b.queued ∧ b'.ledger = b.ledger ++ count.toList := by
  cases handled with
  | act at_k => exact ⟨perform_queued b _,perform_ledger b _⟩
  | destroy destroying => exact ⟨perform_queued b _,perform_ledger b _⟩
  | refuse refusing => exact ⟨rfl,rfl⟩
  | _ => simp

/-- The queue's handle goes to a task. -/
theorem Accounted.leave (accounted : Accounted b) (queued : b.queued = true) (idle : holder.task.pending = []) {handed : Nat} (once : handed ≤ 1) :
    Accounted { b with queued := false, handed := handed, holders := b.holders ++ [holder] } := by
  have undisturbed : b.destructor = none := by
    cases destroying : b.destructor with
    | none => rfl
    | some task => rw [(accounted.alone (by rw [destroying]; rfl)).2] at queued; cases queued
  have accepted : b.refused = false := by
    cases refused : b.refused with
    | false => rfl
    | true => rw [(accounted.never refused).1] at queued; cases queued
  have same : { b with queued := false, handed := handed, holders := b.holders ++ [holder] }.pending = b.pending := by
    simp [Batch.pending,idle]
  refine ⟨fun open_ => ?_,fun done => ?_,fun destroying => ?_,by simpa using once,fun refused => ?_⟩
  · obtain ⟨fresh,nothing,-⟩ := accounted.unsettled open_
    exact ⟨fresh,same.trans nothing,.inr (.inl (by simp))⟩
  · obtain ⟨outcome,all,refusal⟩ := accounted.settled done
    rw [same]
    exact ⟨outcome,all,refusal⟩
  · change b.destructor.isSome = true at destroying
    rw [undisturbed] at destroying; cases destroying
  · change b.refused = true at refused
    rw [accepted] at refused; cases refused

theorem accounted_accepted (message : TrafficAnalysisBatch) (cost : Nat) : Accounted (accepted message cost) where
  unsettled _ := ⟨rfl,rfl,.inl rfl⟩
  settled done := by cases done
  alone destroying := by cases destroying
  once := by simp [accepted]
  never refused := by cases refused

theorem accounted_refused (message : TrafficAnalysisBatch) (cost : Nat) (reason : Reason) : Accounted (refusedBatch message cost reason) where
  unsettled open_ := by cases open_
  settled _ := ⟨.dropped reason,List.Perm.refl _,fun _ => ⟨reason,rfl⟩⟩
  alone destroying := by cases destroying
  once := by simp [refusedBatch]
  never _ := ⟨rfl,rfl,rfl,rfl,rfl⟩

/-! ### All batches -/

/-- Every batch is accounted for, and the counters have what the ledgers have. -/
structure Sound (s : State) : Prop where
  accounts : ∀ (i : Nat) (b : Batch), s.batches[i]? = some b → Accounted b
  distinct : s.queue.Nodup
  queued : ∀ i, i ∈ s.queue ↔ ∃ b, s.batches[i]? = some b ∧ b.queued = true
  counted : ∃ log : List Count, log.Perm (s.batches.flatMap Batch.ledger) ∧ s.counters = log.foldl Counters.add Counters.zero

theorem sound_initial : Sound initial where
  accounts i b found := by simp [initial] at found
  distinct := List.nodup_nil
  queued i := by simp [initial]
  counted := ⟨[],List.Perm.refl _,rfl⟩

/-- Distinct items that are changed one after the other are changed once each. -/
theorem getElem?_foldl_modify {α : Type} {places : List Nat} (distinct : places.Nodup) (f : α → α) (l : List α) (i : Nat) :
    (places.foldl (fun l place => l.modify place f) l)[i]? = (l[i]?).map (fun a => if i ∈ places then f a else a) := by
  induction places generalizing l with
  | nil => simp
  | cons place rest ih =>
    obtain ⟨fresh,restDistinct⟩ := List.nodup_cons.mp distinct
    rw [List.foldl_cons,ih restDistinct,List.getElem?_modify]
    cases l[i]? with
    | none => rfl
    | some a =>
      by_cases here : place = i
      · subst here
        simp [fresh]
      · simp [here,Ne.symm here]

theorem flatMap_foldl_modify {places : List Nat} {f : Batch → Batch} (keeps : ∀ b, (f b).ledger = b.ledger) (batches : List Batch) :
    (places.foldl (fun l place => l.modify place f) batches).flatMap Batch.ledger = batches.flatMap Batch.ledger := by
  have one (batches : List Batch) (place : Nat) : (batches.modify place f).map Batch.ledger = batches.map Batch.ledger := by
    apply List.ext_getElem?
    intro i
    rw [List.getElem?_map,List.getElem?_modify,List.getElem?_map]
    cases batches[i]? with
    | none => rfl
    | some b =>
      by_cases here : place = i
      · simp [here,keeps]
      · simp [here]
  induction places generalizing batches with
  | nil => rfl
  | cons place rest ih =>
    rw [List.foldl_cons,ih,List.flatMap_def,one,← List.flatMap_def]

variable {s s' : State}

/-- Batches leave the front of the queue for the tasks that took them. -/
theorem Sound.take (sound : Sound s) {taken rest : List Nat} (split : s.queue = taken ++ rest) {f : Batch → Batch} {bytes : Nat}
    (keeps : ∀ b, (f b).ledger = b.ledger) (unqueued : ∀ b, (f b).queued = false)
    (accounts : ∀ b, Accounted b → b.queued = true → Accounted (f b)) :
    Sound { s with
      queue := rest
      queueBytes := bytes
      batches := taken.foldl (fun batches i => batches.modify i f) s.batches } := by
  have distinct := sound.distinct
  rw [split,List.nodup_append] at distinct
  obtain ⟨first,second,separate⟩ := distinct
  refine ⟨?_,second,?_,?_⟩
  · intro i b found
    change (taken.foldl (fun batches i => batches.modify i f) s.batches)[i]? = some b at found
    rw [getElem?_foldl_modify first] at found
    obtain ⟨b₀,at_i,rfl⟩ := Option.map_eq_some_iff.mp found
    split
    · next member =>
      obtain ⟨b₁,at_i',queued⟩ := (sound.queued i).mp (by rw [split]; exact List.mem_append_left _ member)
      rw [at_i] at at_i'
      cases at_i'
      exact accounts b₀ (sound.accounts i b₀ at_i) queued
    · exact sound.accounts i b₀ at_i
  · intro i
    show i ∈ rest ↔ ∃ b, (taken.foldl (fun batches i => batches.modify i f) s.batches)[i]? = some b ∧ b.queued = true
    rw [getElem?_foldl_modify first]
    constructor
    · intro later
      obtain ⟨b,at_i,queued⟩ := (sound.queued i).mp (by rw [split]; exact List.mem_append_right _ later)
      have kept : i ∉ taken := fun earlier => separate i earlier i later rfl
      exact ⟨b,by simp [at_i,kept],queued⟩
    · rintro ⟨b,found,queued⟩
      obtain ⟨b₀,at_i,rfl⟩ := Option.map_eq_some_iff.mp found
      by_cases member : i ∈ taken
      · rw [if_pos member,unqueued] at queued
        cases queued
      · rw [if_neg member] at queued
        have inside := (sound.queued i).mpr ⟨b₀,at_i,queued⟩
        rw [split,List.mem_append] at inside
        exact inside.resolve_left member
  · obtain ⟨log,all,counters⟩ := sound.counted
    refine ⟨log,?_,counters⟩
    show log.Perm ((taken.foldl (fun batches i => batches.modify i f) s.batches).flatMap Batch.ledger)
    rw [flatMap_foldl_modify keeps]
    exact all

/-- Another batch, for which nothing has been counted. -/
theorem Sound.enqueue (sound : Sound s) (accounted : Accounted b) (fresh : b.ledger = []) {bytes : Nat} :
    Sound { s with
      queue := if b.queued then s.queue ++ [s.batches.length] else s.queue
      queueBytes := bytes
      batches := s.batches ++ [b] } := by
  have outside : s.batches.length ∉ s.queue := by
    intro inside
    obtain ⟨b₀,found,-⟩ := (sound.queued _).mp inside
    simp at found
  refine ⟨?_,?_,?_,?_⟩
  · intro i b' found
    change (s.batches ++ [b])[i]? = some b' at found
    rw [List.getElem?_append] at found
    split at found
    · exact sound.accounts i b' found
    · rw [List.getElem?_singleton] at found
      split at found
      · cases found
        exact accounted
      · cases found
  · dsimp only
    split
    · rw [List.nodup_append]
      refine ⟨sound.distinct,List.nodup_singleton _,?_⟩
      rintro i inside j last rfl
      rw [List.mem_singleton.mp last] at inside
      exact outside inside
    · exact sound.distinct
  · intro i
    show i ∈ (if b.queued then s.queue ++ [s.batches.length] else s.queue) ↔ ∃ b', (s.batches ++ [b])[i]? = some b' ∧ b'.queued = true
    have before := sound.queued i
    rcases Nat.lt_trichotomy i s.batches.length with less | rfl | more
    · rw [List.getElem?_append_left less,← before]
      split
      · simp [Nat.ne_of_lt less]
      · rfl
    · rw [List.getElem?_append_right (Nat.le_refl _)]
      split
      · next queued => simp [queued]
      · next unqueued => simp [outside,unqueued]
    · have none_there : (s.batches ++ [b])[i]? = none := by
        rw [List.getElem?_eq_none_iff,List.length_append,List.length_singleton]
        omega
      have no : i ∉ s.queue := by
        intro inside
        obtain ⟨b₀,found,-⟩ := before.mp inside
        have bound := (List.getElem?_eq_some_iff.mp found).1
        omega
      rw [none_there]
      split
      · simp [no,Nat.ne_of_gt more]
      · simp [no]
  · obtain ⟨log,all,counters⟩ := sound.counted
    refine ⟨log,?_,counters⟩
    simpa [fresh] using all

/-- A task does something with a handle. -/
theorem Sound.handle (sound : Sound s) {i : Nat} (at_i : s.batches[i]? = some b) (handled : Handled b b' count) :
    Sound { s with batches := s.batches.set i b', counters := (count.map s.counters.add).getD s.counters } := by
  obtain ⟨sameQueued,ledger⟩ := handled.ledger
  have inside : i < s.batches.length := (List.getElem?_eq_some_iff.mp at_i).1
  refine ⟨?_,sound.distinct,?_,?_⟩
  · intro j b'' found
    change (s.batches.set i b')[j]? = some b'' at found
    rw [List.getElem?_set] at found
    split at found
    · cases found
      exact (sound.accounts i b at_i).handled handled
    · exact sound.accounts j b'' found
  · intro j
    show j ∈ s.queue ↔ ∃ b'', (s.batches.set i b')[j]? = some b'' ∧ b''.queued = true
    rw [sound.queued j,List.getElem?_set]
    by_cases here : i = j
    · subst here
      rw [at_i,if_pos rfl]
      simp [sameQueued,inside]
    · simp [here]
  · obtain ⟨log,all,counters⟩ := sound.counted
    refine ⟨log ++ count.toList,?_,?_⟩
    · have moved := flatMap_set (f := Batch.ledger) at_i b'
      rw [ledger,← List.append_assoc] at moved
      show (log ++ count.toList).Perm ((s.batches.set i b').flatMap Batch.ledger)
      have both : ((s.batches.set i b').flatMap Batch.ledger ++ b.ledger).Perm (s.batches.flatMap Batch.ledger ++ count.toList ++ b.ledger) := by
        refine moved.trans ?_
        rw [List.append_assoc,List.append_assoc]
        exact List.perm_append_comm.append_left _
      exact (all.append_right _).trans ((List.perm_append_right_iff _).mp both).symm
    · rw [List.foldl_append,← counters]
      cases count with
      | none => rfl
      | some c => rfl

theorem sound_step {event : Event} (sound : Sound s) (stepped : step s event = some s') : Sound s' := by
  cases event with
  | enqueue message config bytes reserved =>
    simp only [step] at stepped
    split at stepped
    · cases stepped
      exact sound
    split at stepped
    · next reason _ =>
      cases stepped
      exact sound.enqueue (accounted_refused message (batchCost message bytes) reason) rfl
    · cases stepped
      exact sound.enqueue (accounted_accepted message (batchCost message bytes)) rfl
  | next =>
    simp only [step,pop] at stepped
    split at stepped
    · cases stepped
    · next i rest split =>
      cases stepped
      refine @Sound.take _ sound [i] rest split _ _ (fun _ => rfl) (fun _ => rfl) (fun b accounted queued => ?_)
      have once := accounted.once
      rw [if_pos queued] at once
      exact accounted.leave queued rfl (by omega)
  | expire =>
    simp only [step,pop] at stepped
    split at stepped
    · cases stepped
    · next i rest split =>
      cases stepped
      refine @Sound.take _ sound [i] rest split _ _ (fun _ => rfl) (fun _ => rfl) (fun b accounted queued => ?_)
      have once := accounted.once
      exact accounted.leave queued rfl (by omega)
  | discardBuffered =>
    simp only [step] at stepped
    cases stepped
    refine @Sound.take _ sound s.queue [] (List.append_nil _).symm _ _ (fun _ => rfl) (fun _ => rfl) (fun b accounted queued => ?_)
    have once := accounted.once
    exact accounted.leave queued rfl (by omega)
  | handle i event =>
    simp only [step] at stepped
    split at stepped
    · cases stepped
    · next b at_i =>
      obtain ⟨⟨b',count⟩,handled,same⟩ := Option.map_eq_some_iff.mp stepped
      cases same
      exact sound.handle at_i (handle_cases handled)

theorem sound_run {events : List Event} (run : Run step initial events s) : Sound s :=
  run.invariant sound_initial (fun _ _ _ sound stepped => sound_step sound stepped)

/-! ### Exactly once -/

/-- The rows that an addition counts as dropped. -/
def Count.rows : Count → Nat
  | .droppedEntries rows => rows
  | _ => 0

def Count.isReason : Count → Bool
  | .reason _ => true
  | _ => false

/-- The batch was counted once, as sent or as dropped; a dropped one with its rows and under
    one reason. -/
structure CountedOnce (b : Batch) : Prop where
  one : b.ledger.count .sent + b.ledger.count .droppedBatches = 1
  rows : (b.ledger.map Count.rows).sum = if b.ledger.count .droppedBatches = 1 then entries b.message else 0
  reasons : b.ledger.countP Count.isReason = b.ledger.count .droppedBatches

/-- With the last handle gone, nothing is owed any more. -/
theorem Accounted.gone (accounted : Accounted b) (gone : b.gone) : CountedOnce b ∧ (b.refused = true → b.ledger.count .droppedBatches = 1) := by
  obtain ⟨unqueued,no_holder,undestroyed,unrefusing⟩ := gone
  have nothing : b.pending = [] := by simp [Batch.pending,no_holder,undestroyed,unrefusing]
  have completed : b.completed = true := by
    cases done : b.completed with
    | true => rfl
    | false =>
      obtain ⟨-,-,queued | some_holder | ⟨outcome,destroying⟩⟩ := accounted.unsettled done
      · rw [unqueued] at queued; cases queued
      · exact absurd no_holder some_holder
      · rw [undestroyed] at destroying; cases destroying
  obtain ⟨outcome,all,refusal⟩ := accounted.settled completed
  rw [nothing,List.append_nil] at all
  have sent := all.count_eq .sent
  have dropped := all.count_eq .droppedBatches
  have rows := (all.map Count.rows).sum_eq
  have reasons := all.countP_eq Count.isReason
  cases outcome with
  | sent =>
    simp only [counts,List.count_cons,List.count_nil,List.map_cons,List.map_nil,List.sum_cons,List.sum_nil,List.countP_cons,List.countP_nil] at *
    refine ⟨⟨?_,?_,?_⟩,fun refused => ?_⟩
    · rw [sent,dropped]; rfl
    · rw [rows,dropped]; rfl
    · rw [reasons,dropped]; rfl
    · obtain ⟨reason,no⟩ := refusal refused
      cases no
  | dropped reason =>
    have sentNone : b.ledger.count .sent = 0 := by rw [sent]; cases reason <;> rfl
    have droppedOne : b.ledger.count .droppedBatches = 1 := by rw [dropped]; cases reason <;> rfl
    refine ⟨⟨?_,?_,?_⟩,fun _ => droppedOne⟩
    · rw [sentNone,droppedOne]
    · rw [droppedOne,if_pos rfl,rows]
      cases reason <;> simp [counts,Count.rows]
    · rw [droppedOne,reasons]
      cases reason <;> rfl

/-- The counters after some additions. -/
theorem counters_of_log (log : List Count) (start : Counters) :
    (log.foldl Counters.add start).sent = start.sent + log.count .sent ∧
    (log.foldl Counters.add start).droppedBatches = start.droppedBatches + log.count .droppedBatches ∧
    (log.foldl Counters.add start).droppedEntries = start.droppedEntries + (log.map Count.rows).sum ∧
    ∀ r, (log.foldl Counters.add start).drops r = start.drops r + log.count (.reason r) := by
  induction log generalizing start with
  | nil => simp
  | cons c rest ih =>
    obtain ⟨sent,batches,rows,reasons⟩ := ih (start.add c)
    rw [List.foldl_cons,sent,batches,rows]
    refine ⟨?_,?_,?_,fun r => ?_⟩
    · cases c <;> (simp [Counters.add]; try omega)
    · cases c <;> (simp [Counters.add]; try omega)
    · cases c <;> (simp [Counters.add,Count.rows]; try omega)
    · rw [reasons]
      cases c with
      | reason r' =>
        by_cases same : r' = r
        · subst same
          simp [Counters.add]
          omega
        · simp [Counters.add,Ne.symm same,same]
      | _ => simp [Counters.add]

/-- For every interleaving: a batch is handed to at most one sender; by the time its last
    handle is gone it has been counted exactly once; a refused batch is never queued and is
    counted as dropped; and the counters have what was counted for the batches, no more. -/
theorem analysis_batch_counted_once {events : List Event} {s : State} (run : Run step initial events s) :
    (∀ (i : Nat) (b : Batch), s.batches[i]? = some b → b.handed ≤ 1 ∧ (b.refused = true → i ∉ s.queue ∧ b.handed = 0) ∧
      (b.gone → CountedOnce b ∧ (b.refused = true → b.ledger.count .droppedBatches = 1))) ∧
    s.counters.sent = (s.batches.flatMap Batch.ledger).count .sent ∧
    s.counters.droppedBatches = (s.batches.flatMap Batch.ledger).count .droppedBatches ∧
    s.counters.droppedEntries = ((s.batches.flatMap Batch.ledger).map Count.rows).sum ∧
    ∀ r, s.counters.drops r = (s.batches.flatMap Batch.ledger).count (.reason r) := by
  have sound := sound_run run
  refine ⟨?_,?_⟩
  · intro i b at_i
    have accounted := sound.accounts i b at_i
    have once := accounted.once
    refine ⟨by omega,fun refused => ?_,accounted.gone⟩
    obtain ⟨unqueued,unhanded,-⟩ := accounted.never refused
    refine ⟨fun inside => ?_,unhanded⟩
    obtain ⟨b',at_i',queued⟩ := (sound.queued i).mp inside
    rw [at_i] at at_i'
    cases at_i'
    rw [unqueued] at queued
    cases queued
  · obtain ⟨log,all,counters⟩ := sound.counted
    obtain ⟨sent,batches,rows,reasons⟩ := counters_of_log log Counters.zero
    rw [← counters] at sent batches rows reasons
    refine ⟨?_,?_,?_,fun r => ?_⟩
    · rw [sent,all.count_eq]; exact Nat.zero_add _
    · rw [batches,all.count_eq]; exact Nat.zero_add _
    · rw [rows,(all.map Count.rows).sum_eq]; exact Nat.zero_add _
    · rw [reasons,all.count_eq]; exact Nat.zero_add _

/-- A batch with one row. -/
def oneRow : TrafficAnalysisBatch := ⟨"agent",1,1,60,[⟨"alice",0,"vless","tcp",100,200,0,0,1,"node"⟩],[]⟩

/-- A batch is sent while another handle tries to drop it, and a second batch finds no memory. -/
def contested : List Event :=
  [.enqueue oneRow (defaultConfig true) 64 true,.next,.enqueue oneRow (defaultConfig true) 64 false,.handle 1 .refuse,
    .handle 0 (.sender 0 (.acquired true)),.handle 0 (.clone 0),.handle 0 (.settle 1 (.dropped .expired)),
    .handle 0 (.sender 0 (.done true)),.handle 0 (.act 0),.handle 0 (.act 1),.handle 1 .refuse,.handle 0 (.act 0),.handle 1 .refuse,
    .handle 0 (.release 1),.handle 0 (.release 0),.handle 0 .destroy,.handle 0 .destroy]

theorem contested_batch_counted_once : ∃ s b b', Run step initial contested s ∧ s.batches[0]? = some b ∧ s.batches[1]? = some b' ∧
    b.gone ∧ CountedOnce b ∧ b.handed = 1 ∧ b'.gone ∧ b'.refused = true ∧ CountedOnce b' ∧ s.counters.sent = 1 ∧
    s.counters.droppedBatches = 1 := by
  have followed : ((follow step initial contested).map (fun s => (s.batches[0]?.map (fun b => (decide b.gone,b.handed)),
      s.batches[1]?.map (fun b => (decide b.gone,b.refused)),(s.batches.flatMap Batch.ledger).count .sent,
      (s.batches.flatMap Batch.ledger).count .droppedBatches))) = some (some (true,1),some (true,true),1,1) := by decide
  obtain ⟨s,reached,facts⟩ := Option.map_eq_some_iff.mp followed
  simp only [Prod.mk.injEq] at facts
  obtain ⟨first,second,sent,dropped⟩ := facts
  obtain ⟨b,at_0,first⟩ := Option.map_eq_some_iff.mp first
  obtain ⟨b',at_1,second⟩ := Option.map_eq_some_iff.mp second
  simp only [Prod.mk.injEq,decide_eq_true_eq] at first second
  have run := Run.of_follow reached
  obtain ⟨batches,sentAll,droppedAll,-⟩ := analysis_batch_counted_once run
  have gone := ((batches 0 b at_0).2.2 first.1).1
  have gone' := ((batches 1 b' at_1).2.2 second.1).1
  exact ⟨s,b,b',run,at_0,at_1,first.1,gone,first.2,second.1,second.2,gone',sentAll.trans sent,droppedAll.trans dropped⟩

end NodeAgent.AnalysisBatches
