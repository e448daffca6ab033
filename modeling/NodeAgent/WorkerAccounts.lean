import NodeAgent.ControlWorker

/-!
The account of the commands of one worker: which of them wait, are in a lane or have left it,
and what was put on the output for each. Every step of a call of `submit` and of a lane keeps
the account.
-/
namespace NodeAgent.Control
open NodeAgent.Topology NodeAgent.FifoCache NodeAgent.KeyedGates NodeAgent.Transition

variable {sc : Sections}

/-! ### What is on the output and what is still to come -/

/-- The statuses of the acknowledgements for one call of `submit`, in order. -/
def Worker.statuses (w : Worker sc) (i : Nat) : List AckStatus :=
  (w.output.filter (fun sent => sent.submission = i)).map (fun sent => sent.ack.status)

/-- The submissions that a lane has acknowledged, in order. -/
def Worker.terminals (w : Worker sc) (kind : LaneKind) : List Nat :=
  (w.output.filter (fun sent => sent.lane = some kind)).map Sent.submission

def Next.delivery : Next sc → Delivery sc
  | .reply delivery _ => delivery
  | .stop delivery => delivery

/-- The command that a lane is busy with, or was when it stopped. -/
def LanePhase.delivery : LanePhase sc → Option (Delivery sc)
  | .idle => none
  | .taken delivery => some delivery
  | .waiting delivery _ => some delivery
  | .ready delivery _ => some delivery
  | .executing delivery _ => some delivery
  | .completing delivery _ _ => some delivery
  | .unlocking _ next => some next.delivery
  | .releasing _ next => some next.delivery
  | .replying delivery _ => some delivery
  | .stopped delivery => delivery

def Next.result : Next sc → Option TerminalResult
  | .reply _ result => some result
  | .stop _ => none

/-- The result that a lane is about to acknowledge. -/
def LanePhase.result : LanePhase sc → Option TerminalResult
  | .completing _ _ result => some result
  | .unlocking _ next => next.result
  | .releasing _ next => next.result
  | .replying _ result => some result
  | _ => none

/-- The lane has broken a command off, or is about to. -/
def LanePhase.quitting : LanePhase sc → Bool
  | .unlocking _ next => next.result.isNone
  | .releasing _ next => next.result.isNone
  | .stopped delivery => delivery.isSome
  | _ => false

/-- The commands in the lane and in its queue. -/
def Lane.held (lane : Lane sc) : List (Delivery sc) := lane.phase.delivery.toList ++ lane.queue

def Lane.pending (lane : Lane sc) : List Nat := lane.held.map Delivery.submission

/-- The acknowledgements of a call, by where it stands. A call that has returned may still wait for its lane, may have been
    answered by it, or never reached it. -/
def Standing (statuses : List AckStatus) (waits answered : Prop) : SubmitPhase → Prop
  | .reserving => statuses = []
  | .accepting => statuses = []
  | .placing => statuses = [.accepted]
  | .offering => statuses = [.accepted]
  | .refusing _ => statuses = [.accepted]
  | .returned ok =>
    (waits ∧ statuses = [.accepted]) ∨
    (answered ∧ ∃ status, status ≠ .accepted ∧ statuses = [.accepted,status]) ∨
    (¬ waits ∧ ¬ answered ∧ if ok then statuses = [.accepted,.failed] else statuses = [] ∨ statuses = [.accepted])

def Worker.Waits (w : Worker sc) (i : Nat) : Prop := ∃ kind, i ∈ (w.lanes kind).pending

def Worker.Answered (w : Worker sc) (i : Nat) : Prop := ∃ kind, i ∈ w.terminals kind

/-- Every command of a worker is accounted for. -/
structure Accounted (w : Worker sc) : Prop where
  entered : ∀ kind, (w.lanes kind).entered = w.terminals kind ++ (w.lanes kind).pending
  distinct : ∀ kind, (w.lanes kind).entered.Nodup
  placed : ∀ kind, ∀ i ∈ (w.lanes kind).entered, ∃ submission : Submission sc, w.submissions[i]? = some submission ∧
    submission.phase = .returned true ∧ laneOf submission.command = kind
  carried : ∀ kind, ∀ delivery ∈ (w.lanes kind).held,
    (w.submissions[delivery.submission]?.map Submission.command) = some delivery.command
  named : ∀ sent ∈ w.output, ∃ command, (w.submissions[sent.submission]?.map Submission.command) = some command ∧
    sent.ack = protoAck command ⟨sent.ack.status,sent.ack.message⟩
  senders : ∀ sent ∈ w.output, sent.lane ≠ none → sent.ack.status ≠ .accepted
  standing : ∀ (i : Nat) (submission : Submission sc), w.submissions[i]? = some submission →
    Standing (w.statuses i) (w.Waits i) (w.Answered i) submission.phase
  earlier : ∀ (i : Nat) (submission : Submission sc), w.submissions[i]? = some submission → ∀ j ∈ submission.before,
    j < i ∧ ∃ other : Submission sc, w.submissions[j]? = some other ∧ other.phase.isReturned = true
  ordered : ∀ kind, (w.lanes kind).entered.Pairwise (fun a b =>
    ∀ submission : Submission sc, w.submissions[a]? = some submission → b ∉ submission.before)
  results : ∀ kind result, (w.lanes kind).phase.result = some result → result.status ≠ .accepted
  running : w.cancelled = false → w.closed = false → ∀ kind, (w.lanes kind).phase.quitting = false

theorem accounted_spawn (capacities : LaneKind → Nat) : Accounted (Worker.spawn capacities : Worker sc) where
  entered _ := rfl
  distinct _ := List.nodup_nil
  placed _ i member := by cases member
  carried _ delivery member := by cases member
  named sent member := by cases member
  senders sent member := by cases member
  standing i submission found := by simp [Worker.spawn] at found
  earlier i submission found := by simp [Worker.spawn] at found
  ordered _ := List.Pairwise.nil
  results _ result found := by cases found
  running _ _ _ := rfl

section Accounting
variable {w w' : Worker sc} {i : Nat} {submission : Submission sc} {kind : LaneKind}

theorem Accounted.in_entered (held : Accounted w) : i ∈ (w.lanes kind).entered ↔ i ∈ w.terminals kind ∨ i ∈ (w.lanes kind).pending := by
  rw [held.entered,List.mem_append]

/-- A call that has not returned has not reached a lane. -/
theorem Accounted.not_entered (held : Accounted w) (found : w.submissions[i]? = some submission)
    (active : submission.phase.isReturned = false) (kind : LaneKind) : i ∉ (w.lanes kind).entered := by
  intro member
  obtain ⟨other,found',returned,-⟩ := held.placed kind i member
  rw [found] at found'
  cases found'
  rw [returned] at active
  cases active

theorem Accounted.not_waits (held : Accounted w) (found : w.submissions[i]? = some submission)
    (active : submission.phase.isReturned = false) : ¬ w.Waits i := by
  rintro ⟨kind,member⟩
  exact held.not_entered found active kind (held.in_entered.mpr (Or.inr member))

theorem Accounted.not_answered (held : Accounted w) (found : w.submissions[i]? = some submission)
    (active : submission.phase.isReturned = false) : ¬ w.Answered i := by
  rintro ⟨kind,member⟩
  exact held.not_entered found active kind (held.in_entered.mpr (Or.inl member))

/-! ### Steps of a call -/

theorem lookup_moved {phase : SubmitPhase} {j : Nat} {submission' : Submission sc}
    (found : (w.moveSubmission i phase).submissions[j]? = some submission') :
    ∃ submission, w.submissions[j]? = some submission ∧ submission' = if i = j then { submission with phase := phase } else submission := by
  unfold Worker.moveSubmission at found
  rw [List.getElem?_modify] at found
  obtain ⟨submission,at_j,rfl⟩ := Option.map_eq_some_iff.mp found
  exact ⟨submission,at_j,rfl⟩

theorem moved_of_lookup (i : Nat) (phase : SubmitPhase) {j : Nat} (found : w.submissions[j]? = some submission) :
    (w.moveSubmission i phase).submissions[j]? = some (if i = j then { submission with phase := phase } else submission) := by
  simp [Worker.moveSubmission,List.getElem?_modify,found]

theorem moved_command (phase : SubmitPhase) (j : Nat) :
    (w.moveSubmission i phase).submissions[j]?.map Submission.command = w.submissions[j]?.map Submission.command := by
  unfold Worker.moveSubmission
  rw [List.getElem?_modify]
  cases w.submissions[j]? with
  | none => rfl
  | some submission =>
    simp only [Option.map_eq_map,Option.map_some]
    split <;> rfl

/-- Two workers with the same lanes, up to the places that are reserved. -/
def SameLanes (w w' : Worker sc) : Prop :=
  ∀ kind, (w'.lanes kind).phase = (w.lanes kind).phase ∧ (w'.lanes kind).queue = (w.lanes kind).queue ∧
    (w'.lanes kind).entered = (w.lanes kind).entered

theorem SameLanes.refl (w : Worker sc) : SameLanes w w := fun _ => ⟨rfl,rfl,rfl⟩

theorem SameLanes.held (same : SameLanes w w') (kind : LaneKind) : (w'.lanes kind).held = (w.lanes kind).held := by
  obtain ⟨phase,queue,-⟩ := same kind
  unfold Lane.held
  rw [phase,queue]

theorem sameLanes_unreserve (w : Worker sc) (kind : LaneKind) : SameLanes w (w.unreserve kind) := by
  intro other
  cases kind with
  | refresh => exact ⟨rfl,rfl,rfl⟩
  | regular =>
    by_cases here : other = .regular
    · subst here
      simp [Worker.unreserve,Worker.setLane]
    · simp [Worker.unreserve,Worker.setLane,here]

/-- A call takes a step in which it sends `new` and reaches no lane. -/
theorem Accounted.submitted (held : Accounted w) (found : w.submissions[i]? = some submission)
    (active : submission.phase.isReturned = false) (w' : Worker sc) (same : SameLanes w w')
    (submissions : w'.submissions = w.submissions) (new : List Sent) (output : w'.output = w.output ++ new)
    (own : ∀ sent ∈ new, sent.submission = i ∧ sent.lane = none ∧
      sent.ack = protoAck submission.command ⟨sent.ack.status,sent.ack.message⟩)
    (session : w'.cancelled = w.cancelled ∧ w'.closed = w.closed) {phase : SubmitPhase}
    (standing : Standing (w.statuses i ++ new.map (fun sent => sent.ack.status)) False False phase) :
    Accounted (w'.moveSubmission i phase) := by
  have pending (kind : LaneKind) : (w'.lanes kind).pending = (w.lanes kind).pending := by
    unfold Lane.pending
    rw [same.held kind]
  have terminals (kind : LaneKind) : w'.terminals kind = w.terminals kind := by
    have none : new.filter (fun sent => sent.lane = some kind) = [] := by
      rw [List.filter_eq_nil_iff]
      intro sent member
      simp [(own sent member).2.1]
    unfold Worker.terminals
    rw [output,List.filter_append,none,List.append_nil]
  have statuses (j : Nat) : w'.statuses j = w.statuses j ++ if i = j then new.map (fun sent => sent.ack.status) else [] := by
    unfold Worker.statuses
    rw [output,List.filter_append,List.map_append]
    congr 1
    by_cases here : i = j
    · have all : new.filter (fun sent => sent.submission = j) = new := by
        rw [List.filter_eq_self]
        intro sent member
        simp [(own sent member).1,here]
      rw [all,if_pos here]
    · have none : new.filter (fun sent => sent.submission = j) = [] := by
        rw [List.filter_eq_nil_iff]
        intro sent member
        simp [(own sent member).1,here]
      rw [none,if_neg here]
      rfl
  have waits (j : Nat) : (w'.moveSubmission i phase).Waits j ↔ w.Waits j := by
    show (∃ kind, j ∈ (w'.lanes kind).pending) ↔ _
    simp only [pending]
    rfl
  have answered (j : Nat) : (w'.moveSubmission i phase).Answered j ↔ w.Answered j := by
    show (∃ kind, j ∈ w'.terminals kind) ↔ _
    simp only [terminals]
    rfl
  have commands (j : Nat) : (w'.moveSubmission i phase).submissions[j]?.map Submission.command =
      w.submissions[j]?.map Submission.command := by rw [moved_command,submissions]
  -- The other calls are as they were.
  have others {j : Nat} {other : Submission sc} (at_j : w.submissions[j]? = some other) (apart : i ≠ j) :
      (w'.moveSubmission i phase).submissions[j]? = some other := by
    have at_j' : w'.submissions[j]? = some other := by rw [submissions]; exact at_j
    have moved := moved_of_lookup i phase at_j'
    rwa [if_neg apart] at moved
  have returned {j : Nat} {other : Submission sc} (at_j : w.submissions[j]? = some other) (done : other.phase.isReturned = true) :
      (w'.moveSubmission i phase).submissions[j]? = some other := by
    refine others at_j ?_
    rintro rfl
    rw [found] at at_j
    cases at_j
    rw [active] at done
    cases done
  constructor
  · intro kind
    show (w'.lanes kind).entered = w'.terminals kind ++ (w'.lanes kind).pending
    rw [(same kind).2.2,terminals,pending]
    exact held.entered kind
  · intro kind
    show (w'.lanes kind).entered.Nodup
    rw [(same kind).2.2]
    exact held.distinct kind
  · intro kind j member
    have member : j ∈ (w.lanes kind).entered := by rwa [← (same kind).2.2]
    obtain ⟨other,at_j,done,lane⟩ := held.placed kind j member
    exact ⟨other,returned at_j (by rw [done]; rfl),done,lane⟩
  · intro kind delivery member
    have member : delivery ∈ (w.lanes kind).held := by rwa [← same.held kind]
    rw [commands]
    exact held.carried kind delivery member
  · intro sent member
    have member : sent ∈ w.output ++ new := by rwa [← output]
    rw [commands]
    rcases List.mem_append.mp member with old | fresh
    · exact held.named sent old
    · obtain ⟨own',-,ack⟩ := own sent fresh
      exact ⟨submission.command,by rw [own',found]; rfl,ack⟩
  · intro sent member lane
    have member : sent ∈ w.output ++ new := by rwa [← output]
    rcases List.mem_append.mp member with old | fresh
    · exact held.senders sent old lane
    · exact absurd (own sent fresh).2.1 lane
  · intro j submission' at_j
    obtain ⟨other,was,rfl⟩ := lookup_moved at_j
    rw [submissions] at was
    show Standing (w'.statuses j) ((w'.moveSubmission i phase).Waits j) ((w'.moveSubmission i phase).Answered j) _
    rw [waits,answered,statuses]
    by_cases here : i = j
    · subst here
      rw [if_pos rfl,if_pos rfl]
      rw [eq_false (held.not_waits found active),eq_false (held.not_answered found active)]
      exact standing
    · rw [if_neg here,if_neg here,List.append_nil]
      exact held.standing j other was
  · intro j submission' at_j k member
    obtain ⟨other,was,rfl⟩ := lookup_moved at_j
    rw [submissions] at was
    have member : k ∈ other.before := by
      split at member
      · exact member
      · exact member
    obtain ⟨first,before,at_k,done⟩ := held.earlier j other was k member
    exact ⟨first,before,returned at_k done,done⟩
  · intro kind
    show (w'.lanes kind).entered.Pairwise _
    rw [(same kind).2.2]
    refine (held.ordered kind).imp ?_
    intro a b apart submission' at_a
    obtain ⟨other,was,rfl⟩ := lookup_moved at_a
    rw [submissions] at was
    split
    · exact apart other was
    · exact apart other was
  · intro kind result found'
    exact held.results kind result (by rw [← (same kind).1]; exact found')
  · intro active' open' kind
    show (w'.lanes kind).phase.quitting = false
    rw [(same kind).1]
    exact held.running (session.1.symm.trans active') (session.2.symm.trans open') kind

theorem enqueue_entered (w : Worker sc) (kind : LaneKind) (delivery : Delivery sc) (k : LaneKind) :
    ((w.enqueue kind delivery).lanes k).entered = (w.lanes k).entered ++ if k = kind then [delivery.submission] else [] := by
  by_cases here : k = kind
  · subst here
    simp [Worker.enqueue,Worker.setLane]
  · simp [Worker.enqueue,Worker.setLane,here]

theorem enqueue_held (w : Worker sc) (kind : LaneKind) (delivery : Delivery sc) (k : LaneKind) :
    ((w.enqueue kind delivery).lanes k).held = (w.lanes k).held ++ if k = kind then [delivery] else [] := by
  by_cases here : k = kind
  · subst here
    simp [Worker.enqueue,Worker.setLane,Lane.held]
  · simp [Worker.enqueue,Worker.setLane,here]

theorem enqueue_phase (w : Worker sc) (kind : LaneKind) (delivery : Delivery sc) (k : LaneKind) :
    ((w.enqueue kind delivery).lanes k).phase = (w.lanes k).phase := by
  by_cases here : k = kind
  · subst here
    simp [Worker.enqueue,Worker.setLane]
  · simp [Worker.enqueue,Worker.setLane,here]

/-- A call that has sent `Accepted` puts its command into the queue and returns. -/
theorem Accounted.enqueued (held : Accounted w) (found : w.submissions[i]? = some submission)
    (active : submission.phase.isReturned = false) (accepted : w.statuses i = [.accepted]) :
    Accounted ((w.enqueue (laneOf submission.command) ⟨i,submission.command⟩).moveSubmission i (.returned true)) := by
  set kind := laneOf submission.command with kindIs
  let w' : Worker sc := w.enqueue kind ⟨i,submission.command⟩
  have absent := held.not_entered found active
  have entered (k : LaneKind) : (w'.lanes k).entered = (w.lanes k).entered ++ if k = kind then [i] else [] := enqueue_entered w kind _ k
  have pending (k : LaneKind) : (w'.lanes k).pending = (w.lanes k).pending ++ if k = kind then [i] else [] := by
    show (w'.lanes k).held.map _ = _
    rw [enqueue_held,List.map_append]
    split <;> rfl
  have waits (j : Nat) : (w'.moveSubmission i (.returned true)).Waits j ↔ w.Waits j ∨ j = i := by
    show (∃ k, j ∈ (w'.lanes k).pending) ↔ _
    simp only [pending,List.mem_append]
    constructor
    · rintro ⟨k,old | new⟩
      · exact Or.inl ⟨k,old⟩
      · right
        split at new
        · exact List.mem_singleton.mp new
        · cases new
    · rintro (⟨k,old⟩ | rfl)
      · exact ⟨k,Or.inl old⟩
      · exact ⟨kind,Or.inr (by rw [if_pos rfl]; exact List.mem_singleton_self _)⟩
  have at_i : (w'.moveSubmission i (.returned true)).submissions[i]? = some { submission with phase := .returned true } := by
    have moved := moved_of_lookup i (.returned true) (show w'.submissions[i]? = some submission from found)
    rwa [if_pos rfl] at moved
  have returned {j : Nat} {other : Submission sc} (at_j : w.submissions[j]? = some other) (done : other.phase.isReturned = true) :
      (w'.moveSubmission i (.returned true)).submissions[j]? = some other := by
    have apart : i ≠ j := by
      rintro rfl
      rw [found] at at_j
      cases at_j
      rw [active] at done
      cases done
    have moved := moved_of_lookup i (.returned true) (show w'.submissions[j]? = some other from at_j)
    rwa [if_neg apart] at moved
  have commands (j : Nat) : (w'.moveSubmission i (.returned true)).submissions[j]?.map Submission.command =
      w.submissions[j]?.map Submission.command := moved_command _ j
  constructor
  · intro k
    show (w'.lanes k).entered = w.terminals k ++ (w'.lanes k).pending
    rw [entered,pending,held.entered k,List.append_assoc]
  · intro k
    show (w'.lanes k).entered.Nodup
    rw [entered]
    split
    · rw [List.nodup_append]
      refine ⟨held.distinct k,List.nodup_singleton _,?_⟩
      rintro a member b new rfl
      rw [List.mem_singleton] at new
      exact absent k (new ▸ member)
    · rw [List.append_nil]
      exact held.distinct k
  · intro k j member
    have member : j ∈ (w.lanes k).entered ++ if k = kind then [i] else [] := by rw [← entered]; exact member
    rcases List.mem_append.mp member with old | new
    · obtain ⟨other,at_j,done,lane⟩ := held.placed k j old
      exact ⟨other,returned at_j (by rw [done]; rfl),done,lane⟩
    · split at new
      · next here =>
        rw [List.mem_singleton] at new
        subst new
        exact ⟨_,at_i,rfl,by rw [here]⟩
      · cases new
  · intro k delivery member
    have member : delivery ∈ (w'.lanes k).held := member
    rw [enqueue_held] at member
    rw [commands]
    rcases List.mem_append.mp member with old | new
    · exact held.carried k delivery old
    · split at new
      · rw [List.mem_singleton] at new
        rw [new,found]
        rfl
      · cases new
  · intro sent member
    rw [commands]
    exact held.named sent member
  · exact held.senders
  · intro j submission' at_j
    obtain ⟨other,was,rfl⟩ := lookup_moved at_j
    show Standing (w.statuses j) ((w'.moveSubmission i (.returned true)).Waits j) (w.Answered j) _
    by_cases here : i = j
    · subst here
      rw [if_pos rfl]
      exact Or.inl ⟨(waits i).mpr (Or.inr rfl),accepted⟩
    · rw [if_neg here,propext (waits j),or_iff_left (Ne.symm here)]
      exact held.standing j other was
  · intro j submission' at_j k member
    obtain ⟨other,was,rfl⟩ := lookup_moved at_j
    have member : k ∈ other.before := by
      split at member
      · exact member
      · exact member
    obtain ⟨first,before,at_k,done⟩ := held.earlier j other was k member
    exact ⟨first,before,returned at_k done,done⟩
  · intro k
    show (w'.lanes k).entered.Pairwise _
    have kept : (w.lanes k).entered.Pairwise (fun a b => ∀ submission' : Submission sc,
        (w'.moveSubmission i (.returned true)).submissions[a]? = some submission' → b ∉ submission'.before) := by
      refine (held.ordered k).imp ?_
      intro a b apart submission' at_a
      obtain ⟨other,was,rfl⟩ := lookup_moved at_a
      split
      · exact apart other was
      · exact apart other was
    rw [entered]
    split
    · -- What is in the queue already began when this call had not returned yet.
      rw [List.pairwise_append]
      refine ⟨kept,List.pairwise_singleton _ _,?_⟩
      intro a member b new submission' at_a again
      rw [List.mem_singleton] at new
      subst new
      obtain ⟨other,was,rfl⟩ := lookup_moved at_a
      have again : b ∈ other.before := by
        split at again
        · exact again
        · exact again
      obtain ⟨-,self,at_b,done⟩ := held.earlier a other was b again
      rw [found] at at_b
      cases at_b
      rw [active] at done
      cases done
    · rw [List.append_nil]
      exact kept
  · intro k result found'
    have found' : (w'.lanes k).phase.result = some result := found'
    rw [enqueue_phase] at found'
    exact held.results k result found'
  · intro active' open' k
    show (w'.lanes k).phase.quitting = false
    rw [enqueue_phase]
    exact held.running active' open' k

/-- The flags of a session and the reserved places do not matter, as long as the session has not come back. -/
theorem Accounted.relaned (held : Accounted w) (same : SameLanes w w') (submissions : w'.submissions = w.submissions)
    (output : w'.output = w.output)
    (session : w'.cancelled = false → w'.closed = false → w.cancelled = false ∧ w.closed = false) : Accounted w' := by
  have pending (kind : LaneKind) : (w'.lanes kind).pending = (w.lanes kind).pending := by
    unfold Lane.pending
    rw [same.held kind]
  have terminals (kind : LaneKind) : w'.terminals kind = w.terminals kind := by
    unfold Worker.terminals
    rw [output]
  constructor
  · intro kind
    rw [(same kind).2.2,terminals,pending]
    exact held.entered kind
  · intro kind
    rw [(same kind).2.2]
    exact held.distinct kind
  · rw [submissions]
    intro kind i member
    exact held.placed kind i (by rwa [← (same kind).2.2])
  · rw [submissions]
    intro kind delivery member
    exact held.carried kind delivery (by rwa [← same.held kind])
  · rw [submissions,output]
    exact held.named
  · rw [output]
    exact held.senders
  · rw [submissions]
    intro i submission found
    have standing := held.standing i submission found
    have statuses : w'.statuses i = w.statuses i := by
      unfold Worker.statuses
      rw [output]
    have waits : w'.Waits i ↔ w.Waits i := by
      unfold Worker.Waits
      simp only [pending]
    have answered : w'.Answered i ↔ w.Answered i := by
      unfold Worker.Answered
      simp only [terminals]
    rw [statuses,propext waits,propext answered]
    exact standing
  · rw [submissions]
    exact held.earlier
  · rw [submissions]
    intro kind
    rw [(same kind).2.2]
    exact held.ordered kind
  · intro kind result found
    exact held.results kind result (by rw [← (same kind).1]; exact found)
  · intro active open' kind
    rw [(same kind).1]
    obtain ⟨was,open''⟩ := session active open'
    exact held.running was open'' kind

theorem Accounted.unreserved (held : Accounted w) (kind : LaneKind) : Accounted (w.unreserve kind) := by
  refine held.relaned (sameLanes_unreserve w kind) ?_ ?_ ?_
  · cases kind <;> rfl
  · cases kind <;> rfl
  · cases kind <;> exact fun active open' => ⟨active,open'⟩

theorem mem_returnedCalls (member : i ∈ w.returnedCalls) :
    ∃ submission, w.submissions[i]? = some submission ∧ submission.phase.isReturned = true := by
  obtain ⟨-,returned⟩ := List.mem_filter.mp member
  cases found : w.submissions[i]? with
  | none =>
    rw [found] at returned
    cases returned
  | some submission =>
    rw [found] at returned
    exact ⟨submission,rfl,returned⟩

/-- Nothing is on the output for a call that has not begun. -/
theorem Accounted.statuses_fresh (held : Accounted w) (fresh : w.submissions.length ≤ i) : w.statuses i = [] := by
  unfold Worker.statuses
  rw [List.map_eq_nil_iff,List.filter_eq_nil_iff]
  intro sent member
  obtain ⟨command,named,-⟩ := held.named sent member
  obtain ⟨submission,found,-⟩ := Option.map_eq_some_iff.mp named
  have inside := (List.getElem?_eq_some_iff.mp found).1
  simp only [decide_eq_true_eq]
  omega

theorem Accounted.entered_known (held : Accounted w) (member : i ∈ (w.lanes kind).entered) : i < w.submissions.length := by
  obtain ⟨submission,found,-⟩ := held.placed kind i member
  exact (List.getElem?_eq_some_iff.mp found).1

/-- Another call begins. -/
theorem Accounted.begun (held : Accounted w) (command : ControlCommand sc) {phase : SubmitPhase}
    (begins : phase = .returned false ∨ phase = .accepting ∨ phase = .reserving) :
    Accounted { w with submissions := w.submissions ++ [⟨command,phase,w.returnedCalls⟩] } := by
  let w' : Worker sc := { w with submissions := w.submissions ++ [⟨command,phase,w.returnedCalls⟩] }
  have old {j : Nat} {other : Submission sc} (at_j : w.submissions[j]? = some other) : w'.submissions[j]? = some other := by
    show (w.submissions ++ _)[j]? = _
    rw [List.getElem?_append_left (List.getElem?_eq_some_iff.mp at_j).1]
    exact at_j
  have split {j : Nat} {other : Submission sc} (at_j : w'.submissions[j]? = some other) :
      w.submissions[j]? = some other ∨ (j = w.submissions.length ∧ other = ⟨command,phase,w.returnedCalls⟩) := by
    have at_j : (w.submissions ++ [⟨command,phase,w.returnedCalls⟩])[j]? = some other := at_j
    rcases Nat.lt_trichotomy j w.submissions.length with before | here | after
    · left
      rwa [List.getElem?_append_left before] at at_j
    · right
      subst here
      simp at at_j
      exact ⟨rfl,at_j.symm⟩
    · have bound := (List.getElem?_eq_some_iff.mp at_j).1
      simp at bound
      omega
  have carried {j : Nat} {known : ControlCommand sc} (at_j : w.submissions[j]?.map Submission.command = some known) :
      w'.submissions[j]?.map Submission.command = some known := by
    obtain ⟨other,found,rfl⟩ := Option.map_eq_some_iff.mp at_j
    rw [old found]
    rfl
  constructor
  · exact held.entered
  · exact held.distinct
  · intro kind i member
    obtain ⟨submission,found,rest⟩ := held.placed kind i member
    exact ⟨submission,old found,rest⟩
  · intro kind delivery member
    exact carried (held.carried kind delivery member)
  · intro sent member
    obtain ⟨known,found,ack⟩ := held.named sent member
    exact ⟨known,carried found,ack⟩
  · exact held.senders
  · intro i submission found
    rcases split found with found | ⟨rfl,rfl⟩
    · exact held.standing i submission found
    · show Standing (w.statuses _) (w.Waits _) (w.Answered _) phase
      rw [held.statuses_fresh (Nat.le_refl _)]
      rcases begins with rfl | rfl | rfl
      · refine Or.inr (Or.inr ⟨?_,?_,Or.inl rfl⟩)
        · rintro ⟨kind,member⟩
          exact Nat.lt_irrefl _ (held.entered_known (held.in_entered.mpr (Or.inr member)))
        · rintro ⟨kind,member⟩
          exact Nat.lt_irrefl _ (held.entered_known (held.in_entered.mpr (Or.inl member)))
      · rfl
      · rfl
  · intro i submission found j member
    rcases split found with found | ⟨rfl,rfl⟩
    · obtain ⟨first,other,at_j,done⟩ := held.earlier i submission found j member
      exact ⟨first,other,old at_j,done⟩
    · obtain ⟨other,at_j,done⟩ := mem_returnedCalls member
      exact ⟨(List.getElem?_eq_some_iff.mp at_j).1,other,old at_j,done⟩
  · intro kind
    refine (held.ordered kind).imp_of_mem ?_
    intro a b inside _ apart submission found
    rcases split found with found | ⟨rfl,rfl⟩
    · exact apart submission found
    · exact absurd (held.entered_known inside) (Nat.lt_irrefl _)
  · exact held.results
  · exact held.running

theorem Accounted.beginSubmit (held : Accounted w) {command : ControlCommand sc} (stepped : w.beginSubmit command = some w') :
    Accounted w' := by
  unfold Worker.beginSubmit at stepped
  split at stepped
  · cases stepped
  · cases stepped
    refine held.begun command ?_
    split
    · exact Or.inl rfl
    · cases laneOf command with
      | refresh => exact Or.inr (Or.inl rfl)
      | regular => exact Or.inr (Or.inr rfl)

/-- A call moves on without sending anything. -/
theorem Accounted.goes (held : Accounted w) (found : w.submissions[i]? = some submission)
    (active : submission.phase.isReturned = false) {phase : SubmitPhase} (standing : Standing (w.statuses i) False False phase) :
    Accounted (w.moveSubmission i phase) := by
  refine held.submitted found active w (SameLanes.refl w) rfl [] (by simp) (by simp) ⟨rfl,rfl⟩ ?_
  rw [List.map_nil,List.append_nil]
  exact standing

/-- A call sends an acknowledgement of its own. -/
theorem Accounted.sends (held : Accounted w) (found : w.submissions[i]? = some submission)
    (active : submission.phase.isReturned = false) {result : TerminalResult}
    (sent : w.send i none (protoAck submission.command result) = some (.ok w')) {phase : SubmitPhase}
    (standing : Standing (w.statuses i ++ [result.status]) False False phase) : Accounted (w'.moveSubmission i phase) := by
  rw [send_ok sent]
  let sent' : Sent := ⟨i,none,protoAck submission.command result⟩
  refine held.submitted found active (w.put sent') (SameLanes.refl w) rfl [sent'] rfl ?_ ⟨rfl,rfl⟩ standing
  intro one member
  rw [List.mem_singleton] at member
  subst member
  exact ⟨rfl,rfl,rfl⟩

theorem Accounted.advanceSubmit (held : Accounted w) (stepped : w.advanceSubmit i = some w') : Accounted w' := by
  unfold Worker.advanceSubmit at stepped
  split at stepped
  · cases stepped
  next submission found =>
  have standing := held.standing i submission found
  simp only at stepped
  cases at_phase : submission.phase with
  | reserving =>
    have active : submission.phase.isReturned = false := by rw [at_phase]; rfl
    rw [at_phase] at stepped standing
    have none : w.statuses i = [] := standing
    simp only at stepped
    split at stepped
    · cases stepped
      exact held.goes found active (Or.inr (Or.inr ⟨not_false,not_false,Or.inl none⟩))
    · split at stepped
      · cases stepped
        let lane := w.lanes (laneOf submission.command)
        have kept : Accounted (w.setLane (laneOf submission.command) { lane with reserved := lane.reserved + 1 }) := by
          refine held.relaned ?_ rfl rfl (fun active open' => ⟨active,open'⟩)
          intro k
          by_cases here : k = laneOf submission.command
          · subst here
            simp [Worker.setLane,lane]
          · simp [Worker.setLane,here]
        exact kept.goes found active none
      · cases stepped
  | accepting =>
    have active : submission.phase.isReturned = false := by rw [at_phase]; rfl
    rw [at_phase] at stepped standing
    have none : w.statuses i = [] := standing
    simp only at stepped
    split at stepped
    · cases stepped
    · cases stepped
      have kept := held.unreserved (laneOf submission.command)
      have found' : (w.unreserve (laneOf submission.command)).submissions[i]? = some submission := by
        cases laneOf submission.command <;> exact found
      have statuses : (w.unreserve (laneOf submission.command)).statuses i = [] := by
        cases laneOf submission.command <;> exact none
      exact kept.goes found' active (Or.inr (Or.inr ⟨not_false,not_false,Or.inl statuses⟩))
    · next sent =>
      have accepted : w.statuses i ++ [AckStatus.accepted] = [.accepted] := by rw [none]; rfl
      split at stepped
      · cases stepped
        exact held.sends found active sent accepted
      · cases stepped
        exact held.sends found active sent accepted
  | placing =>
    have active : submission.phase.isReturned = false := by rw [at_phase]; rfl
    rw [at_phase] at stepped standing
    have accepted : w.statuses i = [.accepted] := standing
    cases stepped
    have kept := held.unreserved (laneOf submission.command)
    have found' : (w.unreserve (laneOf submission.command)).submissions[i]? = some submission := by
      cases laneOf submission.command <;> exact found
    have accepted' : (w.unreserve (laneOf submission.command)).statuses i = [.accepted] := by
      cases laneOf submission.command <;> exact accepted
    exact kept.enqueued found' active accepted'
  | offering =>
    have active : submission.phase.isReturned = false := by rw [at_phase]; rfl
    rw [at_phase] at stepped standing
    have accepted : w.statuses i = [.accepted] := standing
    simp only at stepped
    split at stepped
    · cases stepped
      exact held.goes found active accepted
    · split at stepped
      · cases stepped
        exact held.enqueued found active accepted
      · cases stepped
        exact held.goes found active accepted
  | refusing message =>
    have active : submission.phase.isReturned = false := by rw [at_phase]; rfl
    rw [at_phase] at stepped standing
    have accepted : w.statuses i = [.accepted] := standing
    simp only at stepped
    split at stepped
    · cases stepped
    · cases stepped
      exact held.goes found active (Or.inr (Or.inr ⟨not_false,not_false,Or.inr accepted⟩))
    · next sent =>
      cases stepped
      refine held.sends found active sent (Or.inr (Or.inr ⟨not_false,not_false,?_⟩))
      rw [accepted]
      rfl
  | returned ok =>
    rw [at_phase] at stepped
    cases stepped

theorem Accounted.abandonSubmit (held : Accounted w) (stepped : w.abandonSubmit i = some w') : Accounted w' := by
  unfold Worker.abandonSubmit at stepped
  split at stepped
  · cases stepped
  next submission found =>
  have standing := held.standing i submission found
  cases at_phase : submission.phase with
  | reserving =>
    have active : submission.phase.isReturned = false := by rw [at_phase]; rfl
    rw [at_phase] at stepped standing
    cases stepped
    exact held.goes found active (Or.inr (Or.inr ⟨not_false,not_false,Or.inl standing⟩))
  | accepting =>
    have active : submission.phase.isReturned = false := by rw [at_phase]; rfl
    rw [at_phase] at stepped standing
    cases stepped
    have kept := held.unreserved (laneOf submission.command)
    have found' : (w.unreserve (laneOf submission.command)).submissions[i]? = some submission := by
      cases laneOf submission.command <;> exact found
    have statuses : (w.unreserve (laneOf submission.command)).statuses i = [] := by
      cases laneOf submission.command <;> exact standing
    exact kept.goes found' active (Or.inr (Or.inr ⟨not_false,not_false,Or.inl statuses⟩))
  | refusing message =>
    have active : submission.phase.isReturned = false := by rw [at_phase]; rfl
    rw [at_phase] at stepped standing
    cases stepped
    exact held.goes found active (Or.inr (Or.inr ⟨not_false,not_false,Or.inr standing⟩))
  | placing =>
    rw [at_phase] at stepped
    cases stepped
  | offering =>
    rw [at_phase] at stepped
    cases stepped
  | returned ok =>
    rw [at_phase] at stepped
    cases stepped

/-! ### Steps of a lane -/

theorem setLane_self (w : Worker sc) (kind : LaneKind) (lane : Lane sc) : (w.setLane kind lane).lanes kind = lane := by
  simp [Worker.setLane]

theorem setLane_other (w : Worker sc) {kind k : LaneKind} (apart : k ≠ kind) (lane : Lane sc) :
    (w.setLane kind lane).lanes k = w.lanes k := by
  simp [Worker.setLane,apart]

/-- A lane goes on with the same commands before it. -/
theorem Accounted.moved (held : Accounted w) {lane : Lane sc} (same : lane.held = (w.lanes kind).held)
    (entered : lane.entered = (w.lanes kind).entered) (results : ∀ result, lane.phase.result = some result → result.status ≠ .accepted)
    (running : w.cancelled = false → w.closed = false → lane.phase.quitting = false) :
    Accounted (w.setLane kind lane) := by
  have helds (k : LaneKind) : ((w.setLane kind lane).lanes k).held = (w.lanes k).held := by
    by_cases here : k = kind
    · subst here
      rw [setLane_self]
      exact same
    · rw [setLane_other w here]
  have entereds (k : LaneKind) : ((w.setLane kind lane).lanes k).entered = (w.lanes k).entered := by
    by_cases here : k = kind
    · subst here
      rw [setLane_self]
      exact entered
    · rw [setLane_other w here]
  have pending (k : LaneKind) : ((w.setLane kind lane).lanes k).pending = (w.lanes k).pending := by
    unfold Lane.pending
    rw [helds]
  constructor
  · intro k
    rw [entereds,pending]
    exact held.entered k
  · intro k
    rw [entereds]
    exact held.distinct k
  · intro k i member
    exact held.placed k i (by rwa [← entereds])
  · intro k delivery member
    exact held.carried k delivery (by rwa [← helds])
  · exact held.named
  · exact held.senders
  · intro i submission found
    have waits : (w.setLane kind lane).Waits i ↔ w.Waits i := by
      unfold Worker.Waits
      simp only [pending]
    rw [propext waits]
    exact held.standing i submission found
  · exact held.earlier
  · intro k
    rw [entereds]
    exact held.ordered k
  · intro k result found
    by_cases here : k = kind
    · subst here
      rw [setLane_self] at found
      exact results result found
    · rw [setLane_other w here] at found
      exact held.results k result found
  · intro active open' k
    by_cases here : k = kind
    · subst here
      rw [setLane_self]
      exact running active open'
    · rw [setLane_other w here]
      exact held.running active open' k

/-- A command is before one lane only, and not both before it and behind it. -/
theorem Accounted.waits_once (held : Accounted w) (waits : i ∈ (w.lanes kind).pending) : ¬ w.Answered i := by
  rintro ⟨k,member⟩
  obtain ⟨submission,found,-,lane⟩ := held.placed kind i (held.in_entered.mpr (Or.inr waits))
  obtain ⟨submission',found',-,lane'⟩ := held.placed k i (held.in_entered.mpr (Or.inl member))
  rw [found] at found'
  cases found'
  rw [lane] at lane'
  subst lane'
  have distinct := held.distinct kind
  rw [held.entered kind,List.nodup_append] at distinct
  exact distinct.2.2 i member i waits rfl

/-- A lane acknowledges the command it has in hand. -/
theorem Accounted.replied (held : Accounted w) {delivery : Delivery sc} {result : TerminalResult}
    (busy : (w.lanes kind).phase = .replying delivery result) :
    Accounted ((w.put ⟨delivery.submission,some kind,protoAck delivery.command result⟩).setPhase kind .idle) := by
  let sent : Sent := ⟨delivery.submission,some kind,protoAck delivery.command result⟩
  let w' : Worker sc := (w.put sent).setPhase kind .idle
  let d := delivery.submission
  have others {k : LaneKind} (apart : k ≠ kind) : w'.lanes k = w.lanes k := setLane_other _ apart _
  have was : (w.lanes kind).held = delivery :: (w'.lanes kind).held := by
    show _ = delivery :: (Worker.lanes (Worker.setLane _ kind _) kind).held
    rw [setLane_self]
    simp [Lane.held,busy,LanePhase.delivery,Worker.put]
  have entered (k : LaneKind) : (w'.lanes k).entered = (w.lanes k).entered := by
    by_cases here : k = kind
    · subst here
      show (Worker.lanes (Worker.setLane _ k _) k).entered = _
      rw [setLane_self]
      rfl
    · rw [others here]
  have pending : (w.lanes kind).pending = d :: (w'.lanes kind).pending := by
    unfold Lane.pending
    rw [was]
    rfl
  have member_held {k : LaneKind} {other : Delivery sc} (member : other ∈ (w'.lanes k).held) : other ∈ (w.lanes k).held := by
    by_cases here : k = kind
    · subst here
      rw [was]
      exact List.mem_cons_of_mem _ member
    · rwa [others here] at member
  have terminals (k : LaneKind) : w'.terminals k = w.terminals k ++ if k = kind then [d] else [] := by
    show (((w.output ++ [sent]).filter _).map _) = _
    rw [List.filter_append,List.map_append]
    congr 1
    by_cases here : k = kind
    · simp [sent,here,d]
    · simp [sent,here,Ne.symm here]
  have statuses (j : Nat) : w'.statuses j = w.statuses j ++ if d = j then [result.status] else [] := by
    show (((w.output ++ [sent]).filter _).map _) = _
    rw [List.filter_append,List.map_append]
    congr 1
    by_cases here : d = j
    · simp [sent,here,d,protoAck]
    · simp [sent,here,d]
  have here_waits : d ∈ (w.lanes kind).pending := by
    rw [pending]
    exact List.mem_cons_self
  have terminal : result.status ≠ .accepted := held.results kind result (by rw [busy]; rfl)
  constructor
  · intro k
    rw [entered,held.entered k,terminals]
    by_cases here : k = kind
    · subst here
      rw [if_pos rfl,pending,List.append_assoc]
      rfl
    · rw [if_neg here,others here,List.append_nil]
  · intro k
    rw [entered]
    exact held.distinct k
  · intro k j member
    exact held.placed k j (by rwa [← entered])
  · intro k other member
    exact held.carried k other (member_held member)
  · intro other member
    rcases List.mem_append.mp member with old | new
    · exact held.named other old
    · rw [List.mem_singleton] at new
      subst new
      have known := held.carried kind delivery (by rw [was]; exact List.mem_cons_self)
      exact ⟨delivery.command,known,rfl⟩
  · intro other member lane
    rcases List.mem_append.mp member with old | new
    · exact held.senders other old lane
    · rw [List.mem_singleton] at new
      subst new
      exact terminal
  · intro j submission found
    have found : w.submissions[j]? = some submission := found
    have standing := held.standing j submission found
    show Standing (w'.statuses j) (w'.Waits j) (w'.Answered j) submission.phase
    rw [statuses]
    by_cases here : d = j
    · subst here
      obtain ⟨other,found',done,-⟩ := held.placed kind d (held.in_entered.mpr (Or.inr here_waits))
      rw [found] at found'
      cases found'
      rw [done] at standing ⊢
      have accepted : w.statuses d = [.accepted] := by
        rcases standing with ⟨-,accepted⟩ | ⟨answered,-⟩ | ⟨absent,-⟩
        · exact accepted
        · exact absurd answered (held.waits_once here_waits)
        · exact absurd ⟨kind,here_waits⟩ absent
      refine Or.inr (Or.inl ⟨⟨kind,?_⟩,result.status,terminal,?_⟩)
      · rw [terminals,if_pos rfl]
        exact List.mem_append_right _ (List.mem_singleton_self _)
      · rw [accepted,if_pos rfl]
        rfl
    · have waits : w'.Waits j ↔ w.Waits j := by
        constructor
        · rintro ⟨k,member⟩
          obtain ⟨other,inside,rfl⟩ := List.mem_map.mp member
          exact ⟨k,List.mem_map_of_mem (member_held inside)⟩
        · rintro ⟨k,member⟩
          refine ⟨k,?_⟩
          by_cases same : k = kind
          · subst same
            rw [pending] at member
            exact (List.mem_cons.mp member).resolve_left (Ne.symm here)
          · rwa [others same]
      have answered : w'.Answered j ↔ w.Answered j := by
        unfold Worker.Answered
        simp only [terminals,List.mem_append]
        refine exists_congr (fun k => or_iff_left ?_)
        intro new
        split at new
        · exact here (List.mem_singleton.mp new).symm
        · cases new
      rw [if_neg here,List.append_nil,propext waits,propext answered]
      exact standing
  · exact held.earlier
  · intro k
    rw [entered]
    exact held.ordered k
  · intro k result' found
    by_cases same : k = kind
    · subst same
      have idle : (w'.lanes k).phase = .idle := by
        show (Worker.lanes (Worker.setLane _ k _) k).phase = _
        rw [setLane_self]
      rw [idle] at found
      cases found
    · rw [others same] at found
      exact held.results k result' found
  · intro active open' k
    by_cases same : k = kind
    · subst same
      show (Worker.lanes (Worker.setLane _ k _) k).phase.quitting = false
      rw [setLane_self]
      rfl
    · rw [others same]
      exact held.running active open' k

/-- A lane goes on with the command it has in hand. -/
theorem Accounted.phase (held : Accounted w) {phase : LanePhase sc} (same : phase.delivery = (w.lanes kind).phase.delivery)
    (results : ∀ result, phase.result = some result → result.status ≠ .accepted)
    (running : w.cancelled = false → w.closed = false → phase.quitting = false) :
    Accounted (w.setPhase kind phase) := by
  refine held.moved ?_ rfl results running
  unfold Lane.held
  rw [same]

end Accounting

end NodeAgent.Control
