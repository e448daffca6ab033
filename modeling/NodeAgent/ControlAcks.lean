import NodeAgent.WorkerAccounts
import NodeAgent.CommandConvergence

/-!
What a worker puts on its output. Every command gets `Accepted` before anything else and at
most one terminal acknowledgement, the terminals of a lane follow the order of its queue, and
nothing that a lane has finished goes without its terminal while the session lasts.
-/
namespace NodeAgent.Control
open NodeAgent.Topology NodeAgent.FifoCache NodeAgent.KeyedGates NodeAgent.Transition

variable {sc : Sections}

/-! ### Steps of all workers -/

/-- Every worker is accounted for, and no acknowledgement in the store is `Accepted`. -/
structure AllAccounted (s : Workers sc) : Prop where
  workers : ∀ i, Accounted (s.workers i)
  cached : ∀ (key : String) (ack : Ack), s.store.cache.seen[key]? = some ack → ack.status ≠ .accepted

section Steps
variable {s s' : Workers sc} {l : LaneId}

theorem AllAccounted.setWorker (held : AllAccounted s) {i : Nat} {w : Worker sc} (accounted : Accounted w) :
    AllAccounted (s.setWorker i w) := by
  refine ⟨?_,held.cached⟩
  intro j
  show Accounted (Function.update s.workers i w j)
  by_cases here : j = i
  · subst here
    rw [Function.update_self]
    exact accounted
  · rw [Function.update_of_ne here]
    exact held.workers j

theorem AllAccounted.goTo (held : AllAccounted s) {phase : LanePhase sc} (same : phase.delivery = (s.lane l).phase.delivery)
    (results : ∀ result, phase.result = some result → result.status ≠ .accepted)
    (running : (s.workers l.worker).cancelled = false → (s.workers l.worker).closed = false → phase.quitting = false) :
    AllAccounted (s.goTo l phase) :=
  held.setWorker ((held.workers l.worker).phase same results running)

theorem AllAccounted.record (held : AllAccounted s) (entries : List (Entry sc)) : AllAccounted (s.record entries) :=
  ⟨held.workers,held.cached⟩

theorem AllAccounted.stored (held : AllAccounted s) (store : AckStore LaneId)
    (cached : ∀ (key : String) (ack : Ack), store.cache.seen[key]? = some ack → ack.status ≠ .accepted) :
    AllAccounted { s with store := store } :=
  ⟨held.workers,cached⟩

/-- Dropping the permit keeps what comes next. -/
theorem dropExecution_delivery (gate : Option Nat) (next : Next sc) : (dropExecution gate next).delivery = some next.delivery := by
  cases gate <;> cases next <;> rfl

theorem dropExecution_result (gate : Option Nat) (next : Next sc) : (dropExecution gate next).result = next.result := by
  cases gate <;> cases next <;> rfl

theorem dropExecution_quitting (gate : Option Nat) (next : Next sc) : (dropExecution gate next).quitting = next.result.isNone := by
  cases gate <;> cases next <;> rfl

theorem Next.phase_delivery (next : Next sc) : next.phase.delivery = some next.delivery := by cases next <;> rfl

theorem Next.phase_result (next : Next sc) : next.phase.result = next.result := by cases next <;> rfl

theorem Next.phase_quitting (next : Next sc) : next.phase.quitting = next.result.isNone := by cases next <;> rfl

theorem joined_result (joined : Joined) : joined.result.status ≠ .accepted := by
  cases joined with
  | finished result =>
    show (if result.status = .accepted then _ else result).status ≠ _
    split
    · nofun
    · assumption
  | panicked payload => nofun
  | failed error => nofun

theorem AllAccounted.lane (held : AllAccounted s) (move : LaneMove s l s') : AllAccounted s' := by
  have over_not {P : Prop} (ended : (s.workers l.worker).isOver) : (s.workers l.worker).cancelled = false →
      (s.workers l.worker).closed = false → P := by
    intro active open'
    rcases ended with cancelled | closed
    · rw [active] at cancelled
      cases cancelled
    · rw [open'] at closed
      cases closed
  have worker := held.workers l.worker
  cases move with
  | halts at_phase => exact held.goTo (by rw [at_phase]; rfl) nofun (fun _ _ => rfl)
  | takes at_phase queued =>
    refine held.setWorker (worker.moved ?_ rfl nofun (fun _ _ => rfl))
    show _ = (s.lane l).held
    unfold Lane.held
    rw [at_phase,queued]
    rfl
  | quits at_phase ended => exact held.goTo (by rw [at_phase]; rfl) nofun (over_not ended)
  | passes at_phase _ => exact held.goTo (by rw [at_phase]; rfl) nofun (fun _ _ => rfl)
  | @enters delivery at_phase _ =>
    have stored := held.stored (s.store.executionGate delivery.key l).2 held.cached
    refine stored.goTo ?_ nofun (fun _ _ => rfl)
    show _ = (s.lane l).phase.delivery
    rw [at_phase]
    rfl
  | leaves at_phase ended => exact held.goTo (by rw [at_phase]; rfl) nofun (over_not ended)
  | @locks delivery gate gates at_phase _ =>
    have stored := held.stored { s.store with gates := gates } held.cached
    refine stored.goTo ?_ nofun (fun _ _ => rfl)
    show _ = (s.lane l).phase.delivery
    rw [at_phase]
    rfl
  | drops at_phase ended =>
    refine held.goTo ?_ ?_ (over_not ended)
    · rw [at_phase,dropExecution_delivery]
      rfl
    · rw [dropExecution_result]
      nofun
  | replays at_phase _ cached =>
    refine (held.goTo ?_ ?_ (fun _ _ => ?_)).record _
    · rw [at_phase,dropExecution_delivery]
      rfl
    · rw [dropExecution_result]
      rintro result found
      cases found
      exact held.cached _ _ cached
    · rw [dropExecution_quitting]
      rfl
  | starts at_phase _ =>
    refine (held.goTo ?_ ?_ (fun _ _ => rfl)).record _
    · rw [at_phase]
      rfl
    · nofun
  | joins at_phase =>
    refine held.goTo (by rw [at_phase]; rfl) ?_ (fun _ _ => rfl)
    rintro result found
    cases found
    exact joined_result _
  | @completes delivery gate result at_phase =>
    have terminal : result.status ≠ .accepted :=
      worker.results l.kind result (by rw [show (s.workers l.worker).lanes l.kind = s.lane l from rfl,at_phase]; rfl)
    obtain ⟨same,stored⟩ := completeExecution_cases s delivery result
    have stored : AllAccounted { s with store := (s.completeExecution delivery result).2.1 } := by
      refine held.stored _ ?_
      rcases stored with ⟨-,unchanged⟩ | ⟨-,-,-,added⟩
      · rw [unchanged]
        exact held.cached
      · rw [added]
        intro key ack found
        rcases lookup_add found with ⟨-,rfl⟩ | old
        · exact terminal
        · exact held.cached key ack old
    refine (stored.goTo ?_ ?_ (fun _ _ => ?_)).record _
    · show _ = (s.lane l).phase.delivery
      rw [at_phase,dropExecution_delivery]
      rfl
    · rw [dropExecution_result,same]
      rintro result' found
      cases found
      exact terminal
    · rw [dropExecution_quitting]
      rfl
  | @unlocks gate next at_phase =>
    have stored := held.stored { s.store with gates := s.store.gates.unlock gate } held.cached
    refine stored.goTo ?_ ?_ ?_
    · show _ = (s.lane l).phase.delivery
      rw [at_phase]
      rfl
    · intro result found
      exact worker.results l.kind result (by rw [show (s.workers l.worker).lanes l.kind = s.lane l from rfl,at_phase]; exact found)
    · intro active open'
      have running := worker.running active open' l.kind
      rwa [show (s.workers l.worker).lanes l.kind = s.lane l from rfl,at_phase] at running
  | @releases gate next at_phase =>
    have stored := held.stored { s.store with gates := s.store.gates.release gate l } held.cached
    refine stored.goTo ?_ ?_ ?_
    · show _ = (s.lane l).phase.delivery
      rw [at_phase,Next.phase_delivery]
      rfl
    · intro result found
      rw [Next.phase_result] at found
      exact worker.results l.kind result (by rw [show (s.workers l.worker).lanes l.kind = s.lane l from rfl,at_phase]; exact found)
    · intro active open'
      have running := worker.running active open' l.kind
      rw [Next.phase_quitting]
      rwa [show (s.workers l.worker).lanes l.kind = s.lane l from rfl,at_phase] at running
  | gives at_phase ended => exact held.goTo (by rw [at_phase]; rfl) nofun (over_not ended)
  | replies at_phase => exact (held.setWorker (worker.replied at_phase)).record _

theorem AllAccounted.step (held : AllAccounted s) {e : WorkerEvent sc} (stepped : s.step e = some s') : AllAccounted s' := by
  cases e with
  | submit i command =>
    obtain ⟨w,begun,rfl⟩ := Option.map_eq_some_iff.mp stepped
    exact held.setWorker ((held.workers i).beginSubmit begun)
  | advanceSubmit i submission =>
    obtain ⟨w,advanced,rfl⟩ := Option.map_eq_some_iff.mp stepped
    exact held.setWorker ((held.workers i).advanceSubmit advanced)
  | abandonSubmit i submission =>
    obtain ⟨w,abandoned,rfl⟩ := Option.map_eq_some_iff.mp stepped
    exact held.setWorker ((held.workers i).abandonSubmit abandoned)
  | advanceLane l joined => exact held.lane (advanceLane_moves stepped)
  | destroy gate =>
    obtain ⟨gates,-,rfl⟩ := Option.map_eq_some_iff.mp stepped
    exact ⟨held.workers,held.cached⟩
  | cancel i =>
    cases stepped
    exact held.setWorker ((held.workers i).relaned (SameLanes.refl _) rfl rfl (fun active _ => by cases active))
  | read i =>
    simp only [Workers.step] at stepped
    split at stepped
    · cases stepped
    · cases stepped
      exact held.setWorker ((held.workers i).relaned (SameLanes.refl _) rfl rfl (fun active open' => ⟨active,open'⟩))
  | closeOutput i =>
    cases stepped
    exact held.setWorker ((held.workers i).relaned (SameLanes.refl _) rfl rfl (fun _ open' => by cases open'))
  | hangUp i =>
    simp only [Workers.step] at stepped
    split at stepped
    · cases stepped
      exact held.setWorker ((held.workers i).relaned (SameLanes.refl _) rfl rfl (fun active open' => ⟨active,open'⟩))
    · cases stepped

theorem run_accounted {capacity : Nat} {capacities : Nat → LaneKind → Nat} {events : List (WorkerEvent sc)}
    (run : Run Workers.step (Workers.start capacity capacities) events s) : AllAccounted s := by
  refine run.invariant (I := AllAccounted) ?_ (fun _ _ _ held stepped => held.step stepped)
  refine ⟨fun i => accounted_spawn (capacities i),?_⟩
  intro key ack found
  simp [Workers.start,AckStore.withCapacity,Cache.empty] at found

end Steps

/-! ### The protocol -/

section Protocol
variable {w : Worker sc} {i j : Nat} {submission : Submission sc} {kind : LaneKind}

/-- The statuses of a call, whether it has begun or not. -/
theorem Accounted.protocol (held : Accounted w) (i : Nat) :
    w.statuses i = [] ∨ w.statuses i = [.accepted] ∨ ∃ status, status ≠ .accepted ∧ w.statuses i = [.accepted,status] := by
  cases found : w.submissions[i]? with
  | none => exact Or.inl (held.statuses_fresh (List.getElem?_eq_none_iff.mp found))
  | some submission =>
    have standing := held.standing i submission found
    cases at_phase : submission.phase with
    | returned ok =>
      rw [at_phase] at standing
      rcases standing with ⟨-,accepted⟩ | ⟨-,answered⟩ | ⟨-,-,never⟩
      · exact Or.inr (Or.inl accepted)
      · exact Or.inr (Or.inr answered)
      · cases ok with
        | true => exact Or.inr (Or.inr ⟨.failed,nofun,never⟩)
        | false =>
          rcases never with none | accepted
          · exact Or.inl none
          · exact Or.inr (Or.inl accepted)
    | reserving =>
      rw [at_phase] at standing
      exact Or.inl standing
    | accepting =>
      rw [at_phase] at standing
      exact Or.inl standing
    | placing =>
      rw [at_phase] at standing
      exact Or.inr (Or.inl standing)
    | offering =>
      rw [at_phase] at standing
      exact Or.inr (Or.inl standing)
    | refusing message =>
      rw [at_phase] at standing
      exact Or.inr (Or.inl standing)

/-- A command whose call had returned when another began is acknowledged first by their lane. -/
theorem Accounted.in_order (held : Accounted w) (found : w.submissions[j]? = some submission) (before : i ∈ submission.before)
    (entered : i ∈ (w.lanes kind).entered) (answered : j ∈ w.terminals kind) : [i,j].Sublist (w.terminals kind) := by
  have first : i < j := (held.earlier j submission found i before).1
  have ordered := held.ordered kind
  rw [held.entered kind,List.pairwise_append] at ordered
  obtain ⟨terminals,-,later⟩ := ordered
  rcases held.in_entered.mp entered with done | pending
  · obtain ⟨front,back,split⟩ := List.append_of_mem done
    rw [split] at answered terminals ⊢
    rcases List.mem_append.mp answered with inFront | inRest
    · have apart := (List.pairwise_append.mp terminals).2.2 j inFront i List.mem_cons_self submission found
      exact absurd before apart
    · rcases List.mem_cons.mp inRest with same | inBack
      · omega
      · exact ((List.singleton_sublist.mpr inBack).cons_cons i).trans (List.sublist_append_right front _)
  · exact absurd before (later j answered i pending submission found)

/-- A command that has been through its lane has its terminal acknowledgement. -/
theorem Accounted.finished (held : Accounted w) (entered : i ∈ (w.lanes kind).entered) (through : i ∉ (w.lanes kind).pending) :
    ∃ status, status ≠ .accepted ∧ w.statuses i = [.accepted,status] := by
  obtain ⟨submission,found,returned,-⟩ := held.placed kind i entered
  have answered : i ∈ w.terminals kind := (held.in_entered.mp entered).resolve_right through
  have standing := held.standing i submission found
  rw [returned] at standing
  rcases standing with ⟨⟨k,waits⟩,-⟩ | ⟨-,terminal⟩ | ⟨-,absent,-⟩
  · exact absurd ⟨kind,answered⟩ (held.waits_once waits)
  · exact terminal
  · exact absurd ⟨kind,answered⟩ absent

/-- A call that has returned without an error has passed its command to a lane, or has refused it. -/
theorem Accounted.delivered (held : Accounted w) (found : w.submissions[i]? = some submission)
    (returned : submission.phase = .returned true) :
    (∃ kind, i ∈ (w.lanes kind).entered) ∨ w.statuses i = [.accepted,.failed] := by
  have standing := held.standing i submission found
  rw [returned] at standing
  rcases standing with ⟨⟨kind,waits⟩,-⟩ | ⟨⟨kind,answered⟩,-⟩ | ⟨-,-,refused⟩
  · exact Or.inl ⟨kind,held.in_entered.mpr (Or.inr waits)⟩
  · exact Or.inl ⟨kind,held.in_entered.mpr (Or.inl answered)⟩
  · exact Or.inr refused

end Protocol

/-- In every interleaving each call of `submit` is acknowledged with nothing, with `Accepted`, or with `Accepted` and one
    terminal status. What a lane acknowledges is terminal, comes in the order in which the commands entered the queue, and so
    in the order of calls that came one after the other. A command that has been through its lane has its terminal status, a
    call that returned without an error has passed its command to a lane or has refused it with a terminal status, and while the session is neither cancelled nor cut off from its output no lane breaks a command off. -/
theorem control_acks_follow_protocol {capacity : Nat} {capacities : Nat → LaneKind → Nat} {events : List (WorkerEvent sc)}
    {s : Workers sc} (run : Run Workers.step (Workers.start capacity capacities) events s) (worker : Nat) :
    (∀ i, (s.workers worker).statuses i = [] ∨ (s.workers worker).statuses i = [.accepted] ∨
      ∃ status, status ≠ .accepted ∧ (s.workers worker).statuses i = [.accepted,status]) ∧
    (∀ sent ∈ (s.workers worker).output, sent.lane ≠ none → sent.ack.status ≠ .accepted) ∧
    (∀ kind, (s.workers worker).terminals kind <+: ((s.workers worker).lanes kind).entered) ∧
    (∀ kind i j submission, (s.workers worker).submissions[j]? = some submission → i ∈ submission.before →
      i ∈ ((s.workers worker).lanes kind).entered → j ∈ (s.workers worker).terminals kind →
      [i,j].Sublist ((s.workers worker).terminals kind)) ∧
    (∀ kind i, i ∈ ((s.workers worker).lanes kind).entered → i ∉ ((s.workers worker).lanes kind).pending →
      ∃ status, status ≠ .accepted ∧ (s.workers worker).statuses i = [.accepted,status]) ∧
    (∀ (i : Nat) (submission : Submission sc), (s.workers worker).submissions[i]? = some submission →
      submission.phase = .returned true →
      (∃ kind, i ∈ ((s.workers worker).lanes kind).entered) ∨ (s.workers worker).statuses i = [.accepted,.failed]) ∧
    ((s.workers worker).cancelled = false → (s.workers worker).closed = false →
      ∀ kind, ((s.workers worker).lanes kind).phase.quitting = false) := by
  have held := (run_accounted run).workers worker
  refine ⟨held.protocol,held.senders,?_,?_,?_,?_,held.running⟩
  · intro kind
    rw [held.entered kind]
    exact List.prefix_append _ _
  · intro kind i j submission found before entered answered
    exact held.in_order found before entered answered
  · intro kind i entered through
    exact held.finished entered through
  · intro i submission found returned
    exact held.delivered found returned

/-- A route patch, submitted to a worker and executed by its regular lane. -/
def patchExecuted : List (WorkerEvent finalTags) :=
  .submit 0 patchFromFive :: List.replicate 3 (.advanceSubmit 0 0) ++
    List.replicate 9 (.advanceLane ⟨0,.regular⟩ (.finished ⟨.applied,"done"⟩))

/-- The workers after these steps. -/
def afterPatch : Workers finalTags :=
  (follow Workers.step (Workers.start 1 (fun _ _ => 1)) patchExecuted).getD (Workers.start 1 (fun _ _ => 1))

theorem patch_acknowledged_once : (afterPatch.workers 0).statuses 0 = [.accepted,.applied] ∧
    ∃ status, status ≠ .accepted ∧ (afterPatch.workers 0).statuses 0 = [.accepted,status] := by
  have followed : (follow Workers.step (Workers.start 1 (fun _ _ => 1)) patchExecuted).isSome = true := by decide
  have run : Run Workers.step (Workers.start 1 (fun _ _ => 1)) patchExecuted afterPatch := by
    refine Run.of_follow ?_
    obtain ⟨s,reached⟩ := Option.isSome_iff_exists.mp followed
    unfold afterPatch
    rw [reached]
    rfl
  obtain ⟨-,-,-,-,finished,-,-⟩ := control_acks_follow_protocol run 0
  exact ⟨by decide,finished .regular 0 (by decide) (by decide)⟩

end NodeAgent.Control
