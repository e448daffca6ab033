import NodeAgent.PanelSessions
import NodeAgent.UserListing

/-!
The streams of one panel session. Each is a task of its own: an auxiliary stream reconnects by
itself, a critical one ends the session with its own end. The session waits for all of them, tells
the others to stop once one has failed for good, and gives up on those that do not stop in time.
Tasks, the owner and the clock take steps in any order.
-/
namespace NodeAgent.StreamGroups
open NodeAgent.Backoff NodeAgent.Transition
open NodeAgent.PanelSessions (SHUTDOWN_GRACE_PERIOD)
open NodeAgent.UserListing (Code)

inductive SessionError
  | invalidConfig (message : String)
  | readCa (path source : String)
  | invalidCa (path message : String)
  | transport (error : String)
  | rpc (code : Code) (message : String)
  | timeout (operation : String) (duration : ℕ)
  | authentication (message : String)
  | metadata (message : String)
  | controlRegistration (message : String)
  | controlStreamClosed
  | criticalStreamEnded (name : String)
  | stream (name : String) (source : SessionError)
  | task (name message : String)
deriving DecidableEq

def SessionError.isUnauthenticated : SessionError → Bool
  | .rpc code _ => code = .unauthenticated
  | .stream _ source => source.isUnauthenticated
  | _ => false

def taskError (name error : String) : SessionError := .task name error

/-- What the set of tasks gives for a task that is over: its result, or why it has none. -/
inductive Outcome
  | finished (result : Except SessionError Unit)
  | lost (error : String)
deriving DecidableEq

def Outcome.error : Outcome → Option SessionError
  | .finished (.ok _) => none
  | .finished (.error error) => some error
  | .lost error => some (taskError "session stream" error)

inductive Kind
  | auxiliary (backoff : ExponentialBackoff) (history : List Attempt)
  | critical
deriving DecidableEq

inductive Phase
  | top
  | running (startedAt : ℕ)
  | sleeping (since delay : ℕ)
  | ended (outcome : Outcome)
  /-- The owner has taken the outcome. -/
  | joined (outcome : Outcome)
deriving DecidableEq

structure StreamTask where
  name : String
  kind : Kind
  phase : Phase
deriving DecidableEq

/-- Where `wait` stands. A drain has the failure that started it, and the first error it met itself. -/
inductive Owner
  | building
  | waiting
  | draining (failure firstError : Option SessionError) (deadline : ℕ)
  | aborting (failure firstError : Option SessionError)
  | returned (result : Except SessionError Unit)
  | dropped
deriving DecidableEq

/-- Its token is a child of the session's token. Tasks that were joined stay in the list. -/
structure StreamGroup where
  policy : RetryPolicy
  shutdownGrace : ℕ
  parentCancelled : Bool
  cancelled : Bool
  aborted : Bool
  clock : ℕ
  tasks : List StreamTask
  owner : Owner
deriving DecidableEq

def StreamGroup.withPolicy (policy : RetryPolicy) (shutdownGrace : ℕ) : StreamGroup := ⟨policy,shutdownGrace,false,false,false,0,[],.building⟩

def StreamGroup.new : StreamGroup := .withPolicy .default SHUTDOWN_GRACE_PERIOD

def StreamGroup.isCancelled (group : StreamGroup) : Bool := group.parentCancelled || group.cancelled

inductive Action
  | startAuxiliary (name : String)
  | startSessionCritical (name : String)
  | wait
  | cancelParent
  | tick (elapsed : ℕ)
  | look (task : ℕ)
  | runnerReturns (task : ℕ) (result : Except SessionError Unit) (jitter : ℕ)
  | panics (task : ℕ) (message : String)
  | awake (task : ℕ)
  | stopSleeping (task : ℕ)
  | abort (task : ℕ)
  | join (task : ℕ)
  | noticeCancelled
  | giveUp
  | finish
  | drop
deriving DecidableEq

/-! ### The tasks -/

/-- `start_session_critical` after its runner. -/
def criticalResult (name : String) (cancelled : Bool) (result : Except SessionError Unit) : Except SessionError Unit :=
  if cancelled then .ok ()
  else
    match result with
    | .ok _ => .error (.criticalStreamEnded name)
    | .error error => .error (.stream name error)

/-- `run_auxiliary_stream` after its runner. -/
def auxiliaryReturns (group : StreamGroup) (task : StreamTask) (backoff : ExponentialBackoff) (history : List Attempt) (startedAt : ℕ)
    (result : Except SessionError Unit) (jitter : ℕ) : Option StreamTask :=
  match result with
  | .ok _ => some { task with phase := .ended (.finished (.ok ())) }
  | .error error =>
    let elapsed := group.clock - startedAt
    if group.isCancelled then some { task with phase := .ended (.finished (.ok ())) }
    else if error.isUnauthenticated then some { task with phase := .ended (.finished (.error (.stream task.name error))) }
    else if jitter < backoff.failureBound group.policy.stableAfter elapsed ∨ backoff.failureBound group.policy.stableAfter elapsed = 0 then
      let (backoff,delay) := backoff.afterFailure group.policy.stableAfter elapsed jitter
      some { task with kind := .auxiliary backoff (⟨startedAt,group.clock,true⟩ :: history), phase := .sleeping group.clock delay }
    else none

def taskStep (group : StreamGroup) (task : StreamTask) : Action → Option StreamTask
  | .look _ =>
    if task.phase = .top then
      some { task with phase := if task.kind ≠ .critical ∧ group.isCancelled then .ended (.finished (.ok ())) else .running group.clock }
    else none
  | .runnerReturns _ result jitter =>
    match task.phase, task.kind with
    | .running _, .critical => some { task with phase := .ended (.finished (criticalResult task.name group.isCancelled result)) }
    | .running startedAt, .auxiliary backoff history => auxiliaryReturns group task backoff history startedAt result jitter
    | _, _ => none
  | .panics _ message =>
    match task.phase with
    | .running _ => some { task with phase := .ended (.lost message) }
    | _ => none
  | .awake _ =>
    match task.phase with
    | .sleeping since delay => if since + delay ≤ group.clock then some { task with phase := .top } else none
    | _ => none
  | .stopSleeping _ =>
    match task.phase with
    | .sleeping _ _ => if group.isCancelled then some { task with phase := .ended (.finished (.ok ())) } else none
    | _ => none
  | .abort _ =>
    match task.phase with
    | .top | .running _ | .sleeping _ _ => if group.aborted then some { task with phase := .ended (.lost "task was cancelled") } else none
    | _ => none
  | _ => none

/-! ### The owner -/

def StreamTask.isJoined (task : StreamTask) : Bool :=
  match task.phase with
  | .joined _ => true
  | _ => false

/-- Some task has ended and is not joined yet. -/
def StreamGroup.ready (group : StreamGroup) : Bool :=
  group.tasks.any (fun task => match task.phase with | .ended _ => true | _ => false)

def StreamGroup.isEmpty (group : StreamGroup) : Bool := group.tasks.all StreamTask.isJoined

/-- What the owner does with the outcome of a task. -/
def StreamGroup.joinNext (group : StreamGroup) (outcome : Outcome) : Option StreamGroup :=
  match group.owner with
  | .waiting =>
    match outcome.error with
    | none => some group
    | some error => some { group with cancelled := true, owner := .draining (some error) none (group.clock + group.shutdownGrace) }
  | .draining failure firstError deadline => some { group with owner := .draining failure (firstError <|> outcome.error) deadline }
  | .aborting _ _ => some group
  | _ => none

/-- What a drain returns in the end. -/
def drained (failure firstError : Option SessionError) : Except SessionError Unit :=
  match failure <|> firstError with
  | none => .ok ()
  | some error => .error error

def step (group : StreamGroup) (action : Action) : Option StreamGroup :=
  match action with
  | .startAuxiliary name =>
    if group.owner = .building then
      some { group with tasks := group.tasks ++ [⟨name,.auxiliary (.new group.policy.initial group.policy.max) [],.top⟩] }
    else none
  | .startSessionCritical name => if group.owner = .building then some { group with tasks := group.tasks ++ [⟨name,.critical,.top⟩] } else none
  | .wait => if group.owner = .building then some { group with owner := .waiting } else none
  | .cancelParent => some { group with parentCancelled := true }
  | .tick elapsed => some { group with clock := group.clock + elapsed }
  | .look i | .runnerReturns i _ _ | .panics i _ | .awake i | .stopSleeping i | .abort i =>
    (group.tasks[i]?.bind (fun task => taskStep group task action)).map (fun task => { group with tasks := group.tasks.set i task })
  | .join i =>
    group.tasks[i]?.bind (fun task =>
      match task.phase with
      | .ended outcome => { group with tasks := group.tasks.set i { task with phase := .joined outcome } }.joinNext outcome
      | _ => none)
  | .noticeCancelled =>
    if group.owner = .waiting ∧ group.isCancelled ∧ group.isEmpty = false ∧ group.ready = false then
      some { group with owner := .draining none none (group.clock + group.shutdownGrace) }
    else none
  | .giveUp =>
    match group.owner with
    | .draining failure firstError deadline =>
      if deadline ≤ group.clock ∧ group.isEmpty = false ∧ group.ready = false then
        some { group with aborted := true, owner := .aborting failure firstError }
      else none
    | _ => none
  /- The group is dropped when `wait` returns, which cancels its token. -/
  | .finish =>
    if group.isEmpty then
      match group.owner with
      | .waiting => some { group with cancelled := true, owner := .returned (.ok ()) }
      | .draining failure firstError _ | .aborting failure firstError => some { group with cancelled := true, owner := .returned (drained failure firstError) }
      | _ => none
    else none
  | .drop =>
    match group.owner with
    | .returned _ | .dropped => none
    | _ => some { group with cancelled := true, aborted := true, owner := .dropped }

/-! ### Why a session ends -/

/-- The errors by which a task may end the session. -/
inductive Ends (task : StreamTask) : SessionError → Prop
  | closed : task.kind = .critical → Ends task (.criticalStreamEnded task.name)
  | failed (source : SessionError) : task.kind = .critical → Ends task (.stream task.name source)
  | unauthenticated (source : SessionError) : task.kind ≠ .critical → source.isUnauthenticated = true → Ends task (.stream task.name source)
  | lost (message : String) : Ends task (taskError "session stream" message)

/-- A task with this error was joined. -/
def Joined (tasks : List StreamTask) (error : SessionError) : Prop :=
  ∃ (i : ℕ) (task : StreamTask) (outcome : Outcome), tasks[i]? = some task ∧ task.phase = .joined outcome ∧ outcome.error = some error

/-- No task that was joined had an error. -/
def Clean (tasks : List StreamTask) : Prop := ∀ task ∈ tasks, ∀ outcome, task.phase = .joined outcome → outcome.error = none

structure Drains (tasks : List StreamTask) (parentCancelled cancelled : Bool) (failure firstError : Option SessionError) : Prop where
  started : ∀ error, failure = some error → Joined tasks error
  met : ∀ error, firstError = some error → Joined tasks error
  parent : failure = none → parentCancelled = true
  own : cancelled = true → failure ≠ none

def OwnerSound (group : StreamGroup) : Owner → Prop
  | .building | .waiting => group.cancelled = false ∧ Clean group.tasks
  | .draining failure firstError _ => Drains group.tasks group.parentCancelled group.cancelled failure firstError ∧ (failure = none → firstError = none → Clean group.tasks)
  | .aborting failure firstError => Drains group.tasks group.parentCancelled group.cancelled failure firstError ∧ group.aborted = true
  | .returned (.ok _) => group.isEmpty = true ∧ (Clean group.tasks ∨ group.parentCancelled = true ∧ group.aborted = true) ∧
      ((∃ task ∈ group.tasks, task.kind = .critical) → group.parentCancelled = true)
  | .returned (.error error) => group.isEmpty = true ∧ Joined group.tasks error
  | .dropped => True

structure TaskSound (group : StreamGroup) (task : StreamTask) : Prop where
  reasons : ∀ outcome error, task.phase = .ended outcome ∨ task.phase = .joined outcome → outcome.error = some error → Ends task error
  critical : ∀ outcome, task.phase = .ended outcome ∨ task.phase = .joined outcome → task.kind = .critical → outcome.error = none → group.isCancelled = true

structure Sound (group : StreamGroup) : Prop where
  tasks : ∀ task ∈ group.tasks, TaskSound group task
  owner : OwnerSound group group.owner

section Steps
variable {group group' : StreamGroup} {task task' : StreamTask}

/-- What a step of a task can do. -/
structure Moves (group : StreamGroup) (task task' : StreamTask) : Prop where
  unjoined : ∀ outcome, task.phase ≠ .joined outcome
  stays : ∀ outcome, task'.phase ≠ .joined outcome
  kind : task'.kind = .critical ↔ task.kind = .critical
  sound : TaskSound group task'

/-- A task whose phase is not an end is sound. -/
theorem TaskSound.ongoing (ongoing : ∀ outcome, task.phase ≠ .ended outcome ∧ task.phase ≠ .joined outcome) : TaskSound group task :=
  ⟨fun outcome _ own => absurd own (not_or.mpr (ongoing outcome)),fun outcome own => absurd own (not_or.mpr (ongoing outcome))⟩

theorem TaskSound.ended {outcome : Outcome} (phase : task.phase = .ended outcome) (reasons : ∀ error, outcome.error = some error → Ends task error)
    (critical : task.kind = .critical → outcome.error = none → group.isCancelled = true) : TaskSound group task := by
  have same {other : Outcome} (own : task.phase = .ended other ∨ task.phase = .joined other) : other = outcome := by
    rw [phase] at own
    rcases own with own | own
    · cases own; rfl
    · cases own
  refine ⟨?_,?_⟩
  · intro other error own known
    rw [same own] at known
    exact reasons error known
  · intro other own kind none
    rw [same own] at none
    exact critical kind none

theorem criticalResult_sound (task : StreamTask) (cancelled : Bool) (name : String) (result : Except SessionError Unit) (kind : task.kind = .critical)
    (named : task.name = name) :
    (∀ error, (Outcome.finished (criticalResult name cancelled result)).error = some error → Ends task error) ∧
      ((Outcome.finished (criticalResult name cancelled result)).error = none → cancelled = true) := by
  subst named
  unfold criticalResult
  split
  · next cancelled => exact ⟨fun _ impossible => (by cases impossible),fun _ => cancelled⟩
  · split
    · exact ⟨fun error same => by cases same; exact .closed kind,fun impossible => (by cases impossible)⟩
    · next error => exact ⟨fun error same => by cases same; exact .failed _ kind,fun impossible => (by cases impossible)⟩

theorem auxiliaryReturns_moves {backoff : ExponentialBackoff} {history : List Attempt} {startedAt jitter : ℕ} {result : Except SessionError Unit}
    (kind : task.kind = .auxiliary backoff history) (phase : task.phase = .running startedAt)
    (taken : auxiliaryReturns group task backoff history startedAt result jitter = some task') : Moves group task task' := by
  have unjoined : ∀ outcome, task.phase ≠ .joined outcome := by simp [phase]
  have auxiliary : task.kind ≠ .critical := by simp [kind]
  have fine : Moves group task { task with phase := .ended (.finished (.ok ())) } :=
    ⟨unjoined,by simp,Iff.rfl,.ended rfl (fun _ impossible => (by cases impossible)) (fun own => absurd own auxiliary)⟩
  unfold auxiliaryReturns at taken
  split at taken
  · cases taken
    exact fine
  · next error =>
    dsimp only at taken
    split at taken
    · cases taken
      exact fine
    · split at taken
      · next refused =>
        cases taken
        refine ⟨unjoined,by simp,Iff.rfl,.ended rfl ?_ (fun own => absurd own auxiliary)⟩
        intro other same
        cases same
        exact .unauthenticated error auxiliary refused
      · split at taken
        · cases taken
          exact ⟨unjoined,by simp,by simp [auxiliary],.ongoing (by simp)⟩
        · cases taken

theorem taskStep_moves {action : Action} (taken : taskStep group task action = some task') : Moves group task task' := by
  cases action with
  | look i =>
    dsimp only [taskStep] at taken
    split at taken
    · next top =>
      cases taken
      refine ⟨by simp [top],?_,Iff.rfl,?_⟩
      · dsimp only
        split <;> simp
      · by_cases stops : task.kind ≠ .critical ∧ group.isCancelled = true
        · refine TaskSound.ended (by simp only [if_pos stops]; rfl) (fun _ impossible => (by cases impossible)) (fun own => absurd own stops.1)
        · refine .ongoing ?_
          simp only [if_neg stops]
          simp
    · cases taken
  | runnerReturns i result jitter =>
    dsimp only [taskStep] at taken
    split at taken
    · next startedAt phase kind =>
      cases taken
      have sound := criticalResult_sound { task with phase := .ended (.finished (criticalResult task.name group.isCancelled result)) } group.isCancelled task.name
        result kind rfl
      exact ⟨by simp [phase],by simp,Iff.rfl,.ended rfl sound.1 (fun _ => sound.2)⟩
    · next startedAt backoff history phase kind => exact auxiliaryReturns_moves kind phase taken
    · cases taken
  | panics i message =>
    dsimp only [taskStep] at taken
    split at taken
    · next startedAt phase =>
      cases taken
      exact ⟨by simp [phase],by simp,Iff.rfl,.ended rfl (fun error same => by cases same; exact .lost message) (fun _ impossible => (by cases impossible))⟩
    · cases taken
  | awake i =>
    dsimp only [taskStep] at taken
    split at taken
    · next since delay phase =>
      split at taken
      · cases taken
        exact ⟨by simp [phase],by simp,Iff.rfl,.ongoing (by simp)⟩
      · cases taken
    · cases taken
  | stopSleeping i =>
    dsimp only [taskStep] at taken
    split at taken
    · next since delay phase =>
      split at taken
      · next cancelled =>
        cases taken
        exact ⟨by simp [phase],by simp,Iff.rfl,.ended rfl (fun _ impossible => (by cases impossible)) (fun _ _ => cancelled)⟩
      · cases taken
    · cases taken
  | abort i =>
    have lost : TaskSound group { task with phase := .ended (.lost "task was cancelled") } :=
      .ended rfl (fun error same => by cases same; exact .lost _) (fun _ impossible => (by cases impossible))
    dsimp only [taskStep] at taken
    split at taken
    · next phase =>
      split at taken
      · cases taken
        exact ⟨by simp [phase],by simp,Iff.rfl,lost⟩
      · cases taken
    · next startedAt phase =>
      split at taken
      · cases taken
        exact ⟨by simp [phase],by simp,Iff.rfl,lost⟩
      · cases taken
    · next since delay phase =>
      split at taken
      · cases taken
        exact ⟨by simp [phase],by simp,Iff.rfl,lost⟩
      · cases taken
    · cases taken
  | _ => cases taken

/-- Soundness of a task is kept while more is cancelled. -/
theorem TaskSound.mono (sound : TaskSound group task) (more : group.isCancelled = true → group'.isCancelled = true) : TaskSound group' task :=
  ⟨sound.reasons,fun outcome own kind none => more (sound.critical outcome own kind none)⟩

theorem Joined.set {tasks : List StreamTask} {error : SessionError} {i : ℕ} (joined : Joined tasks error) (known : tasks[i]? = some task)
    (unjoined : ∀ outcome, task.phase ≠ .joined outcome) : Joined (tasks.set i task') error := by
  obtain ⟨j,other,outcome,there,phase,own⟩ := joined
  refine ⟨j,other,outcome,?_,phase,own⟩
  have different : i ≠ j := by
    rintro rfl
    rw [known] at there
    cases there
    exact unjoined outcome phase
  rw [List.getElem?_set_ne different]
  exact there

theorem Clean.set {tasks : List StreamTask} {i : ℕ} (clean : Clean tasks) (stays : ∀ outcome, task'.phase = .joined outcome → outcome.error = none) :
    Clean (tasks.set i task') := by
  intro other member outcome phase
  rcases List.mem_or_eq_of_mem_set member with old | rfl
  · exact clean other old outcome phase
  · exact stays outcome phase

theorem Drains.set {tasks : List StreamTask} {parentCancelled cancelled : Bool} {failure firstError : Option SessionError} {i : ℕ}
    (drains : Drains tasks parentCancelled cancelled failure firstError) (known : tasks[i]? = some task) (unjoined : ∀ outcome, task.phase ≠ .joined outcome) :
    Drains (tasks.set i task') parentCancelled cancelled failure firstError :=
  ⟨fun error own => (drains.started error own).set known unjoined,fun error own => (drains.met error own).set known unjoined,drains.parent,drains.own⟩

theorem isJoined_iff : task.isJoined = true ↔ ∃ outcome, task.phase = .joined outcome := by
  unfold StreamTask.isJoined
  split
  · next outcome phase => simp [phase]
  · next other =>
    refine ⟨fun impossible => (by cases impossible),?_⟩
    rintro ⟨outcome,phase⟩
    exact absurd phase (other outcome)

theorem not_empty {i : ℕ} (known : group.tasks[i]? = some task) (unjoined : ∀ outcome, task.phase ≠ .joined outcome) : ¬ group.isEmpty = true := by
  intro empty
  obtain ⟨outcome,phase⟩ := isJoined_iff.mp (List.all_eq_true.mp empty task (List.mem_of_getElem? known))
  exact unjoined outcome phase

/-- A step of one task leaves everything about the owner. -/
theorem Sound.progress {i : ℕ} (sound : Sound group) (known : group.tasks[i]? = some task) (moves : Moves group task task') :
    Sound { group with tasks := group.tasks.set i task' } := by
  refine ⟨?_,?_⟩
  · intro other member
    rcases List.mem_or_eq_of_mem_set member with old | rfl
    · exact (sound.tasks other old).mono id
    · exact moves.sound.mono id
  · have own := sound.owner
    have clean (clean : Clean group.tasks) : Clean (group.tasks.set i task') := clean.set (fun outcome phase => absurd phase (moves.stays outcome))
    have full := not_empty known moves.unjoined
    show OwnerSound _ group.owner
    cases owner : group.owner with
    | building | waiting =>
      rw [owner] at own
      exact ⟨own.1,clean own.2⟩
    | draining failure firstError deadline =>
      rw [owner] at own
      exact ⟨own.1.set known moves.unjoined,fun none first => clean (own.2 none first)⟩
    | aborting failure firstError =>
      rw [owner] at own
      exact ⟨own.1.set known moves.unjoined,own.2⟩
    | returned result =>
      rw [owner] at own
      cases result with
      | ok => exact absurd own.1 full
      | error error => exact absurd own.1 full
    | dropped => trivial

/-- The owner takes the outcome of a task that has ended. -/
theorem Sound.join {i : ℕ} {outcome : Outcome} (sound : Sound group) (known : group.tasks[i]? = some task) (phase : task.phase = .ended outcome)
    (taken : { group with tasks := group.tasks.set i { task with phase := .joined outcome } }.joinNext outcome = some group') : Sound group' := by
  have own := sound.owner
  have unjoined : ∀ outcome, task.phase ≠ .joined outcome := by simp [phase]
  have before := sound.tasks task (List.mem_of_getElem? known)
  have inside := (List.getElem?_eq_some_iff.mp known).1
  have tasks {group' : StreamGroup} (more : group.isCancelled = true → group'.isCancelled = true) :
      ∀ other ∈ group.tasks.set i { task with phase := .joined outcome }, TaskSound group' other := by
    intro other member
    rcases List.mem_or_eq_of_mem_set member with old | rfl
    · exact (sound.tasks other old).mono more
    · refine ⟨?_,?_⟩
      · intro outcome' error own known
        rcases own with own | own
        · cases own
        · cases own
          rcases before.reasons outcome error (.inl phase) known with kind | ⟨source,kind⟩ | ⟨source,kind,refused⟩ | message
          · exact .closed kind
          · exact .failed source kind
          · exact .unauthenticated source kind refused
          · exact .lost message
      · intro outcome' own kind none
        rcases own with own | own
        · cases own
        · cases own
          exact more (before.critical outcome (.inl phase) kind none)
  have joins {error : SessionError} (same : outcome.error = some error) : Joined (group.tasks.set i { task with phase := .joined outcome }) error :=
    ⟨i,_,outcome,List.getElem?_set_self inside,rfl,same⟩
  have clean (clean : Clean group.tasks) (none : outcome.error = none) : Clean (group.tasks.set i { task with phase := .joined outcome }) :=
    clean.set (fun other own => by cases own; exact none)
  dsimp only [StreamGroup.joinNext] at taken
  cases owner : group.owner with
  | building | returned _ | dropped =>
    rw [owner] at taken
    cases taken
  | waiting =>
    rw [owner] at taken own
    cases same : outcome.error with
    | none =>
      simp only [same,Option.some.injEq] at taken
      subst taken
      exact ⟨tasks id,own.1,clean own.2 same⟩
    | some error =>
      simp only [same,Option.some.injEq] at taken
      subst taken
      refine ⟨tasks (fun cancelled => by simp [StreamGroup.isCancelled]),⟨?_,?_,?_,?_⟩,?_⟩
      · intro other own
        cases own
        exact joins same
      · exact fun _ impossible => by cases impossible
      · exact fun impossible => by cases impossible
      · exact fun _ impossible => by cases impossible
      · exact fun impossible => by cases impossible
  | draining failure firstError deadline =>
    rw [owner] at taken own
    cases taken
    have kept : Drains (group.tasks.set i { task with phase := .joined outcome }) _ _ _ _ := own.1.set known unjoined
    refine ⟨tasks id,⟨kept.started,?_,kept.parent,kept.own⟩,?_⟩
    · intro error first
      cases firstError with
      | none => exact joins first
      | some old => exact kept.met error first
    · intro none first
      cases firstError with
      | none => exact clean (own.2 none rfl) first
      | some old => cases first
  | aborting failure firstError =>
    rw [owner] at taken own
    cases taken
    exact ⟨tasks id,own.1.set known unjoined,own.2⟩

/-- The owner alone moves on. -/
theorem Sound.moved {owner : Owner} (sound : Sound group) (own : OwnerSound { group with owner := owner } owner) : Sound { group with owner := owner } :=
  ⟨fun task member => (sound.tasks task member).mono id,own⟩

theorem drained_cases (failure firstError : Option SessionError) :
    (drained failure firstError = .ok () ∧ failure = none ∧ firstError = none) ∨
      ∃ error, drained failure firstError = .error error ∧ (failure = some error ∨ firstError = some error) := by
  unfold drained
  cases failure with
  | none =>
    cases firstError with
    | none => exact .inl ⟨rfl,rfl,rfl⟩
    | some error => exact .inr ⟨error,rfl,.inr rfl⟩
  | some error => exact .inr ⟨error,rfl,.inl rfl⟩

/-- The drain is over. -/
theorem Sound.drained {failure firstError : Option SessionError} (sound : Sound group) (drains : Drains group.tasks group.parentCancelled group.cancelled failure firstError) (empty : group.isEmpty = true)
    (clean : failure = none → firstError = none → Clean group.tasks ∨ group.aborted = true) :
    Sound { group with cancelled := true, owner := .returned (drained failure firstError) } := by
  refine ⟨fun task member => (sound.tasks task member).mono (fun _ => by simp [StreamGroup.isCancelled]),?_⟩
  rcases drained_cases failure firstError with ⟨fine,noFailure,noFirst⟩ | ⟨error,same,own⟩
  · rw [fine]
    have parent := drains.parent noFailure
    exact ⟨empty,(clean noFailure noFirst).imp_right (fun aborted => ⟨parent,aborted⟩),fun _ => parent⟩
  · rw [same]
    refine ⟨empty,?_⟩
    rcases own with own | own
    · exact drains.started error own
    · exact drains.met error own

theorem sound_step (sound : Sound group) {action : Action} (taken : step group action = some group') : Sound group' := by
  have own := sound.owner
  have tasks {i : ℕ} (taken : (group.tasks[i]?.bind (fun task => taskStep group task action)).map (fun task => { group with tasks := group.tasks.set i task }) = some group') :
      Sound group' := by
    obtain ⟨task',moved,rfl⟩ := Option.map_eq_some_iff.mp taken
    obtain ⟨task,known,moved⟩ := Option.bind_eq_some_iff.mp moved
    exact sound.progress known (taskStep_moves moved)
  cases action with
  | startAuxiliary name | startSessionCritical name =>
    dsimp only [step] at taken
    split at taken
    · next building =>
      cases taken
      rw [building] at own
      refine ⟨?_,?_⟩
      · intro task member
        rcases List.mem_append.mp member with old | new
        · exact (sound.tasks task old).mono id
        · rw [List.mem_singleton.mp new]
          exact .ongoing (by simp)
      · show OwnerSound _ group.owner
        rw [building]
        refine ⟨own.1,?_⟩
        intro task member outcome phase
        rcases List.mem_append.mp member with old | new
        · exact own.2 task old outcome phase
        · rw [List.mem_singleton.mp new] at phase
          cases phase
    · cases taken
  | wait =>
    dsimp only [step] at taken
    split at taken
    · next building =>
      cases taken
      rw [building] at own
      exact sound.moved own
    · cases taken
  | cancelParent =>
    cases taken
    refine ⟨fun task member => (sound.tasks task member).mono (fun _ => rfl),?_⟩
    show OwnerSound _ group.owner
    cases owner : group.owner with
    | building | waiting | dropped =>
      rw [owner] at own
      exact own
    | draining failure firstError deadline =>
      rw [owner] at own
      exact ⟨⟨own.1.started,own.1.met,fun _ => rfl,own.1.own⟩,own.2⟩
    | aborting failure firstError =>
      rw [owner] at own
      exact ⟨⟨own.1.started,own.1.met,fun _ => rfl,own.1.own⟩,own.2⟩
    | returned result =>
      rw [owner] at own
      cases result with
      | ok => exact ⟨own.1,own.2.1.imp_right (fun gave => ⟨rfl,gave.2⟩),fun _ => rfl⟩
      | error error => exact own
  | tick elapsed =>
    cases taken
    exact ⟨fun task member => (sound.tasks task member).mono id,own⟩
  | look i | runnerReturns i _ _ | panics i _ | awake i | stopSleeping i | abort i => exact tasks taken
  | join i =>
    obtain ⟨task,known,taken⟩ := Option.bind_eq_some_iff.mp taken
    split at taken
    · next outcome phase => exact sound.join known phase taken
    · cases taken
  | noticeCancelled =>
    dsimp only [step] at taken
    split at taken
    · next notices =>
      obtain ⟨waiting,cancelled,_,_⟩ := notices
      cases taken
      rw [waiting] at own
      have parent : group.parentCancelled = true := by simpa [StreamGroup.isCancelled,own.1] using cancelled
      refine sound.moved ⟨⟨fun _ impossible => (by cases impossible),fun _ impossible => (by cases impossible),fun _ => parent,?_⟩,fun _ _ => own.2⟩
      intro cancelled
      rw [own.1] at cancelled
      cases cancelled
    · cases taken
  | giveUp =>
    dsimp only [step] at taken
    split at taken
    · next failure firstError deadline draining =>
      split at taken
      · cases taken
        rw [draining] at own
        exact ⟨fun task member => (sound.tasks task member).mono id,⟨own.1.started,own.1.met,own.1.parent,own.1.own⟩,rfl⟩
      · cases taken
    · cases taken
  | finish =>
    dsimp only [step] at taken
    split at taken
    · next empty =>
      split at taken
      · next waiting =>
        cases taken
        rw [waiting] at own
        refine ⟨fun task member => (sound.tasks task member).mono (fun _ => by simp [StreamGroup.isCancelled]),empty,.inl own.2,?_⟩
        -- A critical task without an error was told to stop, and not by its group.
        rintro ⟨task,member,critical⟩
        obtain ⟨outcome,phase⟩ := isJoined_iff.mp (List.all_eq_true.mp empty task member)
        have cancelled := (sound.tasks task member).critical outcome (.inr phase) critical (own.2 task member outcome phase)
        simpa [StreamGroup.isCancelled,own.1] using cancelled
      · next failure firstError deadline draining =>
        cases taken
        rw [draining] at own
        exact sound.drained own.1 empty (fun none first => .inl (own.2 none first))
      · next failure firstError aborting =>
        cases taken
        rw [aborting] at own
        exact sound.drained own.1 empty (fun _ _ => .inr own.2)
      · cases taken
    · cases taken
  | drop =>
    dsimp only [step] at taken
    split at taken
    · cases taken
    · cases taken
    · cases taken
      exact ⟨fun task member => (sound.tasks task member).mono (fun _ => by simp [StreamGroup.isCancelled]),trivial⟩

end Steps

theorem sound_run {policy : RetryPolicy} {shutdownGrace : ℕ} {actions : List Action} {group : StreamGroup}
    (run : Run step (.withPolicy policy shutdownGrace) actions group) : Sound group := by
  have begins : Sound (.withPolicy policy shutdownGrace) :=
    ⟨fun _ member => absurd member List.not_mem_nil,rfl,fun _ member => absurd member List.not_mem_nil⟩
  exact run.invariant begins (fun _ _ _ before taken => sound_step before taken)

/-- When the session has waited, no stream is left. An error is that of a stream that ended the session: a critical one that
    ended, an auxiliary one whose credentials were refused, or one that was lost. Without an error no stream had one, unless
    streams that did not stop in time were given up; and a session with a critical stream was told to stop. -/
theorem session_verdict {policy : RetryPolicy} {shutdownGrace : ℕ} {actions : List Action} {group : StreamGroup}
    (run : Run step (.withPolicy policy shutdownGrace) actions group) {result : Except SessionError Unit} (returned : group.owner = .returned result) :
    (∀ task ∈ group.tasks, ∃ outcome, task.phase = .joined outcome) ∧
      (∀ error, result = .error error → ∃ task ∈ group.tasks, ∃ outcome, task.phase = .joined outcome ∧ outcome.error = some error ∧ Ends task error) ∧
      (result = .ok () → (∀ task ∈ group.tasks, ∀ outcome, task.phase = .joined outcome → outcome.error = none) ∨ group.parentCancelled = true ∧ group.aborted = true) ∧
      (result = .ok () → (∃ task ∈ group.tasks, task.kind = .critical) → group.parentCancelled = true) := by
  have sound := sound_run run
  have own := sound.owner
  rw [returned] at own
  cases result with
  | ok =>
    obtain ⟨empty,clean,critical⟩ := own
    exact ⟨fun task member => isJoined_iff.mp (List.all_eq_true.mp empty task member),fun _ impossible => (by cases impossible),fun _ => clean,fun _ => critical⟩
  | error error =>
    obtain ⟨empty,i,task,outcome,known,phase,same⟩ := own
    have member := List.mem_of_getElem? known
    refine ⟨fun task member => isJoined_iff.mp (List.all_eq_true.mp empty task member),?_,fun impossible => (by cases impossible),fun impossible => (by cases impossible)⟩
    intro other own
    cases own
    exact ⟨task,member,outcome,phase,same,(sound.tasks task member).reasons outcome error (.inr phase) same⟩

/-- The traffic stream is refused once and reconnects, then its credentials are refused; the control stream is told to stop. -/
def refusedSession : List Action :=
  [.startSessionCritical "control stream",.startAuxiliary "traffic stream",.wait,.look 0,.look 1,.runnerReturns 1 (.error (.rpc .unavailable "closed")) 3,
    .tick 500000003,.awake 1,.look 1,.runnerReturns 1 (.error (.rpc .unauthenticated "expired")) 0,.join 1,.runnerReturns 0 (.ok ()) 0,.join 0,.finish]

theorem refused_session_verdict : ∃ group, Run step .new refusedSession group ∧
    group.owner = .returned (.error (.stream "traffic stream" (.rpc .unauthenticated "expired"))) ∧
    ∃ task ∈ group.tasks, ∃ outcome, task.phase = .joined outcome ∧ outcome.error = some (.stream "traffic stream" (.rpc .unauthenticated "expired")) ∧
      Ends task (.stream "traffic stream" (.rpc .unauthenticated "expired")) := by
  have reached : (follow step .new refusedSession).map StreamGroup.owner =
      some (.returned (.error (.stream "traffic stream" (.rpc .unauthenticated "expired")))) := by decide
  obtain ⟨group,followed,returned⟩ := Option.map_eq_some_iff.mp reached
  exact ⟨group,.of_follow followed,returned,(session_verdict (.of_follow followed) returned).2.1 _ rfl⟩

/-! ### Streams that reconnect -/

def Phase.progress : Phase → Progress
  | .top => .idle
  | .running startedAt => .running startedAt
  | .sleeping since delay => .sleeping since delay
  | .ended _ | .joined _ => .finished

/-- The attempts of a stream that have begun, one that has not ended yet with what the clock shows. -/
def StreamTask.attempts (clock : ℕ) (task : StreamTask) : List Attempt :=
  match task.kind, task.phase with
  | .auxiliary _ history, .running startedAt => ⟨startedAt,clock,false⟩ :: history
  | .auxiliary _ history, _ => history
  | .critical, _ => []

def StreamTask.Paced (policy : RetryPolicy) (clock : ℕ) (task : StreamTask) : Prop :=
  match task.kind with
  | .critical => True
  | .auxiliary backoff history => Backoff.Paced policy clock backoff history task.phase.progress

section Pacing
variable {group group' : StreamGroup} {task task' : StreamTask}

theorem Paced.ended {policy : RetryPolicy} {clock : ℕ} (paced : task.Paced policy clock) {phase : Phase} (ended : phase.progress = .finished) :
    StreamTask.Paced policy clock { task with phase := phase } := by
  unfold StreamTask.Paced at paced ⊢
  dsimp only
  split
  · trivial
  · next backoff history kind =>
    rw [kind] at paced
    rw [ended]
    exact .stop paced.spaced

theorem paced_taskStep (fits : group.policy.Fits) (paced : task.Paced group.policy group.clock) {action : Action}
    (taken : taskStep group task action = some task') : task'.Paced group.policy group.clock := by
  cases kind : task.kind with
  | critical =>
    have same := (taskStep_moves taken).kind.mpr kind
    rw [StreamTask.Paced,same]
    trivial
  | auxiliary backoff history =>
    have known (phase : Phase) (own : task.phase = phase) : Backoff.Paced group.policy group.clock backoff history phase.progress := by
      have := paced
      rwa [StreamTask.Paced,kind,own] at this
    cases action with
    | look i =>
      dsimp only [taskStep] at taken
      split at taken
      · next top =>
        cases taken
        split
        · exact Paced.ended paced rfl
        · rw [StreamTask.Paced,kind]
          exact (known _ top).begin
      · cases taken
    | runnerReturns i result jitter =>
      dsimp only [taskStep] at taken
      split at taken
      · next other => exact absurd (kind.symm.trans other) (by simp)
      · next startedAt backoff' history' phase own =>
        rw [kind] at own
        cases own
        unfold auxiliaryReturns at taken
        split at taken
        · cases taken
          exact Paced.ended paced rfl
        · dsimp only at taken
          split at taken
          · cases taken
            exact Paced.ended paced rfl
          · split at taken
            · cases taken
              exact Paced.ended paced rfl
            · split at taken
              · next drawn =>
                cases taken
                exact (known _ phase).fails fits drawn
              · cases taken
      · cases taken
    | panics i message =>
      dsimp only [taskStep] at taken
      split at taken
      · cases taken
        exact Paced.ended paced rfl
      · cases taken
    | awake i =>
      dsimp only [taskStep] at taken
      split at taken
      · next since delay phase =>
        split at taken
        · next slept =>
          cases taken
          rw [StreamTask.Paced,kind]
          exact (known _ phase).wake slept
        · cases taken
      · cases taken
    | stopSleeping i =>
      dsimp only [taskStep] at taken
      split at taken
      · split at taken
        · cases taken
          exact Paced.ended paced rfl
        · cases taken
      · cases taken
    | abort i =>
      dsimp only [taskStep] at taken
      split at taken
      all_goals first | (split at taken <;> cases taken; exact Paced.ended paced rfl) | cases taken
    | _ => cases taken

theorem StreamTask.Paced.tick {policy : RetryPolicy} {clock : ℕ} (paced : task.Paced policy clock) (elapsed : ℕ) : task.Paced policy (clock + elapsed) := by
  unfold StreamTask.Paced at paced ⊢
  split at paced
  · trivial
  · exact Backoff.Paced.tick paced elapsed

/-- A group with all its streams paced. -/
structure AllPaced (policy : RetryPolicy) (group : StreamGroup) : Prop where
  same : group.policy = policy
  tasks : ∀ task ∈ group.tasks, task.Paced policy group.clock

theorem AllPaced.set {policy : RetryPolicy} {i : ℕ} (paced : AllPaced policy group) (next : task'.Paced policy group.clock) :
    ∀ task ∈ group.tasks.set i task', task.Paced policy group.clock := by
  intro task member
  rcases List.mem_or_eq_of_mem_set member with old | rfl
  · exact paced.tasks task old
  · exact next

theorem AllPaced.append {policy : RetryPolicy} (paced : AllPaced policy group) (next : task'.Paced policy group.clock) :
    ∀ task ∈ group.tasks ++ [task'], task.Paced policy group.clock := by
  intro task member
  rcases List.mem_append.mp member with old | new
  · exact paced.tasks task old
  · rw [List.mem_singleton.mp new]
    exact next

theorem joinNext_frame {outcome : Outcome} (taken : group.joinNext outcome = some group') :
    group'.policy = group.policy ∧ group'.clock = group.clock ∧ group'.tasks = group.tasks := by
  unfold StreamGroup.joinNext at taken
  split at taken
  · split at taken <;> cases taken <;> exact ⟨rfl,rfl,rfl⟩
  · cases taken; exact ⟨rfl,rfl,rfl⟩
  · cases taken; exact ⟨rfl,rfl,rfl⟩
  · cases taken

theorem paced_step {policy : RetryPolicy} (fits : policy.Fits) (paced : AllPaced policy group) {action : Action} (taken : step group action = some group') :
    AllPaced policy group' := by
  have same := paced.same
  have tasks {i : ℕ} (taken : (group.tasks[i]?.bind (fun task => taskStep group task action)).map (fun task => { group with tasks := group.tasks.set i task }) = some group') :
      AllPaced policy group' := by
    obtain ⟨task',moved,rfl⟩ := Option.map_eq_some_iff.mp taken
    obtain ⟨task,known,moved⟩ := Option.bind_eq_some_iff.mp moved
    have before := paced.tasks task (List.mem_of_getElem? known)
    subst same
    exact ⟨rfl,paced.set (paced_taskStep fits before moved)⟩
  cases action with
  | startAuxiliary name =>
    dsimp only [step] at taken
    split at taken
    · cases taken
      subst same
      exact ⟨rfl,paced.append (.new group.policy group.clock)⟩
    · cases taken
  | startSessionCritical name =>
    dsimp only [step] at taken
    split at taken
    · cases taken
      exact ⟨same,paced.append trivial⟩
    · cases taken
  | tick elapsed =>
    cases taken
    exact ⟨same,fun task member => (paced.tasks task member).tick elapsed⟩
  | cancelParent =>
    cases taken
    exact ⟨same,paced.tasks⟩
  | look i | runnerReturns i _ _ | panics i _ | awake i | stopSleeping i | abort i => exact tasks taken
  | join i =>
    obtain ⟨task,known,joined⟩ := Option.bind_eq_some_iff.mp taken
    split at joined
    · next outcome phase =>
      obtain ⟨policies,clocks,lists⟩ := joinNext_frame joined
      refine ⟨policies.trans same,?_⟩
      rw [clocks,lists]
      exact paced.set (Paced.ended (paced.tasks task (List.mem_of_getElem? known)) rfl)
    · cases joined
  | wait | noticeCancelled =>
    dsimp only [step] at taken
    split at taken
    · cases taken
      exact ⟨same,paced.tasks⟩
    · cases taken
  | giveUp =>
    dsimp only [step] at taken
    split at taken
    · split at taken
      · cases taken
        exact ⟨same,paced.tasks⟩
      · cases taken
    · cases taken
  | finish =>
    dsimp only [step] at taken
    split at taken
    · split at taken
      all_goals
        cases taken
        try exact ⟨same,paced.tasks⟩
    · cases taken
  | drop =>
    dsimp only [step] at taken
    split at taken
    all_goals
      cases taken
      try exact ⟨same,paced.tasks⟩

end Pacing

/-! ### Attempts that are repeated -/

/-- An auxiliary stream in a group that is not told to stop. An attempt that fails, its credentials not being refused, is
    followed by a delay; nothing but the end of the delay ends it, and when it is over another attempt begins. -/
structure Reconnects (group : StreamGroup) (i : ℕ) (task : StreamTask) : Prop where
  /-- Whatever was drawn, the stream sleeps, and the attempt is one of those that failed. -/
  fails : ∀ startedAt error jitter group', task.phase = .running startedAt → error.isUnauthenticated = false →
    step group (.runnerReturns i (.error error) jitter) = some group' → ∃ task' backoff history delay, group'.tasks[i]? = some task' ∧
      task'.phase = .sleeping group.clock delay ∧ task'.kind = .auxiliary backoff (⟨startedAt,group.clock,true⟩ :: history)
  /-- Something is drawn. -/
  drawn : ∀ startedAt error, task.phase = .running startedAt → error.isUnauthenticated = false →
    ∃ jitter group', step group (.runnerReturns i (.error error) jitter) = some group'
  waits : ∀ since delay action group', task.phase = .sleeping since delay → step group action = some group' →
    ∃ task', group'.tasks[i]? = some task' ∧ (task'.phase = .sleeping since delay ∨ since + delay ≤ group.clock ∧ task'.phase = .top)
  repeated : ∀ since delay elapsed, task.phase = .sleeping since delay → since + delay ≤ group.clock + elapsed →
    ∃ group' task', Run step group [.tick elapsed,.awake i,.look i] group' ∧ group'.tasks[i]? = some task' ∧ task'.phase = .running group'.clock

section Repeating
variable {group group' : StreamGroup} {task : StreamTask} {i : ℕ}

/-- Only a group that tells its streams to stop drains, gives up or is over. -/
def Open (group : StreamGroup) : Prop := (group.owner = .building ∨ group.owner = .waiting) ∧ group.aborted = false

theorem open_joinNext (before : Open group ∨ group.isCancelled = true) {outcome : Outcome} (taken : group.joinNext outcome = some group') :
    Open group' ∨ group'.isCancelled = true := by
  unfold StreamGroup.joinNext at taken
  split at taken
  · split at taken
    · cases taken
      exact before
    · cases taken
      exact .inr (by simp [StreamGroup.isCancelled])
  · next draining =>
    cases taken
    exact .inr (before.resolve_left (fun own => by simp [Open,draining] at own))
  · cases taken
    exact before
  · cases taken

theorem open_step (before : Open group ∨ group.isCancelled = true) {action : Action} (taken : step group action = some group') :
    Open group' ∨ group'.isCancelled = true := by
  have tasks {j : ℕ} (taken : (group.tasks[j]?.bind (fun task => taskStep group task action)).map (fun task => { group with tasks := group.tasks.set j task }) = some group') :
      Open group' ∨ group'.isCancelled = true := by
    obtain ⟨task',_,rfl⟩ := Option.map_eq_some_iff.mp taken
    exact before
  cases action with
  | look j | runnerReturns j _ _ | panics j _ | awake j | stopSleeping j | abort j => exact tasks taken
  | tick elapsed =>
    cases taken
    exact before
  | cancelParent =>
    cases taken
    exact .inr rfl
  | startAuxiliary name | startSessionCritical name =>
    dsimp only [step] at taken
    split at taken
    · cases taken
      exact before
    · cases taken
  | wait =>
    dsimp only [step] at taken
    split at taken
    · cases taken
      exact before.imp_left (fun own => ⟨.inr rfl,own.2⟩)
    · cases taken
  | join j =>
    obtain ⟨task,_,taken⟩ := Option.bind_eq_some_iff.mp taken
    split at taken
    · refine open_joinNext ?_ taken
      exact before
    · cases taken
  | noticeCancelled =>
    dsimp only [step] at taken
    split at taken
    · next notices =>
      cases taken
      exact .inr notices.2.1
    · cases taken
  | giveUp =>
    dsimp only [step] at taken
    split at taken
    · next draining =>
      split at taken
      · cases taken
        exact .inr (before.resolve_left (fun own => by simp [Open,draining] at own))
      · cases taken
    · cases taken
  | finish =>
    dsimp only [step] at taken
    split at taken
    · split at taken
      all_goals
        cases taken
        try exact .inr (by simp [StreamGroup.isCancelled])
    · cases taken
  | drop =>
    dsimp only [step] at taken
    split at taken
    all_goals
      cases taken
      try exact .inr (by simp [StreamGroup.isCancelled])

/-- A step leaves a task as it is, moves it, or joins it after its end. -/
theorem step_task (known : group.tasks[i]? = some task) {action : Action} (taken : step group action = some group') :
    ∃ task', group'.tasks[i]? = some task' ∧ (task' = task ∨ taskStep group task action = some task' ∨ ∃ outcome, task.phase = .ended outcome) := by
  have inside := (List.getElem?_eq_some_iff.mp known).1
  have same (tasks : group'.tasks = group.tasks) : ∃ task', group'.tasks[i]? = some task' ∧
      (task' = task ∨ taskStep group task action = some task' ∨ ∃ outcome, task.phase = .ended outcome) := ⟨task,by rw [tasks]; exact known,.inl rfl⟩
  have moved {j : ℕ} (taken : (group.tasks[j]?.bind (fun task => taskStep group task action)).map (fun task => { group with tasks := group.tasks.set j task }) = some group') :
      ∃ task', group'.tasks[i]? = some task' ∧ (task' = task ∨ taskStep group task action = some task' ∨ ∃ outcome, task.phase = .ended outcome) := by
    obtain ⟨task',moves,rfl⟩ := Option.map_eq_some_iff.mp taken
    obtain ⟨other,there,moves⟩ := Option.bind_eq_some_iff.mp moves
    by_cases own : j = i
    · subst own
      rw [known] at there
      cases there
      exact ⟨task',List.getElem?_set_self inside,.inr (.inl moves)⟩
    · exact ⟨task,by rw [List.getElem?_set_ne own]; exact known,.inl rfl⟩
  cases action with
  | look j | runnerReturns j _ _ | panics j _ | awake j | stopSleeping j | abort j => exact moved taken
  | tick elapsed | cancelParent =>
    cases taken
    exact same rfl
  | startAuxiliary name | startSessionCritical name =>
    dsimp only [step] at taken
    split at taken
    · cases taken
      exact ⟨task,(List.getElem?_append_left inside).trans known,.inl rfl⟩
    · cases taken
  | wait | noticeCancelled =>
    dsimp only [step] at taken
    split at taken
    · cases taken
      exact same rfl
    · cases taken
  | join j =>
    obtain ⟨other,there,joined⟩ := Option.bind_eq_some_iff.mp taken
    split at joined
    · next outcome phase =>
      obtain ⟨_,_,lists⟩ := joinNext_frame joined
      rw [lists]
      by_cases own : j = i
      · subst own
        rw [known] at there
        cases there
        exact ⟨_,List.getElem?_set_self inside,.inr (.inr ⟨outcome,phase⟩)⟩
      · exact ⟨task,(List.getElem?_set_ne own).trans known,.inl rfl⟩
    · cases joined
  | giveUp =>
    dsimp only [step] at taken
    split at taken
    · split at taken
      · cases taken
        exact same rfl
      · cases taken
    · cases taken
  | finish =>
    dsimp only [step] at taken
    split at taken
    · split at taken
      all_goals
        cases taken
        try exact same rfl
    · cases taken
  | drop =>
    dsimp only [step] at taken
    split at taken
    all_goals
      cases taken
      try exact same rfl

/-- A step of a task by its index. -/
theorem step_eq (known : group.tasks[i]? = some task) {task' : StreamTask} {action : Action} (moves : taskStep group task action = some task')
    (own : action = .look i ∨ action = .awake i ∨ ∃ result jitter, action = .runnerReturns i result jitter) :
    step group action = some { group with tasks := group.tasks.set i task' } := by
  rcases own with rfl | rfl | ⟨result,jitter,rfl⟩
  all_goals simp only [step,known,Option.bind_some,moves,Option.map_some]

theorem reconnects (reached : Open group ∨ group.isCancelled = true) (known : group.tasks[i]? = some task) (auxiliary : task.kind ≠ .critical)
    (alive : group.isCancelled = false) : Reconnects group i task := by
  have inside := (List.getElem?_eq_some_iff.mp known).1
  have going : group.aborted = false := (reached.resolve_right (by simp [alive])).2
  obtain ⟨backoff,history,kind⟩ : ∃ backoff history, task.kind = .auxiliary backoff history := by
    cases own : task.kind with
    | auxiliary backoff history => exact ⟨backoff,history,rfl⟩
    | critical => exact absurd own auxiliary
  refine ⟨?_,?_,?_,?_⟩
  · intro startedAt error jitter group' phase accepted taken
    simp only [step,known,Option.bind_some,taskStep,phase,kind,auxiliaryReturns,alive,accepted,Bool.false_eq_true,↓reduceIte] at taken
    split at taken
    · cases taken
      exact ⟨_,_,history,_,List.getElem?_set_self inside,rfl,rfl⟩
    · cases taken
  · intro startedAt error phase accepted
    refine ⟨0,?_⟩
    have drawn : 0 < backoff.failureBound group.policy.stableAfter (group.clock - startedAt) ∨
        backoff.failureBound group.policy.stableAfter (group.clock - startedAt) = 0 := (Nat.eq_zero_or_pos _).symm
    have moves : ∃ task', taskStep group task (.runnerReturns i (.error error) 0) = some task' := by
      simp only [taskStep,phase,kind,auxiliaryReturns,alive,accepted,Bool.false_eq_true,↓reduceIte,if_pos drawn]
      exact ⟨_,rfl⟩
    obtain ⟨task',moves⟩ := moves
    exact ⟨_,step_eq known moves (.inr (.inr ⟨_,_,rfl⟩))⟩
  · intro since delay action group' phase taken
    obtain ⟨task',there,same | moves | ⟨outcome,ended⟩⟩ := step_task known taken
    · exact ⟨task',there,.inl (same ▸ phase)⟩
    · refine ⟨task',there,?_⟩
      cases action with
      | awake j =>
        simp only [taskStep,phase] at moves
        split at moves
        · next slept =>
          cases moves
          exact .inr ⟨slept,rfl⟩
        · cases moves
      | look j | runnerReturns j _ _ | panics j _ | stopSleeping j | abort j => simp [taskStep,phase,alive,going] at moves
      | _ => cases moves
    · rw [phase] at ended
      cases ended
  · intro since delay elapsed phase slept
    have rested : taskStep { group with clock := group.clock + elapsed } task (.awake i) = some { task with phase := .top } := by
      simp only [taskStep,phase,if_pos slept]
    have woken := @step_eq { group with clock := group.clock + elapsed } task i known _ _ rested (.inr (.inl rfl))
    have there : (group.tasks.set i { task with phase := .top })[i]? = some { task with phase := .top } := List.getElem?_set_self inside
    have begins : taskStep { group with clock := group.clock + elapsed, tasks := group.tasks.set i { task with phase := .top } }
        { task with phase := .top } (.look i) = some { task with phase := .running (group.clock + elapsed) } := by
      have told : ¬ (task.kind ≠ .critical ∧ StreamGroup.isCancelled { group with
          clock := group.clock + elapsed, tasks := group.tasks.set i { task with phase := .top } } = true) := by
        rintro ⟨_,told⟩
        exact absurd (show group.isCancelled = true from told) (by simp [alive])
      simp only [taskStep,if_neg told,↓reduceIte]
    have looked := step_eq there begins (.inl rfl)
    exact ⟨_,_,.snoc (.snoc (.snoc .nil rfl) woken) looked,List.getElem?_set_self (by rw [List.length_set]; exact inside),rfl⟩

end Repeating

/-- A stream is told to stop only when the session was, when the session is over, or when some stream ended it; an auxiliary
    stream that fails otherwise reconnects, at least half of a base later that doubles with every failure in a row. -/
theorem auxiliary_streams_isolated {policy : RetryPolicy} (fits : policy.Fits) {shutdownGrace : ℕ} {actions : List Action} {group : StreamGroup}
    (run : Run step (.withPolicy policy shutdownGrace) actions group) :
    (group.isCancelled = true → group.parentCancelled = true ∨ group.owner = .dropped ∨ (∃ result, group.owner = .returned result) ∨
      ∃ task ∈ group.tasks, ∃ outcome error, task.phase = .joined outcome ∧ outcome.error = some error ∧ Ends task error) ∧
      (∀ task ∈ group.tasks, Spaced policy (task.attempts group.clock) ∧ ∀ backoff history since delay, task.kind = .auxiliary backoff history →
        task.phase = .sleeping since delay → Drawn policy (streak policy.stableAfter history) delay) ∧
      ∀ (i : ℕ) (task : StreamTask), group.tasks[i]? = some task → task.kind ≠ .critical → group.isCancelled = false → Reconnects group i task := by
  have sound := sound_run run
  have begins : AllPaced policy (.withPolicy policy shutdownGrace) := ⟨rfl,fun _ member => absurd member List.not_mem_nil⟩
  have paced := run.invariant begins (fun _ _ _ before taken => paced_step fits before taken)
  have reached : Open group ∨ group.isCancelled = true := run.invariant (.inl ⟨.inl rfl,rfl⟩) (fun _ _ _ before taken => open_step before taken)
  refine ⟨?_,?_,fun i task known auxiliary alive => reconnects reached known auxiliary alive⟩
  · intro cancelled
    have own := sound.owner
    have reason {error : SessionError} (joined : Joined group.tasks error) :
        ∃ task ∈ group.tasks, ∃ outcome error, task.phase = .joined outcome ∧ outcome.error = some error ∧ Ends task error := by
      obtain ⟨i,task,outcome,known,phase,same⟩ := joined
      have member := List.mem_of_getElem? known
      exact ⟨task,member,outcome,error,phase,same,(sound.tasks task member).reasons outcome error (.inr phase) same⟩
    have drains {failure firstError : Option SessionError} (drains : Drains group.tasks group.parentCancelled group.cancelled failure firstError) :
        group.parentCancelled = true ∨ ∃ task ∈ group.tasks, ∃ outcome error, task.phase = .joined outcome ∧ outcome.error = some error ∧ Ends task error := by
      cases failure with
      | none => exact .inl (drains.parent rfl)
      | some error => exact .inr (reason (drains.started error rfl))
    cases owner : group.owner with
    | building | waiting =>
      rw [owner] at own
      exact .inl (by simpa [StreamGroup.isCancelled,own.1] using cancelled)
    | draining failure firstError deadline =>
      rw [owner] at own
      exact (drains own.1).imp_right (fun reason => .inr (.inr reason))
    | aborting failure firstError =>
      rw [owner] at own
      exact (drains own.1).imp_right (fun reason => .inr (.inr reason))
    | returned result => exact .inr (.inr (.inl ⟨result,rfl⟩))
    | dropped => exact .inr (.inl rfl)
  · intro task member
    have own := paced.tasks task member
    unfold StreamTask.Paced at own
    refine ⟨?_,?_⟩
    · unfold StreamTask.attempts
      split
      · next backoff history startedAt kind phase =>
        rw [kind,phase] at own
        exact own.ended false
      · next kind _ =>
        rw [kind] at own
        exact own.spaced
      · trivial
    · intro backoff history since delay kind phase
      rw [kind,phase] at own
      exact (own.sleeping since delay rfl).1

/-- The session while the traffic stream waits for its next attempt. -/
theorem refused_session_isolated : ∃ group, Run step .new (refusedSession.take 6) group ∧ group.isCancelled = false ∧
    ∃ task, group.tasks[1]? = some task ∧ task.phase = .sleeping 0 500000003 ∧ Spaced .default (task.attempts group.clock) ∧
      Drawn .default 1 500000003 ∧ Reconnects group 1 task ∧
      ∃ group' task', Run step group [.tick 500000003,.awake 1,.look 1] group' ∧ group'.tasks[1]? = some task' ∧ task'.phase = .running group'.clock := by
  have reached : (follow step .new (refusedSession.take 6)).map (fun group => (group.isCancelled,group.clock,group.tasks[1]?)) =
      some (false,0,some ⟨"traffic stream",.auxiliary ⟨1000000000,30000000000,1000000000⟩ [⟨0,0,true⟩],.sleeping 0 500000003⟩) := by decide
  obtain ⟨group,followed,same⟩ := Option.map_eq_some_iff.mp reached
  obtain ⟨alive,same⟩ := Prod.mk.inj same
  obtain ⟨clock,known⟩ := Prod.mk.inj same
  obtain ⟨-,paced,again⟩ := auxiliary_streams_isolated default_fits (.of_follow followed)
  obtain ⟨spaced,drawn⟩ := paced _ (List.mem_of_getElem? known)
  have repeats := again 1 _ known (by decide) alive
  exact ⟨group,.of_follow followed,alive,_,known,rfl,spaced,drawn _ _ _ _ rfl rfl,repeats,
    repeats.repeated 0 500000003 500000003 rfl (by rw [clock])⟩

end NodeAgent.StreamGroups
