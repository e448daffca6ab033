import NodeAgent.ControllerTruth

/-!
No loop of the periodic pull sleeps through a wake. It listens before it looks at the schedule,
and every task that changes the state notifies afterwards; so a loop that waits for a wake only
has a reason to wait, has been woken, or is about to be.
-/
namespace NodeAgent.ControllerWakes
open NodeAgent.RemoteController NodeAgent.ControllerTruth NodeAgent.Transition

/-- What an unwoken loop knows is still true. -/
structure Current (state : ControllerState) (loop : Loop) : Prop where
  schedule : ∀ schedule, loop.phase = .scheduled schedule → schedule.enabled = state.periodicEnabled
  waiting : loop.phase = .waiting → state.periodicEnabled = false ∨ state.periodicAttempt ≠ none

def Awake (state : ControllerState) (loops : List Loop) (pendingWakes : ℕ) : Prop :=
  pendingWakes = 0 → ∀ loop ∈ loops, loop.woken = false → Current state loop

section Steps
variable {w w' : World}

/-- A phase in which nothing is known yet. -/
theorem Current.unaware {state : ControllerState} {loop : Loop} (unread : ∀ schedule, loop.phase ≠ .scheduled schedule) (busy : loop.phase ≠ .waiting) :
    Current state loop := ⟨fun schedule own => absurd own (unread schedule),fun own => absurd own busy⟩

theorem Awake.set {state : ControllerState} {loops : List Loop} {pendingWakes i : ℕ} {loop' : Loop} (awake : Awake state loops pendingWakes)
    (own : pendingWakes = 0 → loop'.woken = false → Current state loop') : Awake state (loops.set i loop') pendingWakes := by
  intro quiet loop member unwoken
  rcases List.mem_or_eq_of_mem_set member with old | rfl
  · exact awake quiet loop old unwoken
  · exact own quiet unwoken

/-- A loop that moves on looked at the state it stands in. -/
theorem awake_loop (awake : Awake w.state w.loops w.pendingWakes) {id : ℕ} {loop : Loop} (known : w.loops[id]? = some loop) {action : Action}
    (taken : loopStep w id loop action = some w') : Awake w'.state w'.loops w'.pendingWakes := by
  have member := List.mem_of_getElem? known
  cases action with
  | cancelStream _ =>
    cases taken
    exact awake.set (fun quiet unwoken => ⟨(awake quiet loop member unwoken).schedule,(awake quiet loop member unwoken).waiting⟩)
  | listen _ =>
    dsimp only [loopStep] at taken
    split at taken
    · cases taken
      refine awake.set (fun _ _ => ?_)
      split
      · exact Current.unaware (by simp) (by simp)
      · exact Current.unaware (by simp) (by simp)
    · cases taken
  | readSchedule _ =>
    dsimp only [loopStep] at taken
    split at taken
    · cases taken
      refine awake.set (fun _ _ => ⟨?_,by simp⟩)
      intro schedule same
      cases same
      rfl
    · cases taken
  | decide _ now =>
    dsimp only [loopStep] at taken
    split at taken
    · next schedule scheduled =>
      cases taken
      refine awake.set (fun quiet unwoken => ?_)
      have current := (awake quiet loop member unwoken).schedule schedule scheduled
      by_cases off : schedule.enabled = false
      · exact ⟨by simp [off],fun _ => .inl (current.symm.trans off)⟩
      · refine Current.unaware ?_ ?_
        · intro other
          rw [if_neg off]
          split <;> simp
        · rw [if_neg off]
          split <;> simp
    · cases taken
  | elapse _ =>
    dsimp only [loopStep] at taken
    split at taken
    · cases taken
      exact awake.set (fun _ _ => Current.unaware (by simp) (by simp))
    · cases taken
  | wake _ =>
    dsimp only [loopStep] at taken
    split at taken
    · cases taken
      exact awake.set (fun _ _ => Current.unaware (by simp) (by simp))
    · cases taken
  | stop _ =>
    dsimp only [loopStep] at taken
    split at taken
    · cases taken
      exact awake.set (fun _ _ => Current.unaware (by simp) (by simp))
    · cases taken
  | beginAttempt _ now =>
    dsimp only [loopStep] at taken
    split at taken
    · split at taken
      · next refused =>
        cases taken
        refine awake.set (fun _ _ => ⟨by simp,fun _ => ?_⟩)
        -- The attempt was refused in this very state.
        unfold ControllerState.beginPeriodicAttempt at refused
        split at refused
        · next reason => exact reason.imp_right (fun some => Option.isSome_iff_ne_none.mp some)
        · cases refused
      · next state begun =>
        cases taken
        have part : state.periodicEnabled = w.state.periodicEnabled ∧ state.periodicAttempt ≠ none := by
          unfold ControllerState.beginPeriodicAttempt at begun
          split at begun
          · cases begun
          · cases begun
            exact ⟨rfl,Option.some_ne_none _⟩
        intro quiet other listed unwoken
        rcases List.mem_or_eq_of_mem_set listed with old | rfl
        · have before := awake quiet other old unwoken
          exact ⟨fun schedule own => (before.schedule schedule own).trans part.1.symm,fun _ => .inr part.2⟩
        · exact Current.unaware (by simp) (by simp)
    · cases taken
  | pulled _ error =>
    dsimp only [loopStep] at taken
    split at taken
    · cases taken
      exact awake.set (fun _ _ => Current.unaware (by simp) (by simp))
    · cases taken
  | finishAttempt _ now =>
    dsimp only [loopStep] at taken
    split at taken
    · cases taken
      exact fun quiet => absurd quiet (Nat.succ_ne_zero _)
    · cases taken
  | dropAttempt _ now =>
    dsimp only [loopStep] at taken
    split at taken
    · cases taken
      exact fun quiet => absurd quiet (Nat.succ_ne_zero _)
    · cases taken
      exact fun quiet => absurd quiet (Nat.succ_ne_zero _)
    · cases taken
  | _ => cases taken

theorem awake_step (truthful : Truthful w) (awake : Awake w.state w.loops w.pendingWakes) {action : Action} (taken : step w action = some w') :
    Awake w'.state w'.loops w'.pendingWakes := by
  have leases {lease : ℕ} (taken : (w.leases[lease]?.bind (fun own => leaseStep w lease own action)) = some w') :
      Awake w'.state w'.loops w'.pendingWakes := by
    obtain ⟨own,known,taken⟩ := Option.bind_eq_some_iff.mp taken
    have alone := (reloads_lease truthful.reloads known taken).2
    have part := alone.part
    simp only [periodicPart,Prod.mk.injEq] at part
    rw [alone.loops,alone.wakes]
    intro quiet loop member unwoken
    have before := awake quiet loop member unwoken
    exact ⟨by rw [part.1]; exact before.schedule,by rw [part.1,part.2.2.2]; exact before.waiting⟩
  have loops {stream : ℕ} (taken : (w.loops[stream]?.bind (fun loop => loopStep w stream loop action)) = some w') :
      Awake w'.state w'.loops w'.pendingWakes := by
    obtain ⟨loop,known,taken⟩ := Option.bind_eq_some_iff.mp taken
    exact awake_loop awake known taken
  cases action with
  | beginReload operationId =>
    dsimp only [step] at taken
    split at taken <;> cases taken <;> exact awake
  | setPeriodic enabled interval now =>
    cases taken
    exact fun quiet => absurd quiet (Nat.succ_ne_zero _)
  | notify =>
    dsimp only [step] at taken
    split at taken
    · cases taken
    · cases taken
      intro _ loop member unwoken
      obtain ⟨before,_,rfl⟩ := List.mem_map.mp member
      cases unwoken
  | openStream =>
    cases taken
    intro quiet loop member unwoken
    rcases List.mem_append.mp member with old | new
    · exact awake quiet loop old unwoken
    · obtain rfl := List.mem_singleton.mp new
      exact Current.unaware (by simp) (by simp)
  | enterReload id | setReloadStage id _ | reloaded id _ _ _ _ | finishReload id | dropReload id | releaseGate id => exact leases taken
  | cancelStream id | listen id | readSchedule id | decide id _ | elapse id | wake id | stop id | beginAttempt id _ | pulled id _ | finishAttempt id _
  | dropAttempt id _ => exact loops taken

end Steps

/-- While the pull is enabled, either an attempt is on its way and a loop will finish it, or every loop that
    waits for a wake has been woken or is about to be. -/
theorem no_lost_wake {actions : List Action} {w : World} (run : Run step initial actions w) (enabled : w.state.periodicEnabled = true) :
    (∃ id attempt loop, w.attempts[id]? = some attempt ∧ attempt.finished = false ∧ w.loops[attempt.stream]? = some loop ∧ holds loop.phase = some id) ∨
      ∀ loop ∈ w.loops, loop.phase = .waiting → loop.woken = true ∨ 0 < w.pendingWakes := by
  have begins : Truthful initial ∧ Awake initial.state initial.loops initial.pendingWakes :=
    ⟨truthful_run .nil,fun _ _ member => absurd member List.not_mem_nil⟩
  obtain ⟨truthful,awake⟩ := run.invariant (I := fun w => Truthful w ∧ Awake w.state w.loops w.pendingWakes) begins
    (fun _ _ _ before taken => ⟨truthful_step before.1 taken,awake_step before.1 before.2 taken⟩)
  cases slot : w.state.periodicAttempt with
  | some id =>
    obtain ⟨attempt,known,live⟩ := (truthful.pulls.slot id).mp slot
    obtain ⟨loop,place,holding⟩ := truthful.pulls.holder id attempt known live
    exact .inl ⟨id,attempt,loop,known,live,place,holding⟩
  | none =>
    right
    intro loop member waiting
    by_contra stuck
    obtain ⟨unwoken,quiet⟩ := not_or.mp stuck
    rcases (awake (Nat.eq_zero_of_not_pos quiet) loop member (Bool.eq_false_iff.mpr unwoken)).waiting waiting with off | taken
    · rw [enabled] at off
      cases off
    · exact taken slot

/-- A loop waits since the pull is disabled, and the setting changes. -/
def wokenLoop : List Action := [.openStream,.listen 0,.readSchedule 0,.decide 0 1,.setPeriodic true 60000000000 5]

theorem woken_loop_not_lost : ∃ w, Run step initial wokenLoop w ∧ w.state.periodicEnabled = true ∧
    ((∃ id attempt loop, w.attempts[id]? = some attempt ∧ attempt.finished = false ∧ w.loops[attempt.stream]? = some loop ∧ holds loop.phase = some id) ∨
      ∀ loop ∈ w.loops, loop.phase = .waiting → loop.woken = true ∨ 0 < w.pendingWakes) := by
  have reached : ∃ w, Run step initial wokenLoop w ∧ w.state.periodicEnabled = true := ⟨_,Run.of_follow rfl,rfl⟩
  obtain ⟨w,run,enabled⟩ := reached
  exact ⟨w,run,enabled,no_lost_wake run enabled⟩

end NodeAgent.ControllerWakes
