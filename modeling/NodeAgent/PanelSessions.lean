import NodeAgent.Backoff
import NodeAgent.Transition

/-!
The loop that keeps a panel session alive. An attempt is one session; one that fails is repeated
after a delay, one that succeeds at once. A shutdown may arrive at any moment.
-/
namespace NodeAgent.PanelSessions
open NodeAgent.Backoff NodeAgent.Transition

def SHUTDOWN_GRACE_PERIOD : ℕ := 5000000000

inductive Phase
  | top
  | attempting (startedAt : ℕ)
  | sleeping (since delay : ℕ)
  /-- The shutdown arrived during the attempt, which is given a moment to end. -/
  | stopping (startedAt since : ℕ)
  | returned
deriving DecidableEq

/-- `history` has all attempts that have ended, the last one first; the loop never reads it. -/
structure SessionLoop where
  policy : RetryPolicy
  shutdown : Bool
  clock : ℕ
  backoff : ExponentialBackoff
  phase : Phase
  history : List Attempt
deriving DecidableEq

inductive Action
  | tick (elapsed : ℕ)
  | shutDown
  | begin
  | attemptEnds (failed : Bool) (jitter : ℕ)
  | noticeShutdown
  | attemptStops
  | graceOver
  | wake
  | stopSleeping
deriving DecidableEq

/-- `run_panel_sessions_with_policy` before its loop. -/
def start (policy : RetryPolicy) : SessionLoop := ⟨policy,false,0,.new policy.initial policy.max,.top,[]⟩

def step (loop : SessionLoop) : Action → Option SessionLoop
  | .tick elapsed => some { loop with clock := loop.clock + elapsed }
  | .shutDown => some { loop with shutdown := true }
  | .begin => if loop.phase = .top then some { loop with phase := if loop.shutdown then .returned else .attempting loop.clock } else none
  | .attemptEnds failed jitter =>
    match loop.phase with
    | .attempting startedAt =>
      let elapsed := loop.clock - startedAt
      let history := ⟨startedAt,loop.clock,failed⟩ :: loop.history
      if loop.shutdown then some { loop with phase := .returned, history := history }
      else if failed = false then some { loop with backoff := loop.backoff.reset, phase := .top, history := history }
      else if jitter < loop.backoff.failureBound loop.policy.stableAfter elapsed ∨ loop.backoff.failureBound loop.policy.stableAfter elapsed = 0 then
        let (backoff,delay) := loop.backoff.afterFailure loop.policy.stableAfter elapsed jitter
        some { loop with backoff := backoff, phase := .sleeping loop.clock delay, history := history }
      else none
    | _ => none
  | .noticeShutdown =>
    match loop.phase with
    | .attempting startedAt => if loop.shutdown then some { loop with phase := .stopping startedAt loop.clock } else none
    | _ => none
  | .attemptStops =>
    match loop.phase with
    | .stopping _ _ => some { loop with phase := .returned }
    | _ => none
  | .graceOver =>
    match loop.phase with
    | .stopping _ since => if since + SHUTDOWN_GRACE_PERIOD ≤ loop.clock then some { loop with phase := .returned } else none
    | _ => none
  | .wake =>
    match loop.phase with
    | .sleeping since delay => if since + delay ≤ loop.clock then some { loop with phase := .top } else none
    | _ => none
  | .stopSleeping =>
    match loop.phase with
    | .sleeping _ _ => if loop.shutdown then some { loop with phase := .returned } else none
    | _ => none

/-! ### How far apart the attempts are -/

/-- The attempts that have begun, one that has not ended yet with what the clock shows. -/
def SessionLoop.attempts (loop : SessionLoop) : List Attempt :=
  match loop.phase with
  | .attempting startedAt | .stopping startedAt _ => ⟨startedAt,loop.clock,false⟩ :: loop.history
  | _ => loop.history

def Phase.progress : Phase → Progress
  | .top => .idle
  | .attempting startedAt | .stopping startedAt _ => .running startedAt
  | .sleeping since delay => .sleeping since delay
  | .returned => .finished

def SessionLoop.Paced (loop : SessionLoop) : Prop := Backoff.Paced loop.policy loop.clock loop.backoff loop.history loop.phase.progress

section Steps
variable {loop loop' : SessionLoop}

theorem policy_step {action : Action} (taken : step loop action = some loop') : loop'.policy = loop.policy := by
  cases action with
  | tick _ | shutDown => cases taken; rfl
  | begin =>
    dsimp only [step] at taken
    split at taken
    · cases taken; rfl
    · cases taken
  | attemptEnds failed jitter =>
    dsimp only [step] at taken
    split at taken
    · split at taken
      · cases taken; rfl
      · split at taken
        · cases taken; rfl
        · split at taken
          · cases taken; rfl
          · cases taken
    · cases taken
  | attemptStops =>
    dsimp only [step] at taken
    split at taken
    · cases taken; rfl
    · cases taken
  | noticeShutdown | graceOver | wake | stopSleeping =>
    dsimp only [step] at taken
    split at taken
    · split at taken
      · cases taken; rfl
      · cases taken
    · cases taken

theorem paced_step (fits : loop.policy.Fits) (paced : loop.Paced) {action : Action} (taken : step loop action = some loop') : loop'.Paced := by
  cases action with
  | tick elapsed =>
    cases taken
    exact Backoff.Paced.tick paced elapsed
  | shutDown =>
    cases taken
    exact paced
  | begin =>
    dsimp only [step] at taken
    split at taken
    · next top =>
      have idle : Backoff.Paced loop.policy loop.clock loop.backoff loop.history .idle := by
        have := paced
        rwa [SessionLoop.Paced,top] at this
      cases taken
      show Backoff.Paced loop.policy loop.clock loop.backoff loop.history (Phase.progress (if loop.shutdown then .returned else .attempting loop.clock))
      split
      · exact .stop idle.spaced
      · exact idle.begin
    · cases taken
  | attemptEnds failed jitter =>
    dsimp only [step] at taken
    split at taken
    · next startedAt attempting =>
      have running : Backoff.Paced loop.policy loop.clock loop.backoff loop.history (.running startedAt) := by
        have := paced
        rwa [SessionLoop.Paced,attempting] at this
      split at taken
      · cases taken
        exact .stop (running.ended failed)
      · split at taken
        · next succeeded =>
          cases taken
          rw [succeeded]
          exact running.succeeds
        · next failure =>
          split at taken
          · next drawn =>
            cases taken
            rw [Bool.not_eq_false] at failure
            rw [failure]
            exact running.fails fits drawn
          · cases taken
    · cases taken
  | noticeShutdown =>
    dsimp only [step] at taken
    split at taken
    · next startedAt attempting =>
      split at taken
      · cases taken
        have := paced
        rwa [SessionLoop.Paced,attempting] at this
      · cases taken
    · cases taken
  | attemptStops =>
    dsimp only [step] at taken
    split at taken
    · cases taken
      exact .stop (Backoff.Paced.spaced paced)
    · cases taken
  | wake =>
    dsimp only [step] at taken
    split at taken
    · next since delay sleeping =>
      split at taken
      · next slept =>
        cases taken
        have asleep : Backoff.Paced loop.policy loop.clock loop.backoff loop.history (.sleeping since delay) := by
          have := paced
          rwa [SessionLoop.Paced,sleeping] at this
        exact asleep.wake slept
      · cases taken
    · cases taken
  | graceOver | stopSleeping =>
    dsimp only [step] at taken
    split at taken
    · split at taken
      · cases taken
        exact .stop (Backoff.Paced.spaced paced)
      · cases taken
    · cases taken

end Steps

/-! ### After the shutdown -/

/-- What the loop itself does. -/
def Action.own : Action → Bool
  | .tick _ | .shutDown => false
  | _ => true

/-- How many steps of its own the loop takes after a shutdown, at most. -/
def Phase.left : Phase → ℕ
  | .returned => 0
  | .top | .stopping _ _ => 1
  | .attempting _ | .sleeping _ _ => 2

theorem Phase.left_le (phase : Phase) : phase.left ≤ 2 := by cases phase <;> simp [Phase.left]

/-- After a shutdown every step of the loop brings it nearer to its end, and begins no attempt. -/
theorem stopping_step {loop loop' : SessionLoop} (shutdown : loop.shutdown = true) {action : Action} (taken : step loop action = some loop') :
    loop'.shutdown = true ∧ [action].countP Action.own + loop'.phase.left ≤ loop.phase.left ∧ loop'.attempts.length ≤ loop.attempts.length := by
  cases action with
  | tick elapsed =>
    cases taken
    refine ⟨shutdown,by simp [Action.own],le_of_eq ?_⟩
    unfold SessionLoop.attempts
    cases loop.phase <;> rfl
  | shutDown =>
    cases taken
    exact ⟨rfl,by simp [Action.own],le_rfl⟩
  | begin =>
    dsimp only [step] at taken
    split at taken
    · next top =>
      cases taken
      exact ⟨shutdown,by simp [Action.own,top,Phase.left],by simp [SessionLoop.attempts,top]⟩
    · cases taken
  | attemptEnds failed jitter =>
    dsimp only [step] at taken
    split at taken
    · next startedAt attempting =>
      rw [if_pos shutdown] at taken
      cases taken
      exact ⟨shutdown,by simp [Action.own,attempting,Phase.left],by simp [SessionLoop.attempts,attempting]⟩
    · cases taken
  | noticeShutdown =>
    dsimp only [step] at taken
    split at taken
    · next startedAt attempting =>
      rw [if_pos shutdown] at taken
      cases taken
      exact ⟨shutdown,by simp [Action.own,attempting,Phase.left],by simp [SessionLoop.attempts,attempting]⟩
    · cases taken
  | attemptStops =>
    dsimp only [step] at taken
    split at taken
    · next stopping =>
      cases taken
      exact ⟨shutdown,by simp [Action.own,stopping,Phase.left],by simp [SessionLoop.attempts,stopping]⟩
    · cases taken
  | graceOver =>
    dsimp only [step] at taken
    split at taken
    · next stopping =>
      split at taken
      · cases taken
        exact ⟨shutdown,by simp [Action.own,stopping,Phase.left],by simp [SessionLoop.attempts,stopping]⟩
      · cases taken
    · cases taken
  | wake =>
    dsimp only [step] at taken
    split at taken
    · next sleeping =>
      split at taken
      · cases taken
        exact ⟨shutdown,by simp [Action.own,sleeping,Phase.left],by simp [SessionLoop.attempts,sleeping]⟩
      · cases taken
    · cases taken
  | stopSleeping =>
    dsimp only [step] at taken
    split at taken
    · next sleeping =>
      rw [if_pos shutdown] at taken
      cases taken
      exact ⟨shutdown,by simp [Action.own,sleeping,Phase.left],by simp [SessionLoop.attempts,sleeping]⟩
    · cases taken

theorem stopping_run {loop loop' : SessionLoop} (shutdown : loop.shutdown = true) {later : List Action} (run : Run step loop later loop') :
    loop'.shutdown = true ∧ later.countP Action.own + loop'.phase.left ≤ loop.phase.left ∧ loop'.attempts.length ≤ loop.attempts.length := by
  induction run with
  | nil => exact ⟨shutdown,by simp,le_rfl⟩
  | snoc _ taken ih =>
    obtain ⟨still,nearer,none⟩ := ih
    obtain ⟨after,near,fewer⟩ := stopping_step still taken
    refine ⟨after,?_,fewer.trans none⟩
    rw [List.countP_append]
    omega

/-- After a shutdown the loop can return, within the grace period. -/
theorem exists_return {loop : SessionLoop} (shutdown : loop.shutdown = true) :
    ∃ later loop', Run step loop later loop' ∧ loop'.phase = .returned ∧ loop'.clock ≤ loop.clock + SHUTDOWN_GRACE_PERIOD := by
  cases phase : loop.phase with
  | top => exact ⟨[.begin],{ loop with phase := .returned },.of_follow (by simp [follow,step,phase,shutdown]),rfl,Nat.le_add_right _ _⟩
  | attempting startedAt =>
    exact ⟨[.noticeShutdown,.attemptStops],{ loop with phase := .returned },.of_follow (by simp [follow,step,phase,shutdown]),rfl,Nat.le_add_right _ _⟩
  | sleeping since delay =>
    exact ⟨[.stopSleeping],{ loop with phase := .returned },.of_follow (by simp [follow,step,phase,shutdown]),rfl,Nat.le_add_right _ _⟩
  | stopping startedAt since =>
    exact ⟨[.attemptStops],{ loop with phase := .returned },.of_follow (by simp [follow,step,phase]),rfl,Nat.le_add_right _ _⟩
  | returned => exact ⟨[],loop,.nil,phase,Nat.le_add_right _ _⟩

/-- Attempts never overlap, and after each failure in a row at least half of a base passes that doubles up to the
    longest delay; once the shutdown has arrived no attempt begins, and the loop is at most two steps from its end. -/
theorem panel_sessions_paced {policy : RetryPolicy} (fits : policy.Fits) {actions : List Action} {loop : SessionLoop} (run : Run step (start policy) actions loop) :
    Spaced policy loop.attempts ∧
      (∀ since delay, loop.phase = .sleeping since delay → Drawn policy (streak policy.stableAfter loop.history) delay) ∧
      (loop.shutdown = true →
        (∀ later loop', Run step loop later loop' → loop'.attempts.length ≤ loop.attempts.length ∧ later.countP Action.own ≤ 2) ∧
        ∃ later loop', Run step loop later loop' ∧ loop'.phase = .returned ∧ loop'.clock ≤ loop.clock + SHUTDOWN_GRACE_PERIOD) := by
  obtain ⟨same,paced⟩ := run.invariant (I := fun loop => loop.policy = policy ∧ loop.Paced) ⟨rfl,.new policy 0⟩
    (fun _ _ _ before taken => ⟨(policy_step taken).trans before.1,paced_step (before.1.symm ▸ fits) before.2 taken⟩)
  subst same
  refine ⟨?_,?_,?_⟩
  · unfold SessionLoop.attempts
    split
    · next startedAt attempting =>
      rw [SessionLoop.Paced,attempting] at paced
      exact paced.ended false
    · next startedAt since stopping =>
      rw [SessionLoop.Paced,stopping] at paced
      exact paced.ended false
    · exact Backoff.Paced.spaced paced
  · intro since delay sleeping
    rw [SessionLoop.Paced,sleeping] at paced
    exact (paced.sleeping since delay rfl).1
  · intro shutdown
    refine ⟨fun later loop' rest => ?_,exists_return shutdown⟩
    obtain ⟨_,nearer,none⟩ := stopping_run shutdown rest
    exact ⟨none,by have := loop.phase.left_le; omega⟩

/-- Two failures in a row, and the shutdown during the third attempt. -/
def twoFailures : List Action :=
  [.begin,.tick 5,.attemptEnds true 0,.tick 500000000,.wake,.begin,.attemptEnds true 7,.tick 1000000007,.wake,.begin,.shutDown]

theorem two_failures_paced : ∃ loop, Run step (start .default) twoFailures loop ∧ loop.history.length = 2 ∧ loop.shutdown = true ∧
    Spaced .default loop.attempts ∧
    (∀ since delay, loop.phase = .sleeping since delay → Drawn .default (streak STABLE_SESSION_RESET_AFTER loop.history) delay) ∧
    (loop.shutdown = true →
      (∀ later loop', Run step loop later loop' → loop'.attempts.length ≤ loop.attempts.length ∧ later.countP Action.own ≤ 2) ∧
      ∃ later loop', Run step loop later loop' ∧ loop'.phase = .returned ∧ loop'.clock ≤ loop.clock + SHUTDOWN_GRACE_PERIOD) := by
  have reached : (follow step (start .default) twoFailures).map (fun loop => (loop.history.length,loop.shutdown)) = some (2,true) := by decide
  obtain ⟨loop,followed,same⟩ := Option.map_eq_some_iff.mp reached
  obtain ⟨two,shutdown⟩ := Prod.mk.inj same
  exact ⟨loop,.of_follow followed,two,shutdown,panel_sessions_paced default_fits (.of_follow followed)⟩

end NodeAgent.PanelSessions
