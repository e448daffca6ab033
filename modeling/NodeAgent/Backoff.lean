import Mathlib.Algebra.Order.Ring.Nat

/-!
The delay before the next attempt. A base that doubles with every failure in a row up to a bound,
and a delay drawn from its upper half. What the base is, and how far apart attempts are, is said
of the attempts alone: by how many of the last ones count as failures (`streak`).
-/
namespace NodeAgent.Backoff

/-! ### The delays -/

def u64Max : ℕ := 18446744073709551615

/-- The longest `Duration`. All durations and instants are in nanoseconds. -/
def durationMax : ℕ := u64Max * 1000000000 + 999999999

structure ExponentialBackoff where
  initial : ℕ
  max : ℕ
  current : ℕ
deriving DecidableEq

def ExponentialBackoff.new (initial max : ℕ) : ExponentialBackoff := ⟨initial,max,0⟩

def ExponentialBackoff.reset (backoff : ExponentialBackoff) : ExponentialBackoff := { backoff with current := 0 }

def ExponentialBackoff.advance (backoff : ExponentialBackoff) : ExponentialBackoff :=
  { backoff with current := if backoff.current = 0 then backoff.initial else min (min (backoff.current * 2) durationMax) backoff.max }

/-- The random range of the next delay. -/
def ExponentialBackoff.jitterBound (backoff : ExponentialBackoff) : ℕ := min (backoff.advance.current / 2) u64Max

/-- `jitter` is what was drawn below `jitterBound`; nothing is drawn where that is zero. -/
def ExponentialBackoff.nextDelay (backoff : ExponentialBackoff) (jitter : ℕ) : ExponentialBackoff × ℕ :=
  if backoff.jitterBound = 0 then (backoff.advance,backoff.advance.current)
  else (backoff.advance,backoff.advance.current / 2 + jitter)

structure RetryPolicy where
  initial : ℕ
  max : ℕ
  stableAfter : ℕ
deriving DecidableEq

def SESSION_BACKOFF_INITIAL : ℕ := 1000000000
def SESSION_BACKOFF_MAX : ℕ := 30000000000
def STABLE_SESSION_RESET_AFTER : ℕ := 60000000000

def RetryPolicy.default : RetryPolicy := ⟨SESSION_BACKOFF_INITIAL,SESSION_BACKOFF_MAX,STABLE_SESSION_RESET_AFTER⟩

/-! ### The attempts -/

/-- An attempt that has ended, and when the loop looked at its end. -/
structure Attempt where
  startedAt : ℕ
  endedAt : ℕ
  failed : Bool
deriving DecidableEq

/-- How many of the attempts, the last one first, count as failures in a row: an attempt that lasted
    long starts a new row, one that succeeded leaves none. -/
def streak (stableAfter : ℕ) : List Attempt → ℕ
  | [] => 0
  | last :: before =>
    if last.failed = false then 0 else if stableAfter < last.endedAt - last.startedAt then 1 else streak stableAfter before + 1

/-- The base after so many failures in a row. -/
def base (policy : RetryPolicy) : ℕ → ℕ
  | 0 => 0
  | n+1 => min (policy.initial * 2 ^ n) policy.max

/-- The next attempt may start at this instant: the last one has ended, and half the base has passed
    after a failure. -/
def Due (policy : RetryPolicy) (instant : ℕ) : List Attempt → Prop
  | [] => True
  | last :: before => last.endedAt + base policy (streak policy.stableAfter (last :: before)) / 2 ≤ instant

/-- Every attempt of the list, the last one first, was due when it started. -/
def Spaced (policy : RetryPolicy) : List Attempt → Prop
  | [] => True
  | next :: before => Due policy next.startedAt before ∧ Spaced policy before

/-- A delay from the upper half of the base. -/
structure Drawn (policy : RetryPolicy) (failures delay : ℕ) : Prop where
  least : base policy failures / 2 ≤ delay
  most : delay ≤ base policy failures
  below : 2 ≤ base policy failures → delay < base policy failures

/-- What a policy has to meet: the first delay is not above the longest one, and that is a `Duration`. -/
structure RetryPolicy.Fits (policy : RetryPolicy) : Prop where
  ordered : policy.initial ≤ policy.max
  durations : policy.max ≤ durationMax

theorem default_fits : RetryPolicy.default.Fits := ⟨by decide,by decide⟩

/-- The base of the backoff is that of the attempts. -/
structure Follows (policy : RetryPolicy) (backoff : ExponentialBackoff) (n : ℕ) : Prop where
  initial : backoff.initial = policy.initial
  max : backoff.max = policy.max
  current : backoff.current = base policy n

section Rules
variable {policy : RetryPolicy} {backoff : ExponentialBackoff} {n : ℕ}

theorem Follows.new : Follows policy (ExponentialBackoff.new policy.initial policy.max) 0 := ⟨rfl,rfl,rfl⟩

theorem Follows.reset (follows : Follows policy backoff n) : Follows policy backoff.reset 0 := ⟨follows.initial,follows.max,rfl⟩

theorem Follows.advance (fits : policy.Fits) (follows : Follows policy backoff n) : Follows policy backoff.advance (n + 1) := by
  refine ⟨follows.initial,follows.max,?_⟩
  have bounded := fits.durations
  have ordered := fits.ordered
  simp only [ExponentialBackoff.advance,follows.current,follows.initial,follows.max]
  split
  · next zero =>
    cases n with
    | zero => simp [base,ordered]
    | succ n =>
      -- The base is zero only where the first delay is.
      have nothing : policy.initial = 0 := by
        by_contra some
        have := Nat.mul_pos (Nat.pos_of_ne_zero some) (Nat.two_pow_pos n)
        simp only [base] at zero
        omega
      simp [base,nothing]
  · next positive =>
    cases n with
    | zero => exact absurd rfl positive
    | succ n =>
      have doubled : policy.initial * 2 ^ (n + 1) = policy.initial * 2 ^ n * 2 := by rw [pow_succ,mul_assoc]
      simp only [base,doubled]
      omega

/-- A delay is drawn from the upper half of the base. -/
theorem Follows.nextDelay (fits : policy.Fits) (follows : Follows policy backoff n) {jitter : ℕ} (drawn : jitter < backoff.jitterBound ∨ backoff.jitterBound = 0) :
    Follows policy (backoff.nextDelay jitter).1 (n + 1) ∧ Drawn policy (n + 1) (backoff.nextDelay jitter).2 := by
  have after := follows.advance fits
  have same := after.current
  have bound : backoff.jitterBound = min (base policy (n + 1) / 2) u64Max := by rw [ExponentialBackoff.jitterBound,same]
  have positive : 0 < u64Max := by decide
  unfold ExponentialBackoff.nextDelay
  split
  · next none =>
    refine ⟨after,?_,le_of_eq same,?_⟩
    · rw [same]
      exact Nat.div_le_self _ _
    · intro large
      omega
  · next some =>
    refine ⟨after,?_,?_,?_⟩
    all_goals
      simp only [same]
      omega

end Rules

/-! ### One loop of attempts -/

/-- What a loop makes of an attempt that failed: a new backoff, and the delay before the next attempt. -/
def ExponentialBackoff.afterFailure (backoff : ExponentialBackoff) (stableAfter elapsed jitter : ℕ) : ExponentialBackoff × ℕ :=
  (if stableAfter < elapsed then backoff.reset else backoff).nextDelay jitter

def ExponentialBackoff.failureBound (backoff : ExponentialBackoff) (stableAfter elapsed : ℕ) : ℕ :=
  (if stableAfter < elapsed then backoff.reset else backoff).jitterBound

/-- Where a loop stands between two attempts. -/
inductive Progress
  | idle
  | running (startedAt : ℕ)
  | sleeping (since delay : ℕ)
  | finished

/-- The attempts of a loop are spaced, its backoff is that of the attempts, and so is the delay it waits for. -/
structure Paced (policy : RetryPolicy) (clock : ℕ) (backoff : ExponentialBackoff) (history : List Attempt) (progress : Progress) : Prop where
  follows : progress ≠ .finished → Follows policy backoff (streak policy.stableAfter history)
  spaced : Spaced policy history
  idle : progress = .idle → Due policy clock history
  running : ∀ startedAt, progress = .running startedAt → startedAt ≤ clock ∧ Due policy startedAt history
  sleeping : ∀ since delay, progress = .sleeping since delay →
    Drawn policy (streak policy.stableAfter history) delay ∧ ∀ instant, since + delay ≤ instant → Due policy instant history

section Rules
variable {policy : RetryPolicy} {clock : ℕ} {backoff : ExponentialBackoff} {history : List Attempt} {progress : Progress}

theorem Due.later {instant later : ℕ} (due : Due policy instant history) (passed : instant ≤ later) : Due policy later history := by
  cases history with
  | nil => trivial
  | cons last before => exact le_trans due passed

theorem Paced.new (policy : RetryPolicy) (clock : ℕ) : Paced policy clock (.new policy.initial policy.max) [] .idle :=
  ⟨fun _ => .new,trivial,fun _ => trivial,fun _ impossible => (by cases impossible),fun _ _ impossible => (by cases impossible)⟩

theorem Paced.tick (paced : Paced policy clock backoff history progress) (elapsed : ℕ) : Paced policy (clock + elapsed) backoff history progress :=
  ⟨paced.follows,paced.spaced,fun idle => (paced.idle idle).later (Nat.le_add_right _ _),
    fun startedAt running => ⟨(paced.running startedAt running).1.trans (Nat.le_add_right _ _),(paced.running startedAt running).2⟩,paced.sleeping⟩

theorem Paced.begin (paced : Paced policy clock backoff history .idle) : Paced policy clock backoff history (.running clock) := by
  refine ⟨fun _ => paced.follows (by simp),paced.spaced,fun impossible => (by cases impossible),?_,fun _ _ impossible => (by cases impossible)⟩
  intro startedAt same
  cases same
  exact ⟨le_rfl,paced.idle rfl⟩

/-- A loop that is over keeps its attempts spaced, and its backoff no longer counts. -/
theorem Paced.stop (spaced : Spaced policy history) : Paced policy clock backoff history .finished :=
  ⟨fun ongoing => absurd rfl ongoing,spaced,fun impossible => (by cases impossible),fun _ impossible => (by cases impossible),fun _ _ impossible => (by cases impossible)⟩

theorem Paced.wake {since delay : ℕ} (paced : Paced policy clock backoff history (.sleeping since delay)) (slept : since + delay ≤ clock) :
    Paced policy clock backoff history .idle :=
  ⟨fun _ => paced.follows (by simp),paced.spaced,fun _ => (paced.sleeping since delay rfl).2 clock slept,fun _ impossible => (by cases impossible),
    fun _ _ impossible => (by cases impossible)⟩

/-- The attempts that have ended are spaced together with one that ends now. -/
theorem Paced.ended {startedAt : ℕ} (paced : Paced policy clock backoff history (.running startedAt)) (failed : Bool) :
    Spaced policy (⟨startedAt,clock,failed⟩ :: history) := ⟨(paced.running startedAt rfl).2,paced.spaced⟩

theorem Paced.succeeds {startedAt : ℕ} (paced : Paced policy clock backoff history (.running startedAt)) :
    Paced policy clock backoff.reset (⟨startedAt,clock,false⟩ :: history) .idle :=
  ⟨fun _ => (paced.follows (by simp)).reset,paced.ended false,fun _ => by simp [Due,streak,base],fun _ impossible => (by cases impossible),fun _ _ impossible => (by cases impossible)⟩

theorem Paced.fails (fits : policy.Fits) {startedAt jitter : ℕ} (paced : Paced policy clock backoff history (.running startedAt))
    (drawn : jitter < backoff.failureBound policy.stableAfter (clock - startedAt) ∨ backoff.failureBound policy.stableAfter (clock - startedAt) = 0) :
    Paced policy clock (backoff.afterFailure policy.stableAfter (clock - startedAt) jitter).1 (⟨startedAt,clock,true⟩ :: history)
      (.sleeping clock (backoff.afterFailure policy.stableAfter (clock - startedAt) jitter).2) := by
  have after : Follows policy (backoff.afterFailure policy.stableAfter (clock - startedAt) jitter).1 (streak policy.stableAfter (⟨startedAt,clock,true⟩ :: history)) ∧
      Drawn policy (streak policy.stableAfter (⟨startedAt,clock,true⟩ :: history)) (backoff.afterFailure policy.stableAfter (clock - startedAt) jitter).2 := by
    by_cases stable : policy.stableAfter < clock - startedAt
    · simp only [ExponentialBackoff.failureBound,ExponentialBackoff.afterFailure,streak,if_pos stable,Bool.true_eq_false,if_false] at drawn ⊢
      exact (paced.follows (by simp)).reset.nextDelay fits drawn
    · simp only [ExponentialBackoff.failureBound,ExponentialBackoff.afterFailure,streak,if_neg stable,Bool.true_eq_false,if_false] at drawn ⊢
      exact (paced.follows (by simp)).nextDelay fits drawn
  refine ⟨fun _ => after.1,paced.ended true,fun impossible => (by cases impossible),fun _ impossible => (by cases impossible),?_⟩
  intro since delay same
  cases same
  refine ⟨after.2,fun instant slept => ?_⟩
  exact le_trans (Nat.add_le_add_left after.2.least clock) slept

end Rules
end NodeAgent.Backoff
