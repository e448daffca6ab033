import Mathlib.Algebra.Group.Int.Defs
import Mathlib.Algebra.Group.Nat.Defs
import Mathlib.Tactic.Common

/-!
Wall-clock times as the agent reads them. A `SystemTime` is a 64-bit count of
whole seconds from the epoch with a nanosecond part, as the standard library
keeps it on Unix; `i64` results are integers with the wrapping of a release
build written out.
-/
namespace NodeAgent.UnixTime

/-- A time: whole seconds from the epoch, rounded down, and the nanoseconds after them. -/
structure SystemTime where
  secs : Int
  nanos : Nat
  secs_range : -9223372036854775808 ≤ secs ∧ secs ≤ 9223372036854775807
  nanos_range : nanos < 10 ^ 9
deriving DecidableEq

def unixEpoch : SystemTime := ⟨0,0,by decide,by decide⟩

/-- `left.cmp(&right)`: seconds first, then nanoseconds. -/
def SystemTime.cmp (left right : SystemTime) : Ordering :=
  (compare left.secs right.secs).then (compare left.nanos right.nanos)
def SystemTime.min (left right : SystemTime) : SystemTime := if left.cmp right = .gt then right else left
def SystemTime.max (left right : SystemTime) : SystemTime := if left.cmp right = .gt then left else right

/-- A time at a whole second, where the count has room for it. -/
def atSecond (secs : Int) (nanos : Nat) (small : nanos < 10 ^ 9) : Option SystemTime :=
  if range : -9223372036854775808 ≤ secs ∧ secs ≤ 9223372036854775807 then some ⟨secs,nanos,range,small⟩ else none
def SystemTime.checkedAdd (time : SystemTime) (secs : Nat) : Option SystemTime :=
  atSecond (time.secs + secs) time.nanos time.nanos_range
def SystemTime.checkedSub (time : SystemTime) (secs : Nat) : Option SystemTime :=
  atSecond (time.secs - secs) time.nanos time.nanos_range

/-- A span of time, as `Duration` keeps it. -/
structure Duration where
  secs : Nat
  nanos : Nat

/-- `time.duration_since(UNIX_EPOCH)`: the span after the epoch, or as an error
    the span before it. -/
def SystemTime.durationSinceEpoch (time : SystemTime) : Except Duration Duration :=
  if 0 ≤ time.secs then .ok ⟨time.secs.toNat,time.nanos⟩
  else if time.nanos = 0 then .error ⟨(-time.secs).toNat,0⟩
  else .error ⟨(-time.secs - 1).toNat,10 ^ 9 - time.nanos⟩

/-- `i64::try_from(secs).unwrap_or(i64::MAX)`. -/
def clampSeconds (secs : Nat) : Int := if (secs : Int) ≤ 9223372036854775807 then secs else 9223372036854775807

def unixSeconds (time : SystemTime) : Int :=
  match time.durationSinceEpoch with
  | .ok duration => clampSeconds duration.secs
  | .error duration =>
    if duration.nanos = 0 then -clampSeconds duration.secs
    else Max.max (-clampSeconds duration.secs - 1) (-9223372036854775808)

def systemTimeFromUnix (seconds : Int) : SystemTime :=
  if 0 ≤ seconds then (unixEpoch.checkedAdd seconds.toNat).getD unixEpoch
  else (unixEpoch.checkedSub seconds.natAbs).getD unixEpoch

def observationBucketSeconds : Int := 60
def aggregationBucketSeconds : Int := 60 * 60

/-- The product is an `i64` multiplication, which wraps in a release build. -/
def observationBucketStart (observedAt : SystemTime) : SystemTime :=
  systemTimeFromUnix
    (Int.bmod (unixSeconds observedAt / observationBucketSeconds * observationBucketSeconds) (2 ^ 64))

/-- The UTC hour that a time is aggregated under. -/
def observationHour (time : SystemTime) : Int := unixSeconds time / aggregationBucketSeconds

/-- The start of the minute of a time is a time: all but the first eight seconds
    of the range, where that minute starts before the range does. -/
def MinuteFits (time : SystemTime) : Prop := -9223372036854775800 ≤ time.secs

instance (time : SystemTime) : Decidable (MinuteFits time) := inferInstanceAs (Decidable (_ ≤ _))

theorem unixSeconds_of_fits {time : SystemTime} (fits : MinuteFits time) : unixSeconds time = time.secs := by
  have range := time.secs_range
  have small := time.nanos_range
  unfold MinuteFits at fits
  unfold unixSeconds SystemTime.durationSinceEpoch
  by_cases after : 0 ≤ time.secs
  · have whole : ((time.secs.toNat : Nat) : Int) = time.secs := Int.toNat_of_nonneg after
    simp only [after,↓reduceIte,clampSeconds,whole,range.2]
  · by_cases exact : time.nanos = 0
    · have whole : (((-time.secs).toNat : Nat) : Int) = -time.secs := Int.toNat_of_nonneg (by omega)
      have room : -time.secs ≤ 9223372036854775807 := by omega
      simp only [after,exact,↓reduceIte,clampSeconds,whole,room]
      omega
    · have whole : (((-time.secs - 1).toNat : Nat) : Int) = -time.secs - 1 := Int.toNat_of_nonneg (by omega)
      have part : ¬ 10 ^ 9 - time.nanos = 0 := by omega
      have room : -time.secs - 1 ≤ 9223372036854775807 := by omega
      simp only [after,exact,part,↓reduceIte,clampSeconds,whole,room]
      omega

theorem systemTimeFromUnix_secs {seconds : Int} (range : -9223372036854775808 ≤ seconds ∧ seconds ≤ 9223372036854775807) :
    (systemTimeFromUnix seconds).secs = seconds := by
  unfold systemTimeFromUnix SystemTime.checkedAdd SystemTime.checkedSub atSecond
  by_cases after : 0 ≤ seconds
  · have whole : ((seconds.toNat : Nat) : Int) = seconds := Int.toNat_of_nonneg after
    simp only [after,↓reduceIte,unixEpoch,whole,Int.zero_add,range,and_self,↓reduceDIte,Option.getD_some]
  · have whole : ((seconds.natAbs : Nat) : Int) = -seconds := by omega
    simp only [after,↓reduceIte,unixEpoch,whole,Int.zero_sub,Int.neg_neg,range,and_self,↓reduceDIte,Option.getD_some]

/-- The start of the minute of a time is whole, and in the same minute. -/
theorem observationBucketStart_secs {time : SystemTime} (fits : MinuteFits time) :
    (observationBucketStart time).secs = time.secs / 60 * 60 := by
  have range := time.secs_range
  unfold MinuteFits at fits
  have minute : -9223372036854775808 ≤ time.secs / 60 * 60 ∧ time.secs / 60 * 60 ≤ 9223372036854775807 := by omega
  have unwrapped : Int.bmod (time.secs / 60 * 60) (2 ^ 64) = time.secs / 60 * 60 := by
    rw [Int.bmod_eq_of_le] <;> omega
  unfold observationBucketStart observationBucketSeconds
  rw [unixSeconds_of_fits fits,unwrapped,systemTimeFromUnix_secs minute]

theorem observationBucketStart_fits {time : SystemTime} (fits : MinuteFits time) :
    MinuteFits (observationBucketStart time) := by
  unfold MinuteFits at fits ⊢
  rw [observationBucketStart_secs fits]
  omega

/-- Rounding a time down to its minute keeps its hour, before the epoch too. -/
theorem observationHour_bucketStart {time : SystemTime} (fits : MinuteFits time) :
    observationHour (observationBucketStart time) = observationHour time := by
  unfold observationHour aggregationBucketSeconds
  rw [unixSeconds_of_fits fits,unixSeconds_of_fits (observationBucketStart_fits fits),
    observationBucketStart_secs fits]
  omega

/-- The later of two times is one of the two. -/
theorem max_cases (left right : SystemTime) : left.max right = left ∨ left.max right = right := by
  unfold SystemTime.max
  split
  · exact .inl rfl
  · exact .inr rfl

end NodeAgent.UnixTime
