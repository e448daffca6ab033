import Mathlib.Algebra.Group.Nat.Defs
import Mathlib.Data.UInt
import NodeAgent.Tally
import NodeAgent.UnixTime

/-!
The traffic aggregator. Counters are kept under an identity and the UTC hour of
their observation; a report carries the start of the minute of its last
observation, and `restore` reads the hour back from that minute. No byte is lost
between the two, and none moves to another hour (`tally_flushInner`,
`tally_restore`).
-/
namespace NodeAgent.Traffic
open NodeAgent.UnixTime NodeAgent.Tally

/-- Whose traffic a record is about. -/
structure Identity where
  machineId : String
  nodeId : String
  userId : String
  protocol : String
deriving DecidableEq

structure TrafficEvent extends Identity where
  uplinkBytes : UInt64
  downlinkBytes : UInt64
  observedAt : Option SystemTime

structure Report extends Identity where
  uplinkBytes : UInt64
  downlinkBytes : UInt64
  observedAt : SystemTime
  firstObservedAt : SystemTime

structure CounterKey extends Identity where
  observationHour : Int
deriving DecidableEq

structure CounterValue where
  uplink : UInt64
  downlink : UInt64
  firstObservedAt : SystemTime
  lastObservedAt : SystemTime

abbrev Counters := List (CounterKey × CounterValue)

structure Aggregator where
  minReportDeltaBytes : UInt64
  maxReportDelaySeconds : Int
  counters : Counters

/-- `counters.entry(key).or_insert(..)` and the additions to it. The map is a list
    of entries; its order is never read. -/
def addLocked (key : CounterKey) (uplink downlink : UInt64) (firstObservedAt observedAt : SystemTime) :
    Counters → Counters
  | [] => [(key,⟨0 + uplink,0 + downlink,firstObservedAt.min firstObservedAt,observedAt.max observedAt⟩)]
  | (other,value) :: rest =>
    if other = key then
      (other,⟨value.uplink + uplink,value.downlink + downlink,value.firstObservedAt.min firstObservedAt,
        value.lastObservedAt.max observedAt⟩) :: rest
    else (other,value) :: addLocked key uplink downlink firstObservedAt observedAt rest

/-- The time of an event: its own, or the aggregator's clock. -/
def TrafficEvent.time (event : TrafficEvent) (now : SystemTime) : SystemTime := event.observedAt.getD now

def TrafficEvent.key (event : TrafficEvent) (now : SystemTime) : CounterKey :=
  ⟨event.toIdentity,observationHour (event.time now)⟩

/-- The identity and hour that a report is filed under when it is restored. -/
def Report.key (report : Report) : CounterKey := ⟨report.toIdentity,observationHour report.observedAt⟩

def observe (aggregator : Aggregator) (now : SystemTime) (event : TrafficEvent) : Aggregator :=
  { aggregator with
    counters := addLocked (event.key now) event.uplinkBytes event.downlinkBytes (event.time now) (event.time now)
      aggregator.counters }

def restoreReport (counters : Counters) (report : Report) : Counters :=
  if report.uplinkBytes = 0 ∧ report.downlinkBytes = 0 then counters
  else addLocked report.key report.uplinkBytes report.downlinkBytes report.firstObservedAt report.observedAt counters

def restore (aggregator : Aggregator) (reports : List Report) : Aggregator :=
  { aggregator with counters := reports.foldl restoreReport aggregator.counters }

def shouldReport (aggregator : Aggregator) (value : CounterValue) (now : SystemTime) : Bool :=
  let total := value.uplink + value.downlink
  if total = 0 then false
  else if aggregator.minReportDeltaBytes = 0 ∨ aggregator.minReportDeltaBytes ≤ total then true
  else if aggregator.maxReportDelaySeconds ≤ 0 then false
  else match value.firstObservedAt.checkedAdd aggregator.maxReportDelaySeconds.toNat with
    | some deadline => now.cmp deadline ≠ .lt
    | none => false

def CounterValue.isZero (value : CounterValue) : Bool := value.uplink = 0 ∧ value.downlink = 0

/-- The report of one counter that left the map. -/
def reportOf (entry : CounterKey × CounterValue) : Report :=
  ⟨entry.1.toIdentity,entry.2.uplink,entry.2.downlink,observationBucketStart entry.2.lastObservedAt,
    entry.2.firstObservedAt⟩

/-- The order of a batch: oldest unreported traffic first. -/
def Report.cmp (left right : Report) : Ordering :=
  (left.firstObservedAt.cmp right.firstObservedAt).then <|
  (left.observedAt.cmp right.observedAt).then <|
  (compare left.machineId right.machineId).then <|
  (compare left.nodeId right.nodeId).then <|
  (compare left.userId right.userId).then <|
  compare left.protocol right.protocol

/-- Whether a flush takes the counter out of the map. -/
def extracts (aggregator : Aggregator) (now : SystemTime) (force : Bool) (entry : CounterKey × CounterValue) : Bool :=
  entry.2.isZero || force || shouldReport aggregator entry.2 now

def flushInner (aggregator : Aggregator) (now : SystemTime) (force : Bool) : List Report × Aggregator :=
  let taken := aggregator.counters.filter (extracts aggregator now force)
  let reports := (taken.filter (fun entry => !entry.2.isZero)).map reportOf
  (reports.mergeSort (fun left right => (left.cmp right).isLE),
    { aggregator with counters := aggregator.counters.filter (fun entry => !extracts aggregator now force entry) })

/-! ### Bytes of one direction -/

inductive Direction | uplink | downlink
deriving DecidableEq

def Direction.of (direction : Direction) (uplink downlink : UInt64) : UInt64 :=
  match direction with
  | .uplink => uplink
  | .downlink => downlink

def entryBytes (direction : Direction) (entry : CounterKey × CounterValue) : UInt64 :=
  direction.of entry.2.uplink entry.2.downlink
def reportBytes (direction : Direction) (report : Report) : UInt64 :=
  direction.of report.uplinkBytes report.downlinkBytes

/-- The bytes that the counters hold for an identity and hour. -/
def counted (direction : Direction) (key : CounterKey) (counters : Counters) : UInt64 :=
  tally Prod.fst (entryBytes direction) key counters

/-- The bytes of a list of reports for an identity and hour. -/
def reported (direction : Direction) (key : CounterKey) (reports : List Report) : UInt64 :=
  tally Report.key (reportBytes direction) key reports

theorem of_add (direction : Direction) (a b c d : UInt64) :
    direction.of (a + c) (b + d) = direction.of a b + direction.of c d := by
  cases direction <;> rfl

theorem of_zero {direction : Direction} {a b : UInt64} (zero : a = 0 ∧ b = 0) : direction.of a b = 0 := by
  cases direction with
  | uplink => exact zero.1
  | downlink => exact zero.2

theorem counted_addLocked (direction : Direction) (key target : CounterKey) (uplink downlink : UInt64)
    (first last : SystemTime) (counters : Counters) :
    counted direction key (addLocked target uplink downlink first last counters) =
      counted direction key counters + (if target = key then direction.of uplink downlink else 0) := by
  unfold counted
  induction counters with
  | nil => simp [addLocked,entryBytes]
  | cons entry rest ih =>
    obtain ⟨other,value⟩ := entry
    by_cases same : other = target
    · subst same
      simp only [addLocked,↓reduceIte,tally_cons,entryBytes,of_add]
      by_cases here : other = key
      · simp only [here,↓reduceIte]
        rw [add_right_comm]
      · simp [here]
    · simp only [addLocked,same,↓reduceIte,tally_cons,ih,add_assoc]

/-- Every byte of a restored report goes back under the hour it is read from. -/
theorem counted_restore (direction : Direction) (key : CounterKey) (aggregator : Aggregator) (reports : List Report) :
    counted direction key (restore aggregator reports).counters =
      counted direction key aggregator.counters + reported direction key reports := by
  unfold restore reported
  simp only
  induction reports generalizing aggregator with
  | nil => simp
  | cons report rest ih =>
    have tail := ih { aggregator with counters := restoreReport aggregator.counters report }
    simp only [List.foldl_cons,tally_cons] at tail ⊢
    rw [tail,← add_assoc]
    congr 1
    unfold restoreReport
    split
    · next zero => simp [reportBytes,of_zero zero]
    · rw [counted_addLocked]; rfl

/-! ### The hour of a counter -/

/-- Every counter lies in the hour of its last observation. -/
def HoursHold (counters : Counters) : Prop :=
  ∀ entry ∈ counters, MinuteFits entry.2.lastObservedAt ∧ observationHour entry.2.lastObservedAt = entry.1.observationHour

/-- The reports of a batch start their minute where it fits the range. -/
def ReportsFit (reports : List Report) : Prop := ∀ report ∈ reports, MinuteFits report.observedAt

theorem hoursHold_addLocked {counters : Counters} (holds : HoursHold counters) (key : CounterKey)
    (uplink downlink : UInt64) (first last : SystemTime) (fits : MinuteFits last)
    (hour : observationHour last = key.observationHour) :
    HoursHold (addLocked key uplink downlink first last counters) := by
  induction counters with
  | nil =>
    intro entry member
    simp only [addLocked,List.mem_singleton] at member
    subst member
    have same : last.max last = last := by rcases max_cases last last with h | h <;> exact h
    simp only [same]
    exact ⟨fits,hour⟩
  | cons head rest ih =>
    obtain ⟨other,value⟩ := head
    have headHolds := holds (other,value) List.mem_cons_self
    have restHolds : HoursHold rest := fun entry member => holds entry (List.mem_cons_of_mem _ member)
    by_cases same : other = key
    · subst same
      simp only [addLocked,↓reduceIte]
      intro entry member
      rcases List.mem_cons.mp member with rfl | later
      · rcases max_cases value.lastObservedAt last with latest | latest
        · simp only [latest]; exact headHolds
        · simp only [latest]; exact ⟨fits,hour⟩
      · exact restHolds entry later
    · simp only [addLocked,same,↓reduceIte]
      intro entry member
      rcases List.mem_cons.mp member with rfl | later
      · exact headHolds
      · exact ih restHolds entry later

theorem hoursHold_observe {aggregator : Aggregator} (holds : HoursHold aggregator.counters) (now : SystemTime)
    (event : TrafficEvent) (fits : MinuteFits (event.time now)) : HoursHold (observe aggregator now event).counters :=
  hoursHold_addLocked holds _ _ _ _ _ fits rfl

theorem hoursHold_restore {aggregator : Aggregator} (holds : HoursHold aggregator.counters) (reports : List Report)
    (fit : ReportsFit reports) : HoursHold (restore aggregator reports).counters := by
  unfold restore
  simp only
  induction reports generalizing aggregator with
  | nil => exact holds
  | cons report rest ih =>
    have restFit : ReportsFit rest := fun other member => fit other (List.mem_cons_of_mem _ member)
    have reportFits : MinuteFits report.observedAt := fit report List.mem_cons_self
    have once : HoursHold (restoreReport aggregator.counters report) := by
      unfold restoreReport
      split
      · exact holds
      · exact hoursHold_addLocked holds _ _ _ _ _ reportFits rfl
    exact @ih { aggregator with counters := restoreReport aggregator.counters report } once restFit

theorem hoursHold_flushInner {aggregator : Aggregator} (holds : HoursHold aggregator.counters) (now : SystemTime)
    (force : Bool) :
    HoursHold (flushInner aggregator now force).2.counters ∧ ReportsFit (flushInner aggregator now force).1 := by
  constructor
  · intro entry member
    exact holds entry (List.mem_filter.mp member).1
  · intro report member
    have unsorted := (List.mergeSort_perm _ _).mem_iff.mp member
    obtain ⟨entry,taken,rfl⟩ := List.mem_map.mp unsorted
    have counted := (List.mem_filter.mp (List.mem_filter.mp taken).1).1
    exact observationBucketStart_fits (holds entry counted).1

/-- The report of a counter names the counter's identity and hour. -/
theorem reportOf_key {counters : Counters} (holds : HoursHold counters) {entry : CounterKey × CounterValue}
    (member : entry ∈ counters) : (reportOf entry).key = entry.1 := by
  obtain ⟨fits,hour⟩ := holds entry member
  simp only [Report.key,reportOf,observationHour_bucketStart fits,hour]

/-- What a flush takes out of the counters it puts into the reports, hour by hour. -/
theorem counted_flushInner (direction : Direction) (key : CounterKey) {aggregator : Aggregator}
    (holds : HoursHold aggregator.counters) (now : SystemTime) (force : Bool) :
    counted direction key aggregator.counters =
      counted direction key (flushInner aggregator now force).2.counters +
        reported direction key (flushInner aggregator now force).1 := by
  have sorted : reported direction key (flushInner aggregator now force).1 =
      reported direction key (((aggregator.counters.filter (extracts aggregator now force)).filter
        (fun entry => !entry.2.isZero)).map reportOf) :=
    tally_perm _ _ _ (List.mergeSort_perm _ _)
  have named : reported direction key (((aggregator.counters.filter (extracts aggregator now force)).filter
        (fun entry => !entry.2.isZero)).map reportOf) =
      counted direction key ((aggregator.counters.filter (extracts aggregator now force)).filter
        (fun entry => !entry.2.isZero)) := by
    refine tally_map _ _ _ _ _ _ _ (fun entry taken => ⟨?_,rfl⟩)
    exact reportOf_key holds (List.mem_filter.mp (List.mem_filter.mp taken).1).1
  have empty : counted direction key ((aggregator.counters.filter (extracts aggregator now force)).filter
        (fun entry => !entry.2.isZero)) =
      counted direction key (aggregator.counters.filter (extracts aggregator now force)) := by
    refine tally_filter_of_zero _ _ _ _ _ (fun entry _ dropped => ?_)
    have zero : entry.2.isZero = true := by simpa using dropped
    exact of_zero (by simpa [CounterValue.isZero] using zero)
  have split := tally_split Prod.fst (entryBytes direction) key (extracts aggregator now force) aggregator.counters
  rw [sorted,named,empty]
  simp only [flushInner,counted] at split ⊢
  rw [← split,add_comm]

end NodeAgent.Traffic
