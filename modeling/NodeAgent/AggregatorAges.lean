import Mathlib.Data.List.Pairwise
import NodeAgent.Traffic
import NodeAgent.Transition

/-!
How old undelivered traffic is. A counter keeps the time of its first observation, a report
takes it along, and a report that could not be queued brings it back; with the observations
of every counter and report written down beside them, that time is always the time of the
oldest observation that is still to be delivered.
-/
namespace NodeAgent.AggregatorAges
open NodeAgent.UnixTime NodeAgent.Traffic NodeAgent.Transition

/-- An observation with the clock that it was made at. -/
structure Observation where
  now : SystemTime
  event : TrafficEvent

def Observation.time (observation : Observation) : SystemTime := observation.event.time observation.now

def Observation.key (observation : Observation) : CounterKey := observation.event.key observation.now

/-- A report with the observations whose traffic it carries. -/
structure Carried where
  report : Report
  observations : List Observation

structure State where
  aggregator : Aggregator
  /-- The observations whose traffic is in the counter of a key. -/
  reached : CounterKey → List Observation
  /-- The batches that were flushed and are still being queued. -/
  batches : List (List Carried)
  observed : List Observation
  delivered : List Observation
  /-- The observations of counters that were dropped, since there was nothing to deliver. -/
  discarded : List Observation

def initial (minReportDeltaBytes : UInt64) (maxReportDelaySeconds : Int) : State :=
  ⟨⟨minReportDeltaBytes,maxReportDelaySeconds,[]⟩,fun _ => [],[],[],[],[]⟩

inductive Event
  | observe (observation : Observation)
  /-- `flush`, or `flush_all` when forced. -/
  | flush (now : SystemTime) (force : Bool)
  /-- The batch at an index is through: so many of its reports were queued, the others go back. -/
  | restore (index queued : Nat)

/-- The counters that a flush takes out of the map. -/
def takenBy (aggregator : Aggregator) (now : SystemTime) (force : Bool) : Counters :=
  aggregator.counters.filter (extracts aggregator now force)

/-- The reports of a flush with their observations. -/
def carriedBy (s : State) (now : SystemTime) (force : Bool) : List Carried :=
  (((takenBy s.aggregator now force).filter (fun entry => !entry.2.isZero)).map (fun entry => ⟨reportOf entry,s.reached entry.1⟩)).mergeSort
    (fun left right => (left.report.cmp right.report).isLE)

/-- A batch is what `flush_inner` returns. -/
theorem carriedBy_reports (s : State) (now : SystemTime) (force : Bool) :
    (carriedBy s now force).map Carried.report = (flushInner s.aggregator now force).1 := by
  refine (@List.map_mergeSort _ _ _ (fun left right : Report => (left.cmp right).isLE) _ _ (fun _ _ _ _ => rfl)).trans ?_
  rw [List.map_map]
  rfl

/-- The observations of the reports under a key. -/
def broughtBack (reports : List Carried) (key : CounterKey) : List Observation :=
  (reports.filter (fun carried => carried.report.key = key)).flatMap Carried.observations

def step (s : State) : Event → Option State
  | .observe observation =>
    some { s with
      aggregator := observe s.aggregator observation.now observation.event
      reached := fun key => if key = observation.key then s.reached key ++ [observation] else s.reached key
      observed := s.observed ++ [observation] }
  | .flush now force =>
    some { s with
      aggregator := (flushInner s.aggregator now force).2
      reached := fun key => if key ∈ (takenBy s.aggregator now force).map Prod.fst then [] else s.reached key
      batches := s.batches ++ [carriedBy s now force]
      discarded := s.discarded ++ ((takenBy s.aggregator now force).filter (fun entry => entry.2.isZero)).flatMap (fun entry => s.reached entry.1) }
  | .restore index queued =>
    match s.batches[index]? with
    | none => none
    | some batch =>
      some { s with
        aggregator := restore s.aggregator ((batch.drop queued).map Carried.report)
        reached := fun key => s.reached key ++ broughtBack (batch.drop queued) key
        batches := s.batches.eraseIdx index
        delivered := s.delivered ++ (batch.take queued).flatMap Carried.observations }

/-! ### Times -/

theorem cmp_gt_iff {a b : SystemTime} : a.cmp b = .gt ↔ b.secs < a.secs ∨ (a.secs = b.secs ∧ b.nanos < a.nanos) := by
  unfold SystemTime.cmp
  rw [Ordering.then_eq_gt,compare_gt_iff_gt,compare_gt_iff_gt,compare_eq_iff_eq]

theorem cmp_lt_iff {a b : SystemTime} : a.cmp b = .lt ↔ a.secs < b.secs ∨ (a.secs = b.secs ∧ a.nanos < b.nanos) := by
  unfold SystemTime.cmp
  rw [Ordering.then_eq_lt,compare_lt_iff_lt,compare_lt_iff_lt,compare_eq_iff_eq]

/-- The earliest of the times of some observations. -/
structure Oldest (observations : List Observation) (time : SystemTime) : Prop where
  among : ∃ observation ∈ observations, observation.time = time
  first : ∀ observation ∈ observations, time.cmp observation.time ≠ .gt

theorem Oldest.single (observation : Observation) : Oldest [observation] observation.time := by
  refine ⟨⟨observation,List.mem_singleton_self _,rfl⟩,?_⟩
  intro other member
  rw [List.mem_singleton.mp member,Ne,cmp_gt_iff]
  omega

theorem Oldest.append {xs ys : List Observation} {a b : SystemTime} (oldest : Oldest xs a) (oldest' : Oldest ys b) : Oldest (xs ++ ys) (a.min b) := by
  obtain ⟨⟨x,x_in,x_time⟩,first⟩ := oldest
  obtain ⟨⟨y,y_in,y_time⟩,first'⟩ := oldest'
  unfold SystemTime.min
  split
  · next later =>
    refine ⟨⟨y,List.mem_append_right _ y_in,y_time⟩,?_⟩
    intro o member
    rcases List.mem_append.mp member with in_xs | in_ys
    · have after := first o in_xs
      rw [Ne,cmp_gt_iff] at after ⊢
      rw [cmp_gt_iff] at later
      omega
    · exact first' o in_ys
  · next earlier =>
    refine ⟨⟨x,List.mem_append_left _ x_in,x_time⟩,?_⟩
    intro o member
    rcases List.mem_append.mp member with in_xs | in_ys
    · exact first o in_xs
    · have after := first' o in_ys
      rw [Ne,cmp_gt_iff] at after ⊢
      rw [cmp_gt_iff] at earlier
      omega

/-! ### Counters and the observations in them -/

/-- What the observations of a counter add up to, and the time of the oldest. -/
structure Holding (observations : List Observation) (uplink downlink : UInt64) (first : SystemTime) : Prop where
  uplink : (observations.map (fun observation => observation.event.uplinkBytes)).sum = uplink
  downlink : (observations.map (fun observation => observation.event.downlinkBytes)).sum = downlink
  oldest : Oldest observations first

theorem Holding.append {xs ys : List Observation} {up down up' down' : UInt64} {first first' : SystemTime}
    (holding : Holding xs up down first) (holding' : Holding ys up' down' first') :
    Holding (xs ++ ys) (up + up') (down + down') (first.min first') := by
  constructor
  · rw [List.map_append,List.sum_append,holding.uplink,holding'.uplink]
  · rw [List.map_append,List.sum_append,holding.downlink,holding'.downlink]
  · exact holding.oldest.append holding'.oldest

/-- The counters hold what reached their keys, and nothing reached a key without one. -/
structure Filed (counters : Counters) (reached : CounterKey → List Observation) : Prop where
  nodup : (counters.map Prod.fst).Nodup
  holding : ∀ entry ∈ counters, Holding (reached entry.1) entry.2.uplink entry.2.downlink entry.2.firstObservedAt
  absent : ∀ key, key ∉ counters.map Prod.fst → reached key = []

theorem mem_keys_addLocked {key target : CounterKey} {up down : UInt64} {first last : SystemTime} {counters : Counters} :
    key ∈ (addLocked target up down first last counters).map Prod.fst ↔ key = target ∨ key ∈ counters.map Prod.fst := by
  induction counters with
  | nil => simp [addLocked]
  | cons entry rest ih =>
    obtain ⟨other,value⟩ := entry
    by_cases same : other = target
    · simp only [addLocked,same,↓reduceIte,List.map_cons,List.mem_cons]
      tauto
    · simp only [addLocked,same,↓reduceIte,List.map_cons,List.mem_cons,ih]
      tauto

theorem nodup_addLocked {target : CounterKey} {up down : UInt64} {first last : SystemTime} {counters : Counters}
    (nodup : (counters.map Prod.fst).Nodup) : ((addLocked target up down first last counters).map Prod.fst).Nodup := by
  induction counters with
  | nil => simp [addLocked]
  | cons entry rest ih =>
    obtain ⟨other,value⟩ := entry
    obtain ⟨apart,rest_nodup⟩ := List.nodup_cons.mp nodup
    by_cases same : other = target
    · simp only [addLocked,same,↓reduceIte]
      rw [← same]
      exact nodup
    · simp only [addLocked,same,↓reduceIte,List.map_cons,List.nodup_cons]
      refine ⟨?_,ih rest_nodup⟩
      rw [mem_keys_addLocked]
      rintro (rfl | again)
      · exact same rfl
      · exact apart again

/-- A counter after an addition is one from before, the one added to, or a new one. -/
theorem mem_addLocked {target : CounterKey} {up down : UInt64} {first last : SystemTime} {counters : Counters}
    (nodup : (counters.map Prod.fst).Nodup) {entry : CounterKey × CounterValue}
    (member : entry ∈ addLocked target up down first last counters) :
    (entry.1 ≠ target ∧ entry ∈ counters) ∨
    (entry.1 = target ∧ ∃ value, (target,value) ∈ counters ∧
      entry.2 = ⟨value.uplink + up,value.downlink + down,value.firstObservedAt.min first,value.lastObservedAt.max last⟩) ∨
    (entry.1 = target ∧ target ∉ counters.map Prod.fst ∧ entry.2 = ⟨0 + up,0 + down,first.min first,last.max last⟩) := by
  induction counters with
  | nil =>
    simp only [addLocked,List.mem_singleton] at member
    subst member
    exact .inr (.inr ⟨rfl,by simp,rfl⟩)
  | cons head rest ih =>
    obtain ⟨other,value⟩ := head
    obtain ⟨apart,rest_nodup⟩ := List.nodup_cons.mp nodup
    by_cases same : other = target
    · subst same
      simp only [addLocked,↓reduceIte,List.mem_cons] at member
      rcases member with rfl | later
      · exact .inr (.inl ⟨rfl,value,List.mem_cons_self,rfl⟩)
      · refine .inl ⟨?_,List.mem_cons_of_mem _ later⟩
        intro here
        have again : entry.1 ∈ rest.map Prod.fst := List.mem_map_of_mem later
        rw [here] at again
        exact apart again
    · simp only [addLocked,same,↓reduceIte,List.mem_cons] at member
      rcases member with rfl | later
      · exact .inl ⟨same,List.mem_cons_self⟩
      · rcases ih rest_nodup later with ⟨elsewhere,old⟩ | ⟨here,old,held,merged⟩ | ⟨here,unheld,fresh⟩
        · exact .inl ⟨elsewhere,List.mem_cons_of_mem _ old⟩
        · exact .inr (.inl ⟨here,old,List.mem_cons_of_mem _ held,merged⟩)
        · refine .inr (.inr ⟨here,?_,fresh⟩)
          rw [List.map_cons,List.mem_cons]
          rintro (again | again)
          · exact same again.symm
          · exact unheld again

theorem min_self (time : SystemTime) : time.min time = time := by
  unfold SystemTime.min
  split <;> rfl

/-- What is added to a counter reaches its key: a fresh event or a report that comes back. -/
theorem Filed.add {counters : Counters} {reached : CounterKey → List Observation} (filed : Filed counters reached)
    (target : CounterKey) {up down : UInt64} {first : SystemTime} (last : SystemTime) {observations : List Observation}
    (holding : Holding observations up down first) :
    Filed (addLocked target up down first last counters)
      (fun key => if key = target then reached key ++ observations else reached key) := by
  constructor
  · exact nodup_addLocked filed.nodup
  · intro entry member
    rcases mem_addLocked filed.nodup member with ⟨elsewhere,old⟩ | ⟨here,value,held,merged⟩ | ⟨here,unheld,fresh⟩
    · simp only [elsewhere,↓reduceIte]
      exact filed.holding entry old
    · simp only [here,↓reduceIte,merged]
      exact (filed.holding (target,value) held).append holding
    · simp only [here,↓reduceIte,fresh,filed.absent target unheld,List.nil_append,UInt64.zero_add,min_self]
      exact holding
  · intro key unheld
    rw [mem_keys_addLocked,not_or] at unheld
    simp only [unheld.1,↓reduceIte]
    exact filed.absent key unheld.2

/-- A flush leaves the counters that it does not take. -/
theorem Filed.leave {aggregator : Aggregator} {reached : CounterKey → List Observation} (filed : Filed aggregator.counters reached)
    (now : SystemTime) (force : Bool) :
    Filed (flushInner aggregator now force).2.counters
      (fun key => if key ∈ (takenBy aggregator now force).map Prod.fst then [] else reached key) := by
  have apart : ∀ entry ∈ (flushInner aggregator now force).2.counters, entry.1 ∉ (takenBy aggregator now force).map Prod.fst := by
    intro entry member taken
    obtain ⟨kept,unextracted⟩ := List.mem_filter.mp member
    obtain ⟨other,other_taken,same⟩ := List.mem_map.mp taken
    obtain ⟨held,extracted⟩ := List.mem_filter.mp other_taken
    have one : other = entry := List.inj_on_of_nodup_map filed.nodup held kept same
    rw [one] at extracted
    simp [extracted] at unextracted
  constructor
  · exact filed.nodup.sublist (List.filter_sublist.map Prod.fst)
  · intro entry member
    simp only [apart entry member,↓reduceIte]
    exact filed.holding entry (List.mem_filter.mp member).1
  · intro key unheld
    by_cases taken : key ∈ (takenBy aggregator now force).map Prod.fst
    · simp only [taken,↓reduceIte]
    · simp only [taken,↓reduceIte]
      apply filed.absent key
      intro held
      obtain ⟨entry,member,rfl⟩ := List.mem_map.mp held
      by_cases extracted : extracts aggregator now force entry = true
      · exact taken (List.mem_map_of_mem (List.mem_filter.mpr ⟨member,extracted⟩))
      · exact unheld (List.mem_map_of_mem (List.mem_filter.mpr ⟨member,by simp [extracted]⟩))

/-- A report tells of its observations, and is one that `restore` does not skip. -/
structure Told (carried : Carried) : Prop where
  fits : MinuteFits carried.report.observedAt
  nonzero : ¬ (carried.report.uplinkBytes = 0 ∧ carried.report.downlinkBytes = 0)
  keyed : ∀ observation ∈ carried.observations, observation.key = carried.report.key
  holding : Holding carried.observations carried.report.uplinkBytes carried.report.downlinkBytes carried.report.firstObservedAt

theorem broughtBack_cons (carried : Carried) (rest : List Carried) (key : CounterKey) :
    broughtBack (carried :: rest) key = (if key = carried.report.key then carried.observations else []) ++ broughtBack rest key := by
  unfold broughtBack
  by_cases here : key = carried.report.key
  · simp [here]
  · have elsewhere : ¬ carried.report.key = key := fun same => here same.symm
    simp [here,elsewhere]

/-- The reports that come back are merged into the counters one by one. -/
theorem Filed.restored {aggregator : Aggregator} {reached : CounterKey → List Observation} (filed : Filed aggregator.counters reached)
    {reports : List Carried} (told : ∀ carried ∈ reports, Told carried) :
    Filed (restore aggregator (reports.map Carried.report)).counters (fun key => reached key ++ broughtBack reports key) := by
  unfold restore
  simp only
  induction reports generalizing aggregator reached with
  | nil => simpa [broughtBack] using filed
  | cons carried rest ih =>
    obtain ⟨carried_told,rest_told⟩ := List.forall_mem_cons.mp told
    have once := filed.add carried.report.key carried.report.observedAt carried_told.holding
    have tail := @ih { aggregator with counters := restoreReport aggregator.counters carried.report } _ (by
      rw [restoreReport,if_neg carried_told.nonzero]
      exact once) rest_told
    simp only [List.map_cons,List.foldl_cons]
    convert tail using 2 with key
    rw [broughtBack_cons]
    by_cases here : key = carried.report.key
    · simp only [here,↓reduceIte,List.append_assoc]
    · simp only [here,↓reduceIte,List.nil_append]

/-! ### Where the observations of a key are -/

def ofKey (key : CounterKey) (observations : List Observation) : List Observation :=
  observations.filter (fun observation => observation.key = key)

@[simp] theorem ofKey_nil (key : CounterKey) : ofKey key [] = [] := rfl

@[simp] theorem ofKey_append (key : CounterKey) (xs ys : List Observation) : ofKey key (xs ++ ys) = ofKey key xs ++ ofKey key ys :=
  List.filter_append ..

theorem ofKey_perm (key : CounterKey) {xs ys : List Observation} (perm : xs.Perm ys) : (ofKey key xs).Perm (ofKey key ys) :=
  perm.filter _

theorem ofKey_of_all {key other : CounterKey} {observations : List Observation}
    (keyed : ∀ observation ∈ observations, observation.key = other) : ofKey key observations = if key = other then observations else [] := by
  unfold ofKey
  by_cases here : key = other
  · simp only [here,↓reduceIte,List.filter_eq_self]
    intro observation member
    simpa using keyed observation member
  · simp only [here,↓reduceIte,List.filter_eq_nil_iff]
    intro observation member
    rw [keyed observation member]
    simpa using fun same => here same.symm

/-- The observations that are in a batch, or in the counters a flush took. -/
theorem ofKey_broughtBack {reports : List Carried} (told : ∀ carried ∈ reports, Told carried) (key : CounterKey) :
    ofKey key (reports.flatMap Carried.observations) = broughtBack reports key := by
  induction reports with
  | nil => rfl
  | cons carried rest ih =>
    obtain ⟨carried_told,rest_told⟩ := List.forall_mem_cons.mp told
    rw [List.flatMap_cons,ofKey_append,broughtBack_cons,ih rest_told,ofKey_of_all carried_told.keyed]

theorem ofKey_taken {reached : CounterKey → List Observation} (keyed : ∀ key, ∀ observation ∈ reached key, observation.key = key)
    {counters : Counters} (nodup : (counters.map Prod.fst).Nodup) (key : CounterKey) :
    ofKey key (counters.flatMap (fun entry => reached entry.1)) = if key ∈ counters.map Prod.fst then reached key else [] := by
  induction counters with
  | nil => rfl
  | cons entry rest ih =>
    obtain ⟨apart,rest_nodup⟩ := List.nodup_cons.mp nodup
    rw [List.flatMap_cons,ofKey_append,ih rest_nodup,ofKey_of_all (keyed entry.1)]
    by_cases here : key = entry.1
    · subst here
      simp [apart]
    · simp only [here,↓reduceIte,List.nil_append,List.map_cons,List.mem_cons,false_or]

theorem told_of_carriedBy {s : State} (filed : Filed s.aggregator.counters s.reached) (hours : HoursHold s.aggregator.counters)
    (keyed : ∀ key, ∀ observation ∈ s.reached key, observation.key = key) (now : SystemTime) (force : Bool) :
    ∀ carried ∈ carriedBy s now force, Told carried := by
  intro carried member
  obtain ⟨entry,chosen,rfl⟩ := List.mem_map.mp ((List.mergeSort_perm _ _).mem_iff.mp member)
  obtain ⟨taken,nonzero⟩ := List.mem_filter.mp chosen
  have held := (List.mem_filter.mp taken).1
  constructor
  · exact observationBucketStart_fits (hours entry held).1
  · rintro ⟨up,down⟩
    change entry.2.uplink = 0 at up
    change entry.2.downlink = 0 at down
    simp [CounterValue.isZero,up,down] at nonzero
  · intro observation reached
    rw [reportOf_key hours held]
    exact keyed entry.1 observation reached
  · exact filed.holding entry held

/-- What the counters that a flush takes hold is in its batch, or dropped with the counter. -/
theorem ofKey_carriedBy {s : State} (filed : Filed s.aggregator.counters s.reached)
    (keyed : ∀ key, ∀ observation ∈ s.reached key, observation.key = key) (now : SystemTime) (force : Bool) (key : CounterKey) :
    (ofKey key (((takenBy s.aggregator now force).filter (fun entry => entry.2.isZero)).flatMap (fun entry => s.reached entry.1)) ++
      ofKey key ((carriedBy s now force).flatMap Carried.observations)).Perm
      (if key ∈ (takenBy s.aggregator now force).map Prod.fst then s.reached key else []) := by
  have batch : ((carriedBy s now force).flatMap Carried.observations).Perm
      (((takenBy s.aggregator now force).filter (fun entry => !entry.2.isZero)).flatMap (fun entry => s.reached entry.1)) := by
    have unsorted := (List.mergeSort_perm (((takenBy s.aggregator now force).filter (fun entry => !entry.2.isZero)).map
      (fun entry => (⟨reportOf entry,s.reached entry.1⟩ : Carried))) (fun left right => (left.report.cmp right.report).isLE)).flatMap_right
      Carried.observations
    rwa [List.flatMap_map] at unsorted
  have nodup : ((takenBy s.aggregator now force).map Prod.fst).Nodup := filed.nodup.sublist (List.filter_sublist.map Prod.fst)
  rw [← ofKey_taken keyed nodup key,← ofKey_append]
  apply ofKey_perm
  have parts := (List.filter_append_perm (fun entry : CounterKey × CounterValue => entry.2.isZero)
    (takenBy s.aggregator now force)).flatMap_right (fun entry => s.reached entry.1)
  rw [List.flatMap_append] at parts
  exact (batch.append_left _).trans parts

/-! ### Every run -/

/-- What holds in every state: the counters tell of what reached them, every report of what it
    carries, and each observation is in its counter, in one batch, delivered or discarded. -/
structure Aged (s : State) : Prop where
  filed : Filed s.aggregator.counters s.reached
  hours : HoursHold s.aggregator.counters
  keyed : ∀ key, ∀ observation ∈ s.reached key, observation.key = key
  told : ∀ batch ∈ s.batches, ∀ carried ∈ batch, Told carried
  whole : ∀ key, (ofKey key s.observed).Perm
    (s.reached key ++ ofKey key (s.batches.flatten.flatMap Carried.observations ++ s.delivered ++ s.discarded))

theorem aged_initial (minReportDeltaBytes : UInt64) (maxReportDelaySeconds : Int) : Aged (initial minReportDeltaBytes maxReportDelaySeconds) where
  filed := ⟨List.nodup_nil,by simp [initial],by simp [initial]⟩
  hours := by simp [initial,HoursHold]
  keyed := by simp [initial]
  told := by simp [initial]
  whole := by simp [initial]

/-- An event is not an observation whose minute starts before the range of times does. -/
def Proper : Event → Prop
  | .observe observation => MinuteFits observation.time
  | _ => True

theorem Aged.observed {s : State} (aged : Aged s) {observation : Observation} (fits : MinuteFits observation.time) {s' : State}
    (taken : step s (.observe observation) = some s') : Aged s' := by
  cases taken
  constructor
  · exact aged.filed.add observation.key observation.time
      ⟨by simp,by simp,Oldest.single observation⟩
  · exact hoursHold_observe aged.hours observation.now observation.event fits
  · intro key other member
    by_cases here : key = observation.key
    · simp only [here,↓reduceIte] at member
      rcases List.mem_append.mp member with before | new
      · rw [here]
        exact aged.keyed _ other before
      · rw [List.mem_singleton.mp new,here]
    · simp only [here,↓reduceIte] at member
      exact aged.keyed key other member
  · exact aged.told
  · intro key
    have whole := aged.whole key
    simp only [ofKey_append] at whole ⊢
    by_cases here : key = observation.key
    · have new : ofKey key [observation] = [observation] := by simp [ofKey,here]
      simp only [here,↓reduceIte] at whole new ⊢
      rw [new]
      classical
      rw [List.perm_iff_count] at whole ⊢
      intro other
      have counted := whole other
      simp only [List.count_append] at counted ⊢
      omega
    · have new : ofKey key [observation] = [] := by
        simpa [ofKey] using fun same => here same.symm
      simpa only [here,↓reduceIte,new,List.append_nil] using whole

theorem Aged.flushed {s : State} (aged : Aged s) {now : SystemTime} {force : Bool} {s' : State}
    (taken : step s (.flush now force) = some s') : Aged s' := by
  cases taken
  constructor
  · exact aged.filed.leave now force
  · exact (hoursHold_flushInner aged.hours now force).1
  · intro key observation member
    simp only at member
    split at member
    · simp at member
    · exact aged.keyed key observation member
  · intro batch member
    rcases List.mem_append.mp member with before | new
    · exact aged.told batch before
    · rw [List.mem_singleton.mp new]
      exact told_of_carriedBy aged.filed aged.hours aged.keyed now force
  · intro key
    have whole := aged.whole key
    have moved := ofKey_carriedBy aged.filed aged.keyed now force key
    simp only [List.flatten_append,List.flatMap_append,ofKey_append,List.flatten_singleton] at whole ⊢
    classical
    rw [List.perm_iff_count] at whole moved ⊢
    intro observation
    have counted := whole observation
    have counted_moved := moved observation
    by_cases left : key ∈ (takenBy s.aggregator now force).map Prod.fst
    · simp only [left,↓reduceIte,List.count_append,List.count_nil] at counted counted_moved ⊢
      omega
    · simp only [left,↓reduceIte,List.count_append,List.count_nil] at counted counted_moved ⊢
      omega

theorem Aged.restored {s : State} (aged : Aged s) {index queued : Nat} {s' : State}
    (taken : step s (.restore index queued) = some s') : Aged s' := by
  simp only [step] at taken
  cases found : s.batches[index]? with
  | none => simp [found] at taken
  | some batch =>
    simp only [found,Option.some.injEq] at taken
    subst taken
    obtain ⟨small,rfl⟩ := List.getElem?_eq_some_iff.mp found
    have batch_told := aged.told _ (List.getElem_mem small)
    have back_told : ∀ carried ∈ s.batches[index].drop queued, Told carried :=
      fun carried member => batch_told carried (List.mem_of_mem_drop member)
    constructor
    · exact aged.filed.restored back_told
    · apply hoursHold_restore aged.hours
      intro report member
      obtain ⟨carried,back,rfl⟩ := List.mem_map.mp member
      exact (back_told carried back).fits
    · intro key observation member
      rcases List.mem_append.mp member with before | back
      · exact aged.keyed key observation before
      · obtain ⟨carried,chosen,inside⟩ := List.mem_flatMap.mp back
        obtain ⟨batched,here⟩ := List.mem_filter.mp chosen
        rw [(back_told carried batched).keyed observation inside]
        simpa using here
    · exact fun other member => aged.told other (List.mem_of_mem_eraseIdx member)
    · intro key
      have whole := aged.whole key
      have back := ofKey_broughtBack back_told key
      have one := (List.getElem_cons_eraseIdx_perm small).flatten.flatMap_right Carried.observations
      have parts : s.batches[index].flatMap Carried.observations =
          (s.batches[index].take queued).flatMap Carried.observations ++ (s.batches[index].drop queued).flatMap Carried.observations := by
        rw [← List.flatMap_append,List.take_append_drop]
      have here := ofKey_perm key one
      rw [List.flatten_cons,List.flatMap_append,parts] at here
      simp only [ofKey_append,back] at whole here ⊢
      classical
      rw [List.perm_iff_count] at whole here ⊢
      intro observation
      have counted := whole observation
      have counted_here := here observation
      simp only [List.count_append] at counted counted_here ⊢
      omega

theorem aged_run {minReportDeltaBytes : UInt64} {maxReportDelaySeconds : Int} {events : List Event} {s : State}
    (run : Run step (initial minReportDeltaBytes maxReportDelaySeconds) events s) (proper : ∀ e ∈ events, Proper e) : Aged s := by
  refine run.keeps (I := fun _ s => Aged s) Proper (aged_initial _ _) ?_ proper
  intro _ s e s' aged e_proper taken
  cases e with
  | observe observation => exact aged.observed e_proper taken
  | flush now force => exact aged.flushed taken
  | restore index queued => exact aged.restored taken

/-- A run leaves the configuration of the aggregator alone. -/
theorem delay_of_run {minReportDeltaBytes : UInt64} {maxReportDelaySeconds : Int} {events : List Event} {s : State}
    (run : Run step (initial minReportDeltaBytes maxReportDelaySeconds) events s) :
    s.aggregator.maxReportDelaySeconds = maxReportDelaySeconds := by
  refine run.invariant (I := fun s => s.aggregator.maxReportDelaySeconds = maxReportDelaySeconds) rfl ?_
  intro s e s' kept taken
  cases e with
  | observe observation => cases taken; exact kept
  | flush now force => cases taken; exact kept
  | restore index queued =>
    simp only [step] at taken
    cases found : s.batches[index]? with
    | none => simp [found] at taken
    | some batch => simp only [found,Option.some.injEq] at taken; subst taken; exact kept

/-! ### Overdue counters -/

/-- An observation has waited for so many seconds. -/
def Overdue (time now : SystemTime) (seconds : Int) : Prop :=
  time.secs + seconds < now.secs ∨ (time.secs + seconds = now.secs ∧ time.nanos ≤ now.nanos)

theorem shouldReport_of_overdue {aggregator : Aggregator} {value : CounterValue} {now : SystemTime}
    (delay : 0 < aggregator.maxReportDelaySeconds) (overdue : Overdue value.firstObservedAt now aggregator.maxReportDelaySeconds)
    (bytes : value.uplink + value.downlink ≠ 0) : shouldReport aggregator value now = true := by
  have first_range := value.firstObservedAt.secs_range
  have now_range := now.secs_range
  have whole : ((aggregator.maxReportDelaySeconds.toNat : Nat) : Int) = aggregator.maxReportDelaySeconds := Int.toNat_of_nonneg (by omega)
  unfold Overdue at overdue
  have fits : -9223372036854775808 ≤ value.firstObservedAt.secs + aggregator.maxReportDelaySeconds ∧
      value.firstObservedAt.secs + aggregator.maxReportDelaySeconds ≤ 9223372036854775807 := by omega
  unfold shouldReport
  simp only [bytes,↓reduceIte]
  by_cases enough : aggregator.minReportDeltaBytes = 0 ∨ aggregator.minReportDeltaBytes ≤ value.uplink + value.downlink
  · simp only [enough,↓reduceIte]
  · have positive : ¬ aggregator.maxReportDelaySeconds ≤ 0 := by omega
    simp only [enough,positive,↓reduceIte,SystemTime.checkedAdd,atSecond,whole,fits,and_self,↓reduceDIte,decide_eq_true_eq]
    rw [Ne,cmp_lt_iff]
    simp only
    omega

/-- An older time is overdue no later. -/
theorem Overdue.older {first time now : SystemTime} {seconds : Int} (overdue : Overdue time now seconds) (older : first.cmp time ≠ .gt) :
    Overdue first now seconds := by
  rw [Ne,cmp_gt_iff] at older
  unfold Overdue at overdue ⊢
  omega

/-- The bytes of some observations in both directions, as `u64` adds them. -/
def bytesOf (observations : List Observation) : UInt64 :=
  (observations.map (fun observation => observation.event.uplinkBytes)).sum + (observations.map (fun observation => observation.event.downlinkBytes)).sum

theorem Aged.due {s : State} (aged : Aged s) {key : CounterKey} {now : SystemTime} (force : Bool)
    (delay : 0 < s.aggregator.maxReportDelaySeconds) {observation : Observation} (waits : observation ∈ s.reached key)
    (overdue : Overdue observation.time now s.aggregator.maxReportDelaySeconds) (bytes : bytesOf (s.reached key) ≠ 0) :
    ∃ report ∈ (flushInner s.aggregator now force).1, report.key = key ∧ Oldest (s.reached key) report.firstObservedAt := by
  have counter : key ∈ s.aggregator.counters.map Prod.fst := by
    by_contra unheld
    rw [aged.filed.absent key unheld] at waits
    simp at waits
  obtain ⟨⟨k,value⟩,held,rfl⟩ := List.mem_map.mp counter
  have holding := aged.filed.holding _ held
  have total : value.uplink + value.downlink ≠ 0 := by
    rw [bytesOf,holding.uplink,holding.downlink] at bytes
    exact bytes
  have ready := shouldReport_of_overdue delay (overdue.older (holding.oldest.first observation waits)) total
  have nonzero : value.isZero = false := by
    rw [CounterValue.isZero,decide_eq_false_iff_not]
    rintro ⟨up,down⟩
    exact total (by rw [up,down]; rfl)
  refine ⟨reportOf (k,value),?_,reportOf_key aged.hours held,holding.oldest⟩
  apply (List.mergeSort_perm _ _).mem_iff.mpr
  apply List.mem_map_of_mem
  simp [held,extracts,ready,nonzero]

/-! ### The order of a batch -/

instance : Ord SystemTime := ⟨SystemTime.cmp⟩

instance : Std.TransOrd SystemTime := inferInstanceAs (Std.TransCmp (compareLex (compareOn SystemTime.secs) (compareOn SystemTime.nanos)))

instance : Std.TransCmp Report.cmp := inferInstanceAs (Std.TransCmp
  (compareLex (compareOn Report.firstObservedAt) <| compareLex (compareOn Report.observedAt) <|
    compareLex (compareOn (fun report : Report => report.machineId)) <| compareLex (compareOn (fun report : Report => report.nodeId)) <|
    compareLex (compareOn (fun report : Report => report.userId)) (compareOn (fun report : Report => report.protocol))))

theorem eq_of_cmp_eq {a b : SystemTime} (same : a.cmp b = .eq) : a = b := by
  obtain ⟨secs,nanos⟩ := Ordering.then_eq_eq.mp same
  rw [compare_eq_iff_eq] at secs nanos
  cases a
  cases b
  simp_all

/-- Reports that tie are filed under one key. -/
theorem key_eq_of_cmp_eq {a b : Report} (same : a.cmp b = .eq) : a.key = b.key := by
  simp only [Report.cmp,Ordering.then_eq_eq] at same
  obtain ⟨_,observed,machine,node,user,protocol⟩ := same
  have observed := eq_of_cmp_eq observed
  obtain ⟨⟨_,_,_,_⟩,_,_,_,_⟩ := a
  obtain ⟨⟨_,_,_,_⟩,_,_,_,_⟩ := b
  simp_all [Report.key]

/-- The reports of a flush in the order that the counters are stored in. -/
def unsorted (aggregator : Aggregator) (now : SystemTime) (force : Bool) : List Report :=
  ((takenBy aggregator now force).filter (fun entry => !entry.2.isZero)).map reportOf

theorem unsorted_keys {aggregator : Aggregator} (hours : HoursHold aggregator.counters) (now : SystemTime) (force : Bool) :
    (unsorted aggregator now force).map Report.key = ((takenBy aggregator now force).filter (fun entry => !entry.2.isZero)).map Prod.fst := by
  rw [unsorted,List.map_map]
  apply List.map_congr_left
  intro entry member
  exact reportOf_key hours (List.mem_filter.mp (List.mem_filter.mp member).1).1

/-- The reports of a flush come strictly one after the other. -/
theorem Aged.ascending {s : State} (aged : Aged s) (now : SystemTime) (force : Bool) :
    (flushInner s.aggregator now force).1.Pairwise (fun left right => left.cmp right = .lt) := by
  have sorted : (flushInner s.aggregator now force).1.Pairwise (fun left right => (left.cmp right).isLE = true) := by
    apply List.pairwise_mergeSort
    · intro a b c
      exact Std.TransCmp.isLE_trans
    · intro a b
      rw [@Std.OrientedCmp.eq_swap _ Report.cmp _ b a]
      cases a.cmp b <;> rfl
  have keys : ((flushInner s.aggregator now force).1.map Report.key).Nodup := by
    have perm := (List.mergeSort_perm (unsorted s.aggregator now force) (fun left right => (left.cmp right).isLE)).map Report.key
    apply perm.nodup_iff.mpr
    rw [unsorted_keys aged.hours]
    exact aged.filed.nodup.sublist ((List.filter_sublist.trans List.filter_sublist).map Prod.fst)
  have apart := List.pairwise_map.mp keys
  apply (sorted.and apart).imp
  rintro a b ⟨le,different⟩
  cases compared : a.cmp b with
  | lt => rfl
  | eq => exact absurd (key_eq_of_cmp_eq compared) different
  | gt => simp [compared] at le

/-- Reports without ties have one order. -/
theorem eq_of_ascending {reports sorted : List Report} (ascending : reports.Pairwise (fun left right => left.cmp right = .lt))
    (arranged : sorted.Pairwise (fun left right => left.cmp right ≠ .gt)) (perm : sorted.Perm reports) : sorted = reports := by
  have weak : reports.Pairwise (fun left right => left.cmp right ≠ .gt) := by
    apply ascending.imp
    intro a b less
    simp [less]
  have apart : reports.Pairwise (fun left right => left.cmp right ≠ .eq) := by
    apply ascending.imp
    intro a b less
    simp [less]
  have untied : Std.Symm (fun left right : Report => left.cmp right ≠ .eq) := by
    constructor
    intro a b different tied
    exact different (Std.OrientedCmp.eq_symm tied)
  refine perm.eq_of_pairwise ?_ arranged weak
  intro a b a_in b_in le ge
  by_contra different
  apply apart.forall (perm.mem_iff.mp a_in) b_in different
  rw [@Std.OrientedCmp.eq_swap _ Report.cmp _ b a] at ge
  cases compared : a.cmp b with
  | lt => simp [compared] at ge
  | eq => rfl
  | gt => exact absurd compared le

theorem unsorted_perm {aggregator : Aggregator} {counters : Counters} (perm : counters.Perm aggregator.counters) (now : SystemTime) (force : Bool) :
    (unsorted { aggregator with counters := counters } now force).Perm (unsorted aggregator now force) :=
  ((perm.filter _).filter _).map _

/-! ### Age and order -/

/-- In every run whose observations start their minute within the range of times: the time of a
    counter is that of the oldest of the observations that reached it, which are those of its key
    that are not in a batch, delivered or discarded; a key with an overdue observation and
    bytes to deliver is in the next flush; and a flush gives one list, in strict order, for every
    order of the map and every way to sort. -/
theorem age_and_order_survive {minReportDeltaBytes : UInt64} {maxReportDelaySeconds : Int} {events : List Event} {s : State}
    (run : Run step (initial minReportDeltaBytes maxReportDelaySeconds) events s) (proper : ∀ e ∈ events, Proper e) :
    (∀ key,
      (∀ value, (key,value) ∈ s.aggregator.counters → Oldest (s.reached key) value.firstObservedAt) ∧
      (ofKey key s.observed).Perm
        (s.reached key ++ ofKey key (s.batches.flatten.flatMap Carried.observations ++ s.delivered ++ s.discarded)) ∧
      ∀ now force, ∀ observation ∈ s.reached key, 0 < maxReportDelaySeconds → Overdue observation.time now maxReportDelaySeconds →
        bytesOf (s.reached key) ≠ 0 →
        ∃ report ∈ (flushInner s.aggregator now force).1, report.key = key ∧ Oldest (s.reached key) report.firstObservedAt) ∧
    ∀ now force,
      (carriedBy s now force).map Carried.report = (flushInner s.aggregator now force).1 ∧
      (flushInner s.aggregator now force).1.Pairwise
        (fun left right => left.firstObservedAt.cmp right.firstObservedAt ≠ .gt ∧ left.cmp right ≠ .eq) ∧
      ∀ counters sorted, counters.Perm s.aggregator.counters →
        sorted.Perm (unsorted { s.aggregator with counters := counters } now force) →
        sorted.Pairwise (fun left right => left.cmp right ≠ .gt) → sorted = (flushInner s.aggregator now force).1 := by
  have aged := aged_run run proper
  have delay := delay_of_run run
  constructor
  · intro key
    refine ⟨?_,aged.whole key,?_⟩
    · intro value held
      exact (aged.filed.holding _ held).oldest
    · intro now force observation waits positive overdue bytes
      rw [← delay] at positive overdue
      exact aged.due force positive waits overdue bytes
  · intro now force
    have ascending := aged.ascending now force
    refine ⟨carriedBy_reports s now force,?_,?_⟩
    · apply ascending.imp
      intro a b less
      refine ⟨?_,by simp [less]⟩
      intro later
      simp [Report.cmp,later] at less
    · intro counters sorted reordered perm arranged
      apply eq_of_ascending ascending arranged
      exact (perm.trans (unsorted_perm reordered now force)).trans (List.mergeSort_perm _ _).symm

private theorem whole_second : 0 < 10 ^ 9 := by decide

/-- One uplink byte of a user, observed at the given time. -/
private def oneByteAt (time : SystemTime) : Observation := ⟨time,⟨⟨"machine-1","node-1","user-1","vless"⟩,1,0,some time⟩⟩

/-- A byte is observed, flushed with the others of its hour, and cannot be queued. -/
private def failedOnce (time : SystemTime) : List Event := [.observe (oneByteAt time),.flush time true,.restore 0 0]

private def halfPast : SystemTime := ⟨1800,0,by decide,whole_second⟩

private theorem failedOnce_run (minReportDeltaBytes : UInt64) (time : SystemTime) :
    ∃ s, Run step (initial minReportDeltaBytes 1800) (failedOnce time) s ∧
      s.batches = [] ∧ s.delivered = [] ∧ s.discarded = [] ∧ s.observed = [oneByteAt time] ∧
      s.aggregator.counters.map (fun entry => (entry.1,entry.2.firstObservedAt)) =
        [(⟨(oneByteAt time).event.toIdentity,observationHour (observationBucketStart time)⟩,time)] := by
  refine ⟨_,Run.of_follow rfl,rfl,rfl,rfl,rfl,?_⟩
  have latest : time.max time = time := by rcases max_cases time time with h | h <;> exact h
  simp [oneByteAt,initial,carriedBy,takenBy,observe,addLocked,flushInner,extracts,CounterValue.isZero,restore,
    restoreReport,reportOf,Report.key,TrafficEvent.time,TrafficEvent.key,min_self,latest]

/-- Half an hour after a failed attempt, a single byte is reported though ten are asked for. -/
theorem age_and_order_survive_one_byte :
    ∃ s, Run step (initial 10 1800) (failedOnce unixEpoch) s ∧
      ∃ report ∈ (flushInner s.aggregator halfPast false).1, report.key = (oneByteAt unixEpoch).key := by
  obtain ⟨s,run,batches,delivered,discarded,observed,_⟩ := failedOnce_run 10 unixEpoch
  have proper : ∀ e ∈ failedOnce unixEpoch, Proper e := by
    intro e member
    simp only [failedOnce,List.mem_cons,List.not_mem_nil,or_false] at member
    rcases member with rfl | rfl | rfl
    · show MinuteFits unixEpoch; decide
    · trivial
    · trivial
  obtain ⟨_,whole,due⟩ := (age_and_order_survive run proper).1 (oneByteAt unixEpoch).key
  rw [observed,batches,delivered,discarded] at whole
  have one : s.reached (oneByteAt unixEpoch).key = [oneByteAt unixEpoch] := by
    simpa [ofKey] using whole.symm
  rw [one] at due
  obtain ⟨report,flushed,key,_⟩ := due halfPast false (oneByteAt unixEpoch) (List.mem_singleton_self _) (by decide)
    (.inr ⟨by decide,by decide⟩) (by decide)
  exact ⟨s,run,report,flushed,key⟩

private theorem start_in_range : -9223372036854775808 ≤ (-9223372036854775808 : Int) ∧ (-9223372036854775808 : Int) ≤ 9223372036854775807 := by decide

/-- The first second of the range of times. -/
private def rangeStart : SystemTime := ⟨-9223372036854775808,0,start_in_range,whole_second⟩

/-- A byte observed in the first second of the range comes back to a counter of another hour,
    whose time is then of no observation of its key. -/
theorem first_second_changes_counter :
    ¬ ∀ (minReportDeltaBytes : UInt64) (maxReportDelaySeconds : Int) (events : List Event) (s : State),
      Run step (initial minReportDeltaBytes maxReportDelaySeconds) events s → s.batches = [] → s.delivered = [] → s.discarded = [] →
        ∀ key value, (key,value) ∈ s.aggregator.counters → Oldest (ofKey key s.observed) value.firstObservedAt := by
  intro aged
  obtain ⟨s,run,batches,delivered,discarded,observed,counters⟩ := failedOnce_run 1 rangeStart
  obtain ⟨⟨key,value⟩,only,named⟩ := List.map_eq_singleton_iff.mp counters
  have held : (key,value) ∈ s.aggregator.counters := by simp [only]
  obtain ⟨⟨observation,among,_⟩,_⟩ := aged _ _ _ _ run batches delivered discarded key value held
  rw [observed] at among
  obtain ⟨one,here⟩ := List.mem_filter.mp among
  have same : (oneByteAt rangeStart).key = key := by
    rw [List.mem_singleton.mp one] at here
    simpa using here
  have moved : key = ⟨(oneByteAt rangeStart).event.toIdentity,observationHour (observationBucketStart rangeStart)⟩ := congrArg Prod.fst named
  revert same
  rw [moved]
  decide

end NodeAgent.AggregatorAges
