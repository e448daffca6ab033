import NodeAgent.AnalysisHoldings

/-!
Closing connections while they are sampled. During one session the tasks of a TCP flow
begin, finish and cancel tokens and close the flow, and the sampler reads its closed flag,
its tokens in flight and its counters one after the other. Every load, store, swap and
addition is a step of its own, so that all of them interleave. A call in progress counts
itself in `inflight`, and this is why a flow that the sampler found closed and then without
calls has nothing more to come.
-/
namespace NodeAgent.AnalysisClosing
open NodeAgent.AnalysisRows NodeAgent.AnalysisFlows NodeAgent.AnalysisMinutes NodeAgent.AnalysisCollector NodeAgent.FiniteMap

/-! ### Tasks of a flow -/

/-- Where a call is. All of them have counted themselves in `inflight`, by `begin_token` or
    by the token that they finish. -/
inductive Task
  /-- `begin_token` loads the state, the active epoch and the closed flag, in this order. -/
  | beginState
  | beginActive (epoch : Nat)
  | beginClosed (epoch active : Nat)
  /-- A refused `begin_token` counts itself out. -/
  | beginRefused
  /-- `finish_observation` loads the state and the active epoch. -/
  | finishState (up down : Nat)
  | finishActive (up down : Nat)
  | addUp (up down : Nat)
  | addDown (down : Nat)
  | finishDone
deriving DecidableEq

/-- The bytes that a call is still going to add to the counters. -/
def Task.bytes (side : Side) : Task → Nat
  | .finishState up down | .finishActive up down | .addUp up down => side.of up down
  | .addDown down => side.of 0 down
  | _ => 0

/-- A call of `begin_token`. -/
def Task.beginning : Task → Bool
  | .beginState | .beginActive _ | .beginClosed _ _ | .beginRefused => true
  | _ => false

inductive Place
  /-- In the registrations. -/
  | queued
  /-- In the registry of the sampler. -/
  | enrolled
  | removed
deriving DecidableEq

structure Flow where
  data : Metadata
  place : Place
  closed : Bool
  inflight : Nat
  /-- The state of the flow is there; a TCP flow keeps its counters in it. -/
  attached : Bool
  counters : Counters
  started : Bool
  tasks : List Task
  /-- Nonzero tokens of this session that have been returned and neither finished nor
      cancelled. -/
  tokens : Nat
  /-- Calls and tokens of earlier sessions, which only count themselves out. -/
  stale : Nat
  /-- The bytes of all calls that finished a nonzero token. -/
  offered : Counters
  /-- The bytes that went to the row of the user. -/
  credited : Counters
  /-- What visits drained when the user had no row. -/
  turned : List Counters
  /-- A call was counted out that had not been counted in. -/
  underflow : Bool
  /-- A nonzero token was returned after the flow had been removed. -/
  late : Bool

/-- A flow at the start of a session, or one that is registered. -/
def Flow.new (data : Metadata) (place : Place) (closed started : Bool) (stale : Nat) : Flow :=
  ⟨data,place,closed,stale,true,Counters.zero,started,[],0,stale,Counters.zero,Counters.zero,[],false,false⟩

/-- `fetch_sub` on the tokens in flight. -/
def Flow.countOut (f : Flow) : Flow := { f with inflight := f.inflight - 1, underflow := f.underflow || decide (f.inflight = 0) }

/-- `begin_token` returns a nonzero token. -/
def Flow.grant (f : Flow) : Flow := { f with tokens := f.tokens + 1, late := f.late || decide (f.place = .removed) }

/-- The next step of a call: the flow after it, and what is left of the call. -/
def Flow.act (epoch : Nat) (f : Flow) : Task → Flow × Option Task
  | .beginState => (f,some (.beginActive (if f.attached then epoch else 0)))
  | .beginActive e => (f,some (.beginClosed e epoch))
  | .beginClosed e active => if f.closed || e = 0 || e ≠ active then (f,some .beginRefused) else (f.grant,none)
  | .beginRefused => (f.countOut,none)
  | .finishState up down => (f,some (if f.attached then .finishActive up down else .finishDone))
  | .finishActive up down => (f,some (.addUp up down))
  | .addUp up down => ({ f with counters := f.counters.add up 0 },some (.addDown down))
  | .addDown down => ({ f with counters := f.counters.add 0 down },some .finishDone)
  | .finishDone => (f.countOut,none)

/-- The call at a position takes its next step. -/
def Flow.task (epoch k : Nat) (f : Flow) : Flow :=
  match f.tasks[k]? with
  | none => f
  | some task =>
    match f.act epoch task with
    | (f,some task) => { f with tasks := f.tasks.set k task }
    | (f,none) => { f with tasks := f.tasks.eraseIdx k }

def Flow.beginToken (f : Flow) : Flow := { f with inflight := f.inflight + 1, tasks := .beginState :: f.tasks }

/-- A nonzero token is finished. -/
def Flow.finishToken (up down : Nat) (f : Flow) : Flow :=
  if f.tokens = 0 then f
  else { f with tokens := f.tokens - 1, offered := f.offered.add up down, tasks := .finishState up down :: f.tasks }

def Flow.cancelToken (f : Flow) : Flow := if f.tokens = 0 then f else { f with tokens := f.tokens - 1 }.countOut

/-- A call or token of an earlier session is ending. -/
def Flow.endStale (f : Flow) : Flow := if f.stale = 0 then f else { f with stale := f.stale - 1 }.countOut

def Flow.close (f : Flow) : Flow := { f with closed := true }

/-! ### Visits of the sampler -/

/-- Where the sampler is with a flow. -/
inductive Visit
  | loadState
  | loadClosed
  | loadInflight
  | swapUp (finished : Bool)
  | swapDown (finished : Bool) (up : Nat)
  | swapStarted (finished : Bool) (up down : Nat)
  | account (finished : Bool) (up down : Nat) (started : Bool)
  | retire

/-- The bytes that the sampler has taken out of the counters and not yet accounted for. -/
def Visit.hand (side : Side) : Visit → Nat
  | .swapDown _ up => side.of up 0
  | .swapStarted _ up down | .account _ up down _ => side.of up down
  | _ => 0

/-- The sampler has found the flow closed and then without calls. -/
def Visit.finished : Visit → Bool
  | .swapUp finished | .swapDown finished _ | .swapStarted finished _ _ | .account finished _ _ _ => finished
  | .retire => true
  | _ => false

/-- The sampler has swapped the counter of this direction. -/
def Visit.swapped (side : Side) : Visit → Bool
  | .swapDown _ _ => decide (side = .up)
  | .swapStarted _ _ _ | .account _ _ _ _ | .retire => true
  | _ => false

/-- The next step of a visit other than the one that changes rows. -/
def Flow.visit (f : Flow) : Visit → Flow × Option Visit
  | .loadState => (f,if f.attached then some .loadClosed else none)
  | .loadClosed => (f,some (if f.closed then .loadInflight else .swapUp false))
  | .loadInflight => (f,some (.swapUp (f.inflight = 0)))
  | .swapUp finished => ({ f with counters := ⟨0,f.counters.down⟩ },some (.swapDown finished f.counters.up))
  | .swapDown finished up => ({ f with counters := ⟨f.counters.up,0⟩ },some (.swapStarted finished up f.counters.down))
  | .swapStarted finished up down => ({ f with started := false },some (.account finished up down f.started))
  | .account finished up down started => (f,some (.account finished up down started))
  | .retire => ({ f with attached := false, place := .removed },none)

/-- What the visit took out of the flow is booked. -/
def Flow.book (f : Flow) (up down : Nat) (credited nonzero : Bool) : Flow :=
  if credited then { f with credited := f.credited.add up down }
  else if nonzero then { f with turned := ⟨up,down⟩ :: f.turned }
  else f

inductive Sampler
  | idle
  | walking (rest : List Nat)
  | visiting (id : Nat) (visit : Visit) (rest : List Nat)

def Sampler.visit (id : Nat) : Sampler → Option Visit
  | .visiting visited visit _ => if visited = id then some visit else none
  | _ => none

/-! ### Runs -/

/-- The epoch of a session, which is not 0. -/
abbrev Epoch := { epoch : Nat // epoch ≠ 0 }

structure World where
  /-- The session's epoch, which stays active. -/
  epoch : Epoch
  gauge : Gauge
  bucket : Option MinuteBucket
  /-- The rows of earlier minutes, as they were sealed. -/
  archive : List MinuteBucket
  flows : Map Nat Flow
  sampler : Sampler

/-- A flow that was registered before the session. -/
structure Carried where
  data : Metadata
  closed : Bool
  /-- Its calls in progress and its tokens. -/
  stale : Nat

/-- The start of a session: the TCP flows that go on have new states. -/
def World.initial (epoch : Epoch) (limits : TrafficAnalysisConfig) (carried : Map Nat Carried) : World :=
  ⟨epoch,{ Gauge.initial with limits := limits },none,[],
    (carried.filter (fun _ c => !c.data.udp)).map (fun _ c => Flow.new c.data .enrolled c.closed false c.stale),.idle⟩

inductive Event
  /-- The other tasks leave the gauge as they like; dropped entries are only ever added to. -/
  | others (gauge : Gauge)
  /-- A TCP flow. -/
  | register (id : Nat) (data : Metadata)
  | beginToken (id : Nat)
  | finishToken (id up down : Nat)
  | cancelToken (id : Nat)
  | endStale (id : Nat)
  | close (id : Nat)
  /-- The call at this position of a flow takes its next step. -/
  | task (id k : Nat)
  /-- `sample` takes over the registrations, opens the minute and starts to walk the
      registry, in the order of its hash table. -/
  | sample (minute : Int) (order : List Nat)
  /-- The sampler takes its next step. -/
  | sampler
  /-- The sampler comes across a UDP flow. -/
  | packets (data : Metadata) (sample : Sample)

def World.update (w : World) (id : Nat) (change : Flow → Flow) : World :=
  match w.flows[id]? with
  | none => w
  | some f => { w with flows := w.flows.insert id (change f) }

/-- The bucket of a minute; the one of an earlier minute is sealed. Clock reversal never
    reopens a bucket. -/
def World.openMinute (w : World) (minute : Int) : World :=
  match w.bucket with
  | none => { w with bucket := some (MinuteBucket.new minute) }
  | some b => if minute > b.minute then { w with bucket := some (MinuteBucket.new minute), archive := b :: w.archive } else w

def Flow.adopt (f : Flow) : Flow := if f.place = .queued then { f with place := .enrolled } else f

/-- The flows in the registry. -/
def World.enrolled (w : World) : List Nat := (w.flows.filter (fun _ f => decide (f.place = .enrolled))).keys

def World.sample (w : World) (minute : Int) (order : List Nat) : World :=
  match w.sampler with
  | .idle =>
    let w := { w with flows := w.flows.map (fun _ => Flow.adopt) }.openMinute minute
    { w with sampler := .walking (inOrder order w.enrolled) }
  | _ => w

variable (parsesIp : String → Bool)

/-- A visit changes the rows of the minute. -/
def World.account (w : World) (id : Nat) (f : Flow) (finished : Bool) (up down : Nat) (started : Bool) (rest : List Nat) : World :=
  match w.bucket with
  | none => w
  | some b =>
    let sample := streamSample up down started
    let (g,b) := accountFlow parsesIp f.data sample w.gauge b
    { w with
      gauge := g
      bucket := some b
      flows := w.flows.insert id (f.book up down (b.users[UserKey.of f.data]?).isSome (Sample.nonzero sample))
      sampler := if finished then .visiting id .retire rest else .walking rest }

def World.walk (w : World) : World :=
  match w.sampler with
  | .idle => w
  | .walking [] => { w with sampler := .idle }
  | .walking (id :: rest) => { w with sampler := if (w.flows[id]?).isSome then .visiting id .loadState rest else .walking rest }
  | .visiting id visit rest =>
    match w.flows[id]? with
    | none => w
    | some f =>
      match visit with
      | .account finished up down started => w.account parsesIp id f finished up down started rest
      | visit =>
        let (f,next) := f.visit visit
        { w with flows := w.flows.insert id f, sampler := next.elim (.walking rest) (fun next => .visiting id next rest) }

/-- The rows take in the traffic of a UDP flow. -/
def World.packets (w : World) (data : Metadata) (sample : Sample) : World :=
  match w.bucket with
  | none => w
  | some b =>
    if data.udp then
      let (g,b) := accountFlow parsesIp data sample w.gauge b
      { w with gauge := g, bucket := some b }
    else w

def World.step (w : World) : Event → World
  | .others gauge => { w with gauge := { gauge with droppedEntries := w.gauge.droppedEntries + gauge.droppedEntries } }
  | .register id data => if (w.flows[id]?).isSome || data.udp then w else { w with flows := w.flows.insert id (Flow.new data .queued false true 0) }
  | .beginToken id => w.update id Flow.beginToken
  | .finishToken id up down => w.update id (Flow.finishToken up down)
  | .cancelToken id => w.update id Flow.cancelToken
  | .endStale id => w.update id Flow.endStale
  | .close id => w.update id Flow.close
  | .task id k => w.update id (Flow.task w.epoch k)
  | .sample minute order => w.sample minute order
  | .sampler => w.walk parsesIp
  | .packets data sample => w.packets parsesIp data sample

def World.run (w : World) (events : List Event) : World := events.foldl (fun w event => w.step parsesIp event) w

/-! ### What holds of a flow -/

/-- Nothing more can be counted: only calls of `begin_token` are left, and they will be
    refused. -/
structure Cut (f : Flow) : Prop where
  closed : f.closed = true
  tokens : f.tokens = 0
  stale : f.stale = 0
  tasks : ∀ task ∈ f.tasks, task.beginning = true

def amount (side : Side) (c : Counters) : Nat := side.of c.up c.down

/-- A flow between two steps, with the visit that it is under. -/
structure Good (visit : Option Visit) (f : Flow) : Prop where
  inflight : f.inflight = f.tokens + f.stale + f.tasks.length
  bytes : ∀ side, amount side f.offered = (f.tasks.map (Task.bytes side)).sum + amount side f.counters + visit.elim 0 (Visit.hand side) +
    amount side f.credited + (f.turned.map (amount side)).sum
  shut : visit = some .loadInflight → f.closed = true
  cut : f.place = .removed ∨ visit.any Visit.finished = true → Cut f
  drained : ∀ side, f.place = .removed ∨ visit.any (fun v => v.finished && v.swapped side) = true → amount side f.counters = 0
  attached : f.attached = decide (f.place ≠ .removed)
  underflow : f.underflow = false
  late : f.late = false

variable {f : Flow} {under : Option Visit} {k : Nat} {call call' : Task}

theorem amount_add {side : Side} {c : Counters} {up down : Nat} : amount side (c.add up down) = amount side c + side.of up down := by
  cases side <;> rfl

@[simp] theorem amount_zero {side : Side} : amount side Counters.zero = 0 := by
  cases side <;> rfl

@[simp] theorem of_zero {side : Side} : side.of 0 0 = 0 := by
  cases side <;> rfl

theorem good_new {data : Metadata} {place : Place} {closed started : Bool} {stale : Nat} (there : place ≠ .removed) :
    Good none (Flow.new data place closed started stale) := by
  refine ⟨by simp [Flow.new],fun side => by simp [Flow.new],by simp,?_,?_,by simp [Flow.new,there],rfl,rfl⟩
  · intro ending
    simp [Flow.new,there] at ending
  · intro side _
    exact amount_zero

theorem Good.beginToken (good : Good under f) : Good under f.beginToken := by
  refine ⟨?_,?_,good.shut,?_,good.drained,good.attached,good.underflow,good.late⟩
  · have before := good.inflight
    simp only [Flow.beginToken,List.length_cons]
    omega
  · intro side
    simpa [Flow.beginToken,Task.bytes] using good.bytes side
  · intro ended
    have cut := good.cut ended
    refine ⟨cut.closed,cut.tokens,cut.stale,?_⟩
    intro task member
    rcases List.mem_cons.mp member with rfl | earlier
    · rfl
    · exact cut.tasks task earlier

theorem Good.finishToken {up down : Nat} (good : Good under f) : Good under (f.finishToken up down) := by
  unfold Flow.finishToken
  by_cases spent : f.tokens = 0
  · rw [if_pos spent]
    exact good
  · rw [if_neg spent]
    refine ⟨?_,?_,good.shut,?_,good.drained,good.attached,good.underflow,good.late⟩
    · have before := good.inflight
      simp only [List.length_cons]
      omega
    · intro side
      have before := good.bytes side
      simp only [amount_add,List.map_cons,List.sum_cons,Task.bytes]
      omega
    · intro ended
      exact absurd (good.cut ended).tokens spent

theorem Good.countOut (good : Good under { f with inflight := f.inflight - 1 }) (counted : f.inflight ≠ 0) : Good under f.countOut := by
  have clean : (f.underflow || decide (f.inflight = 0)) = false := by
    rw [decide_eq_false counted,Bool.or_false]
    exact good.underflow
  exact ⟨good.inflight,good.bytes,good.shut,fun ended => ⟨(good.cut ended).closed,(good.cut ended).tokens,(good.cut ended).stale,(good.cut ended).tasks⟩,
    good.drained,good.attached,clean,good.late⟩

theorem Good.cancelToken (good : Good under f) : Good under f.cancelToken := by
  unfold Flow.cancelToken
  by_cases spent : f.tokens = 0
  · rw [if_pos spent]
    exact good
  · rw [if_neg spent]
    have before := good.inflight
    refine Good.countOut ⟨?_,good.bytes,good.shut,?_,good.drained,good.attached,good.underflow,good.late⟩ ?_
    · dsimp only
      omega
    · intro ended
      exact absurd (good.cut ended).tokens spent
    · dsimp only
      omega

theorem Good.endStale (good : Good under f) : Good under f.endStale := by
  unfold Flow.endStale
  by_cases ending : f.stale = 0
  · rw [if_pos ending]
    exact good
  · rw [if_neg ending]
    have before := good.inflight
    refine Good.countOut ⟨?_,good.bytes,good.shut,?_,good.drained,good.attached,good.underflow,good.late⟩ ?_
    · dsimp only
      omega
    · intro ended
      exact absurd (good.cut ended).stale ending
    · dsimp only
      omega

theorem Good.close (good : Good under f) : Good under f.close := by
  refine ⟨good.inflight,good.bytes,fun _ => rfl,?_,good.drained,good.attached,good.underflow,good.late⟩
  intro ended
  have cut := good.cut ended
  exact ⟨rfl,cut.tokens,cut.stale,cut.tasks⟩

/-! ### Steps of a call -/

/-- A call goes on, and may have added bytes to the counters. -/
theorem Good.advance {up down : Nat} (good : Good under f) (at_k : f.tasks[k]? = some call)
    (moved : ∀ side, Task.bytes side call = Task.bytes side call' + side.of up down)
    (begins : call.beginning = true → call'.beginning = true ∧ up = 0 ∧ down = 0) :
    Good under { f with counters := f.counters.add up down, tasks := f.tasks.set k call' } := by
  have member : call ∈ f.tasks := List.mem_of_getElem? at_k
  refine ⟨?_,?_,good.shut,?_,?_,good.attached,good.underflow,good.late⟩
  · simpa using good.inflight
  · intro side
    have before := good.bytes side
    have removed := sum_eraseIdx at_k (Task.bytes side)
    have replaced := sum_set at_k call' (Task.bytes side)
    have bytes := moved side
    simp only [amount_add]
    omega
  · intro ended
    have cut := good.cut ended
    refine ⟨cut.closed,cut.tokens,cut.stale,?_⟩
    intro other there
    rcases List.mem_or_eq_of_mem_set there with earlier | rfl
    · exact cut.tasks other earlier
    · exact (begins (cut.tasks call member)).1
  · intro side ended
    have started : call.beginning = true := by
      refine (good.cut ?_).tasks call member
      rcases ended with removed | finished
      · exact .inl removed
      · refine .inr ?_
        cases under with
        | none => cases finished
        | some v => exact (Bool.and_eq_true_iff.mp finished).1
    obtain ⟨_,rfl,rfl⟩ := begins started
    rw [amount_add,of_zero]
    exact good.drained side ended

theorem Good.proceed (good : Good under f) (at_k : f.tasks[k]? = some call) (same : ∀ side, Task.bytes side call = Task.bytes side call')
    (begins : call.beginning = true → call'.beginning = true) : Good under { f with tasks := f.tasks.set k call' } :=
  @Good.advance f under k call call' 0 0 good at_k (fun side => by rw [same,of_zero,Nat.add_zero]) (fun begun => ⟨begins begun,rfl,rfl⟩)

/-- A call that has nothing more to add is ending. -/
theorem Good.finishTask (good : Good under f) (at_k : f.tasks[k]? = some call) (nothing : ∀ side, Task.bytes side call = 0) :
    Good under { f.countOut with tasks := f.tasks.eraseIdx k } := by
  have inside : k < f.tasks.length := (List.getElem?_eq_some_iff.mp at_k).1
  have before := good.inflight
  refine @Good.countOut { f with tasks := f.tasks.eraseIdx k } under
    ⟨?_,?_,good.shut,?_,good.drained,good.attached,good.underflow,good.late⟩ ?_
  · have shorter := List.length_eraseIdx_of_lt inside
    dsimp only
    omega
  · intro side
    have bytes := good.bytes side
    have removed := sum_eraseIdx at_k (Task.bytes side)
    have none_left := nothing side
    dsimp only
    omega
  · intro ended
    have cut := good.cut ended
    exact ⟨cut.closed,cut.tokens,cut.stale,fun other there => cut.tasks other (List.mem_of_mem_eraseIdx there)⟩
  · dsimp only
    omega

/-- An open flow returns a token for the call. -/
theorem Good.grant (good : Good under f) (at_k : f.tasks[k]? = some call) (nothing : ∀ side, Task.bytes side call = 0)
    (opened : f.closed = false) : Good under { f.grant with tasks := f.tasks.eraseIdx k } := by
  have inside : k < f.tasks.length := (List.getElem?_eq_some_iff.mp at_k).1
  have going : ¬(f.place = .removed ∨ under.any Visit.finished = true) := by
    intro ended
    have closed := (good.cut ended).closed
    rw [opened] at closed
    cases closed
  simp only [not_or] at going
  refine ⟨?_,?_,good.shut,?_,good.drained,good.attached,good.underflow,?_⟩
  · have before := good.inflight
    have shorter := List.length_eraseIdx_of_lt inside
    simp only [Flow.grant]
    omega
  · intro side
    have bytes := good.bytes side
    have removed := sum_eraseIdx at_k (Task.bytes side)
    have none_left := nothing side
    simp only [Flow.grant]
    omega
  · intro ended
    exact absurd ended (not_or.mpr going)
  · simp [Flow.grant,going.1,good.late]

theorem Good.task {epoch : Nat} (good : Good under f) : Good under (f.task epoch k) := by
  unfold Flow.task
  cases at_k : f.tasks[k]? with
  | none => exact good
  | some call =>
    cases call with
    | beginState => exact good.proceed at_k (fun _ => rfl) (fun _ => rfl)
    | beginActive e => exact good.proceed at_k (fun _ => rfl) (fun _ => rfl)
    | beginClosed e active =>
      dsimp only [Flow.act]
      split
      · next refused =>
        split at refused
        · cases refused
          exact good.proceed at_k (fun _ => rfl) (fun _ => rfl)
        · cases refused
      · next granted =>
        split at granted
        · cases granted
        · next opened =>
          cases granted
          simp only [Bool.or_eq_true,not_or,Bool.not_eq_true] at opened
          exact good.grant at_k (fun _ => rfl) opened.1.1
    | beginRefused => exact good.finishTask at_k (fun _ => rfl)
    | finishState up down =>
      have there : f.attached = true := by
        by_contra gone
        have removed : f.place = .removed := by
          have attached := good.attached
          simp only [Bool.not_eq_true] at gone
          rw [gone] at attached
          simpa using attached.symm
        have begun := (good.cut (.inl removed)).tasks _ (List.mem_of_getElem? at_k)
        cases begun
      dsimp only [Flow.act]
      rw [if_pos there]
      exact good.proceed at_k (fun _ => rfl) (fun begun => by cases begun)
    | finishActive up down => exact good.proceed at_k (fun _ => rfl) (fun begun => by cases begun)
    | addUp up down =>
      exact @Good.advance f under k _ (.addDown down) up 0 good at_k (fun side => by cases side <;> simp [Task.bytes,Side.of]) (fun begun => by cases begun)
    | addDown down =>
      exact @Good.advance f under k _ .finishDone 0 down good at_k (fun side => by cases side <;> simp [Task.bytes,Side.of]) (fun begun => by cases begun)
    | finishDone => exact good.finishTask at_k (fun _ => rfl)

/-! ### Steps of a visit -/

theorem Good.visit {v : Visit} (good : Good (some v) f) (reads : ∀ finished up down started, v ≠ .account finished up down started) :
    Good (f.visit v).2 (f.visit v).1 := by
  have bytes := good.bytes
  cases v with
  | loadState =>
    dsimp only [Flow.visit]
    split
    · exact ⟨good.inflight,bytes,by simp,good.cut,good.drained,good.attached,good.underflow,good.late⟩
    · exact ⟨good.inflight,bytes,by simp,good.cut,good.drained,good.attached,good.underflow,good.late⟩
  | loadClosed =>
    dsimp only [Flow.visit]
    split
    · next closed => exact ⟨good.inflight,bytes,fun _ => closed,good.cut,good.drained,good.attached,good.underflow,good.late⟩
    · exact ⟨good.inflight,bytes,by simp,good.cut,good.drained,good.attached,good.underflow,good.late⟩
  | loadInflight =>
    refine ⟨good.inflight,bytes,by simp [Flow.visit],?_,?_,good.attached,good.underflow,good.late⟩
    · intro ended
      rcases ended with removed | finished
      · exact good.cut (.inl removed)
      · have counted := good.inflight
        have none_left : f.inflight = 0 := by simpa [Flow.visit,Visit.finished] using finished
        have empty : f.tasks = [] := List.length_eq_zero_iff.mp (by omega)
        have cut : Cut f := ⟨good.shut rfl,by omega,by omega,fun task member => by rw [empty] at member; cases member⟩
        exact cut
    · intro side ended
      rcases ended with removed | finished
      · exact good.drained side (.inl removed)
      · simp [Flow.visit,Visit.swapped] at finished
  | swapUp finished =>
    refine ⟨good.inflight,?_,by simp [Flow.visit],?_,?_,good.attached,good.underflow,good.late⟩
    · intro side
      have before := bytes side
      cases side <;> simp [Flow.visit,amount,Side.of,Visit.hand] at before ⊢ <;> omega
    · intro ended
      exact ⟨(good.cut ended).closed,(good.cut ended).tokens,(good.cut ended).stale,(good.cut ended).tasks⟩
    · intro side ended
      cases side with
      | up => rfl
      | down =>
        rcases ended with removed | swapped
        · exact good.drained .down (.inl removed)
        · simp [Flow.visit,Visit.swapped] at swapped
  | swapDown finished up =>
    refine ⟨good.inflight,?_,by simp [Flow.visit],?_,?_,good.attached,good.underflow,good.late⟩
    · intro side
      have before := bytes side
      cases side <;> simp [Flow.visit,amount,Side.of,Visit.hand] at before ⊢ <;> omega
    · intro ended
      exact ⟨(good.cut ended).closed,(good.cut ended).tokens,(good.cut ended).stale,(good.cut ended).tasks⟩
    · intro side ended
      cases side with
      | up =>
        refine good.drained .up ?_
        rcases ended with removed | swapped
        · exact .inl removed
        · exact .inr (by simpa [Flow.visit,Visit.swapped,Visit.finished] using swapped)
      | down => rfl
  | swapStarted finished up down =>
    refine ⟨good.inflight,bytes,by simp [Flow.visit],?_,good.drained,good.attached,good.underflow,good.late⟩
    intro ended
    exact ⟨(good.cut ended).closed,(good.cut ended).tokens,(good.cut ended).stale,(good.cut ended).tasks⟩
  | account finished up down started => exact absurd rfl (reads finished up down started)
  | retire =>
    have cut := good.cut (.inr rfl)
    refine ⟨good.inflight,bytes,by simp [Flow.visit],?_,?_,?_,good.underflow,good.late⟩
    · intro _
      exact ⟨cut.closed,cut.tokens,cut.stale,cut.tasks⟩
    · intro side _
      exact good.drained side (.inr rfl)
    · simp [Flow.visit]

/-- What the visit had in hand is on one of the accounts. -/
theorem Good.settle {finished started : Bool} {up down : Nat} {credited : Counters} {turned : List Counters}
    (good : Good (some (.account finished up down started)) f)
    (sum : ∀ side, amount side credited + (turned.map (amount side)).sum = amount side f.credited + (f.turned.map (amount side)).sum + side.of up down) :
    Good (if finished then some .retire else none) { f with credited := credited, turned := turned } := by
  refine ⟨good.inflight,?_,?_,?_,?_,good.attached,good.underflow,good.late⟩
  · intro side
    have before := good.bytes side
    have moved := sum side
    have empty : (if finished then some Visit.retire else none).elim 0 (Visit.hand side) = 0 := by cases finished <;> rfl
    rw [empty]
    simp only [Option.elim_some,Visit.hand] at before
    dsimp only
    omega
  · intro next
    cases finished <;> cases next
  · intro ended
    have cut : Cut f := by
      refine good.cut ?_
      rcases ended with removed | finished'
      · exact .inl removed
      · refine .inr ?_
        cases finished
        · cases finished'
        · rfl
    exact ⟨cut.closed,cut.tokens,cut.stale,cut.tasks⟩
  · intro side ended
    refine good.drained side ?_
    rcases ended with removed | finished'
    · exact .inl removed
    · refine .inr ?_
      cases finished
      · cases finished'
      · rfl

theorem Good.book {finished started credited nonzero : Bool} {up down : Nat} (good : Good (some (.account finished up down started)) f)
    (booked : credited = false → nonzero = false → up = 0 ∧ down = 0) :
    Good (if finished then some .retire else none) (f.book up down credited nonzero) := by
  cases credited with
  | true =>
    refine good.settle (fun side => ?_)
    rw [amount_add]
    omega
  | false =>
    cases nonzero with
    | true =>
      refine good.settle (fun side => ?_)
      simp only [List.map_cons,List.sum_cons,amount]
      omega
    | false =>
      obtain ⟨rfl,rfl⟩ := booked rfl rfl
      exact good.settle (fun side => by rw [of_zero,Nat.add_zero])

/-! ### What holds of a run -/

def credits (side : Side) (user : UserKey) (f : Flow) : Nat := if UserKey.of f.data = user then amount side f.credited else 0

def turnedAway (f : Flow) : Nat := f.turned.length

/-- The rows of a user in all minutes. -/
def World.rows (w : World) (side : Side) (user : UserKey) : Nat := ((w.bucket.toList ++ w.archive).map (rowBytes side user)).sum

structure Sound (w : World) : Prop where
  flows : ∀ (id : Nat) (f : Flow), w.flows[id]? = some f → Good (w.sampler.visit id) f
  ledger : ∀ (user : UserKey) (side : Side), user.network ≠ "udp" → total (fun _ f => credits side user f) w.flows = w.rows side user
  dropped : total (fun _ f => turnedAway f) w.flows ≤ w.gauge.droppedEntries
  present : ∀ (id : Nat) (v : Visit), w.sampler.visit id = some v → (w.flows[id]?).isSome

variable {w : World} {id : Nat}

theorem isSome_insert {flows : Map Nat Flow} {other : Nat} (there : (flows[other]?).isSome) : ((flows.insert id f)[other]?).isSome := by
  rw [lookup_insert]
  split
  · rfl
  · exact there

/-- A call changes neither account of its flow. -/
theorem Sound.update {change : Flow → Flow} (sound : Sound w) (good : ∀ under f, Good under f → Good under (change f))
    (frame : ∀ f, (change f).data = f.data ∧ (change f).credited = f.credited ∧ (change f).turned = f.turned) : Sound (w.update id change) := by
  unfold World.update
  cases held : w.flows[id]? with
  | none => exact sound
  | some f =>
    obtain ⟨data,credited,turned⟩ := frame f
    refine ⟨?_,?_,?_,fun other v visited => isSome_insert (sound.present other v visited)⟩
    · intro other g there
      dsimp only at there
      rw [lookup_insert] at there
      split at there
      · next same =>
        cases there
        rw [← same]
        exact good _ f (sound.flows id f held)
      · exact sound.flows other g there
    · intro user side tcp
      have before := sound.ledger user side tcp
      have replaced := total_insert w.flows id (change f) (fun _ f => credits side user f)
      have same : credits side user (change f) = credits side user f := by
        unfold credits
        rw [data,credited]
      rw [held,Option.elim_some,same] at replaced
      exact (Nat.add_right_cancel replaced).trans before
    · have before := sound.dropped
      have replaced := total_insert w.flows id (change f) (fun _ f => turnedAway f)
      have same : turnedAway (change f) = turnedAway f := by
        unfold turnedAway
        rw [turned]
      rw [held,Option.elim_some,same] at replaced
      exact Nat.le_trans (Nat.le_of_eq (Nat.add_right_cancel replaced)) before

theorem act_frame {epoch : Nat} : (f.act epoch call).1.data = f.data ∧ (f.act epoch call).1.credited = f.credited ∧
    (f.act epoch call).1.turned = f.turned := by
  cases call with
  | beginClosed e active =>
    dsimp only [Flow.act]
    split <;> exact ⟨rfl,rfl,rfl⟩
  | _ => exact ⟨rfl,rfl,rfl⟩

theorem task_frame {epoch : Nat} : (f.task epoch k).data = f.data ∧ (f.task epoch k).credited = f.credited ∧ (f.task epoch k).turned = f.turned := by
  unfold Flow.task
  split
  · exact ⟨rfl,rfl,rfl⟩
  · next call at_k =>
    have frame := @act_frame f call epoch
    split
    · next after => rw [after] at frame; exact frame
    · next after => rw [after] at frame; exact frame

/-- A flow that was not there. -/
theorem Sound.register {data : Metadata} (sound : Sound w) (absent : w.flows[id]? = none) :
    Sound { w with flows := w.flows.insert id (Flow.new data .queued false true 0) } := by
  have unvisited : w.sampler.visit id = none := by
    cases visited : w.sampler.visit id with
    | none => rfl
    | some v =>
      have there := sound.present id v visited
      rw [absent] at there
      cases there
  refine ⟨?_,?_,?_,fun other v visited => isSome_insert (sound.present other v visited)⟩
  · intro other f there
    dsimp only at there ⊢
    rw [lookup_insert] at there
    split at there
    · next same =>
      cases there
      rw [← same,unvisited]
      exact good_new (by decide)
    · exact sound.flows other f there
  · intro user side tcp
    have before := sound.ledger user side tcp
    have added := total_insert w.flows id (Flow.new data .queued false true 0) (fun _ f => credits side user f)
    have empty : credits side user (Flow.new data .queued false true 0) = 0 := by
      unfold credits
      split
      · exact amount_zero
      · rfl
    rw [absent,Option.elim_none,empty] at added
    exact added.trans before
  · have before := sound.dropped
    have added := total_insert w.flows id (Flow.new data .queued false true 0) (fun _ f => turnedAway f)
    rw [absent,Option.elim_none,show turnedAway (Flow.new data .queued false true 0) = 0 from rfl] at added
    exact Nat.le_trans (Nat.le_of_eq added) before

theorem adopt_frame : f.adopt.data = f.data ∧ f.adopt.credited = f.credited ∧ f.adopt.turned = f.turned := by
  unfold Flow.adopt
  split <;> exact ⟨rfl,rfl,rfl⟩

theorem Good.adopt (good : Good under f) : Good under f.adopt := by
  unfold Flow.adopt
  split
  · next queued =>
    have ended {P : Prop} (ending : Place.enrolled = .removed ∨ P) : f.place = .removed ∨ P := ending.imp_left (fun impossible => by cases impossible)
    refine ⟨good.inflight,good.bytes,good.shut,?_,fun side ending => good.drained side (ended ending),?_,good.underflow,good.late⟩
    · intro ending
      have cut := good.cut (ended ending)
      exact ⟨cut.closed,cut.tokens,cut.stale,cut.tasks⟩
    · have attached := good.attached
      rw [queued] at attached
      exact attached
  · exact good

theorem Sound.adopt (sound : Sound w) : Sound { w with flows := w.flows.map (fun _ => Flow.adopt) } := by
  refine ⟨?_,?_,?_,?_⟩
  · intro id f there
    simp only [Std.ExtTreeMap.getElem?_map,Option.map_eq_some_iff] at there
    obtain ⟨before,held,rfl⟩ := there
    exact (sound.flows id before held).adopt
  · intro user side tcp
    rw [total_map]
    have same : (fun (_ : Nat) (f : Flow) => credits side user f.adopt) = fun _ f => credits side user f := by
      funext _ f
      unfold credits
      rw [adopt_frame.1,adopt_frame.2.1]
    rw [same]
    exact sound.ledger user side tcp
  · rw [total_map]
    have same : (fun (_ : Nat) (f : Flow) => turnedAway f.adopt) = fun _ f => turnedAway f := by
      funext _ f
      unfold turnedAway
      rw [adopt_frame.2.2]
    rw [same]
    exact sound.dropped
  · intro id v visited
    simpa using sound.present id v visited

theorem new_rowBytes {side : Side} {user : UserKey} {minute : Int} : rowBytes side user (MinuteBucket.new minute) = 0 := by
  simp [rowBytes,MinuteBucket.new]

theorem Sound.openMinute {minute : Int} (sound : Sound w) : Sound (w.openMinute minute) := by
  unfold World.openMinute
  cases bucket : w.bucket with
  | none =>
    refine ⟨sound.flows,?_,sound.dropped,sound.present⟩
    intro user side tcp
    have before := sound.ledger user side tcp
    simp only [World.rows,bucket,Option.toList_none,List.nil_append] at before
    simpa [World.rows,new_rowBytes] using before
  | some b =>
    dsimp only
    split
    · refine ⟨sound.flows,?_,sound.dropped,sound.present⟩
      intro user side tcp
      have before := sound.ledger user side tcp
      simp only [World.rows,bucket] at before
      simpa [World.rows,new_rowBytes] using before
    · exact sound

theorem openMinute_sampler {minute : Int} : (w.openMinute minute).sampler = w.sampler := by
  unfold World.openMinute
  split
  · rfl
  · split <;> rfl

/-- The sampler moves on between two visits. -/
theorem Sound.sampler {sampler : Sampler} (sound : Sound w) (before : ∀ id, w.sampler.visit id = none)
    (after : ∀ id, sampler.visit id = none) : Sound { w with sampler := sampler } := by
  refine ⟨?_,sound.ledger,sound.dropped,?_⟩
  · intro id f there
    have good := sound.flows id f there
    rw [before] at good
    dsimp only
    rw [after]
    exact good
  · intro id v visited
    dsimp only at visited
    rw [after] at visited
    cases visited

theorem Sound.sample {minute : Int} {order : List Nat} (sound : Sound w) : Sound (w.sample minute order) := by
  unfold World.sample
  split
  · next idle =>
    have ready := @Sound.openMinute { w with flows := w.flows.map (fun _ => Flow.adopt) } minute sound.adopt
    refine ready.sampler ?_ (fun _ => rfl)
    intro id
    rw [openMinute_sampler]
    dsimp only
    rw [idle]
    rfl
  · exact sound

/-- A step of the sampler at a flow; what the flow has on an account grows with the rows, or
    with the dropped entries. -/
theorem Sound.visited {f' : Flow} {g : Gauge} {bucket : Option MinuteBucket} {sampler : Sampler} (sound : Sound w) (held : w.flows[id]? = some f)
    (good : Good (sampler.visit id) f') (others : ∀ other, other ≠ id → sampler.visit other = w.sampler.visit other)
    (ledger : ∀ (user : UserKey) (side : Side), user.network ≠ "udp" → credits side user f' + w.rows side user =
      credits side user f + { w with bucket := bucket }.rows side user)
    (dropped : turnedAway f' + w.gauge.droppedEntries ≤ turnedAway f + g.droppedEntries) :
    Sound { w with gauge := g, bucket := bucket, flows := w.flows.insert id f', sampler := sampler } := by
  refine ⟨?_,?_,?_,?_⟩
  · intro other f'' there
    dsimp only at there ⊢
    rw [lookup_insert] at there
    split at there
    · next same =>
      cases there
      rw [← same]
      exact good
    · next different =>
      rw [others other (Ne.symm different)]
      exact sound.flows other f'' there
  · intro user side tcp
    have before := sound.ledger user side tcp
    have booked := ledger user side tcp
    have replaced := total_insert w.flows id f' (fun _ f => credits side user f)
    rw [held,Option.elim_some] at replaced
    dsimp only [World.rows] at before booked ⊢
    omega
  · have before := sound.dropped
    have replaced := total_insert w.flows id f' (fun _ f => turnedAway f)
    rw [held,Option.elim_some] at replaced
    dsimp only
    omega
  · intro other v visited
    dsimp only at visited ⊢
    rw [lookup_insert]
    split
    · rfl
    · next different =>
      rw [others other (Ne.symm different)] at visited
      exact sound.present other v visited

theorem visit_frame {v : Visit} : (f.visit v).1.data = f.data ∧ (f.visit v).1.credited = f.credited ∧ (f.visit v).1.turned = f.turned := by
  cases v <;> exact ⟨rfl,rfl,rfl⟩

theorem nonzero_streamSample {up down : Nat} {started : Bool} (empty : Sample.nonzero (streamSample up down started) = false) : up = 0 ∧ down = 0 := by
  simp only [Sample.nonzero,streamSample,Bool.or_eq_false_iff] at empty
  exact ⟨not_not.mp (of_decide_eq_false empty.1.1),not_not.mp (of_decide_eq_false empty.1.2)⟩

theorem book_credits {side : Side} {user : UserKey} {up down : Nat} {credited nonzero : Bool} :
    credits side user (f.book up down credited nonzero) = credits side user f +
      (if user = UserKey.of f.data ∧ credited = true then side.of up down else 0) := by
  cases credited with
  | true =>
    simp only [Flow.book,credits,if_true,and_true]
    by_cases own : UserKey.of f.data = user
    · rw [if_pos own,if_pos own,if_pos own.symm]
      exact amount_add
    · rw [if_neg own,if_neg own,if_neg (Ne.symm own)]
  | false => cases nonzero <;> simp [Flow.book,credits]

theorem book_turned {up down : Nat} {credited nonzero : Bool} :
    turnedAway (f.book up down credited nonzero) = turnedAway f + (!credited && nonzero).toNat := by
  cases credited <;> cases nonzero <;> rfl

variable {parsesIp : String → Bool}

theorem Sound.account {finished started : Bool} {up down : Nat} {rest : List Nat} (sound : Sound w) (held : w.flows[id]? = some f)
    (visiting : w.sampler = .visiting id (.account finished up down started) rest) :
    Sound (w.account parsesIp id f finished up down started rest) := by
  have good : Good (some (.account finished up down started)) f := by
    have good := sound.flows id f held
    rw [visiting,Sampler.visit,if_pos rfl] at good
    exact good
  unfold World.account
  cases bucket : w.bucket with
  | none => exact sound
  | some b =>
    have rows := @accountFlow_rows w.gauge b parsesIp f.data (streamSample up down started)
    have dropped := @accountFlow_dropped w.gauge b parsesIp f.data (streamSample up down started)
    dsimp only
    generalize accountFlow parsesIp f.data (streamSample up down started) w.gauge b = world at rows dropped ⊢
    obtain ⟨g,b'⟩ := world
    dsimp only at rows dropped ⊢
    refine sound.visited held ?_ ?_ ?_ ?_
    · have booked : Good (if finished then some .retire else none)
          (f.book up down (b'.users[UserKey.of f.data]?).isSome (Sample.nonzero (streamSample up down started))) :=
        good.book (fun _ empty => nonzero_streamSample empty)
      cases finished with
      | true => simpa [Sampler.visit] using booked
      | false => exact booked
    · intro other different
      rw [visiting]
      cases finished <;> simp [Sampler.visit,Ne.symm different]
    · intro user side _
      have grown := rows user side
      simp only [World.rows,bucket,Option.toList_some,List.cons_append,List.map_cons,List.sum_cons,book_credits]
      simp only [streamSample] at grown
      omega
    · rw [book_turned]
      omega

theorem Sound.walk (sound : Sound w) : Sound (w.walk parsesIp) := by
  unfold World.walk
  split
  · exact sound
  · next done => exact sound.sampler (fun id => by rw [done]; rfl) (fun _ => rfl)
  · next id rest going =>
    cases held : w.flows[id]? with
    | none => exact sound.sampler (fun id => by rw [going]; rfl) (fun _ => rfl)
    | some f =>
      refine ⟨?_,sound.ledger,sound.dropped,?_⟩
      · intro other f' there
        have good := sound.flows other f' there
        rw [going] at good
        dsimp only [Option.isSome_some,Sampler.visit] at good ⊢
        rw [if_pos rfl]
        dsimp only [Sampler.visit]
        split
        · exact ⟨good.inflight,good.bytes,by simp,good.cut,good.drained,good.attached,good.underflow,good.late⟩
        · exact good
      · intro other v visited
        simp only [Option.isSome_some,if_true,Sampler.visit] at visited
        split at visited
        · next same =>
          rw [← same]
          dsimp only
          rw [held]
          rfl
        · cases visited
  · next id visit rest visiting =>
    cases held : w.flows[id]? with
    | none => exact sound
    | some f =>
      dsimp only
      split
      · exact sound.account held visiting
      · next reads =>
        have good := sound.flows id f held
        rw [visiting,Sampler.visit,if_pos rfl] at good
        have visited := good.visit (fun finished up down started same => reads finished up down started same)
        have frame := @visit_frame f visit
        generalize f.visit visit = after at visited frame
        obtain ⟨f',next⟩ := after
        dsimp only at visited frame ⊢
        refine sound.visited held ?_ ?_ ?_ ?_
        · cases next with
          | none => exact visited
          | some next => simpa [Sampler.visit] using visited
        · intro other different
          rw [visiting]
          cases next <;> simp [Sampler.visit,Ne.symm different]
        · intro user side _
          unfold credits
          rw [frame.1,frame.2.1]
        · exact Nat.le_of_eq (by rw [turnedAway,turnedAway,frame.2.2])

/-- The rows of UDP flows belong to other users. -/
theorem Sound.packets {data : Metadata} {sample : Sample} (sound : Sound w) : Sound (w.packets parsesIp data sample) := by
  unfold World.packets
  cases bucket : w.bucket with
  | none => exact sound
  | some b =>
    dsimp only
    split
    · next udp =>
      refine ⟨sound.flows,?_,?_,sound.present⟩
      · intro user side tcp
        have before := sound.ledger user side tcp
        have grown := @accountFlow_rows w.gauge b parsesIp data sample user side
        have other : user ≠ UserKey.of data := by
          rintro rfl
          simp only [Metadata.udp,decide_eq_true_eq] at udp
          exact tcp udp
        rw [if_neg (fun both => other both.1)] at grown
        simp only [World.rows,bucket,Option.toList_some,List.cons_append,List.map_cons,List.sum_cons] at before ⊢
        rw [grown]
        exact before
      · have dropped := @accountFlow_dropped w.gauge b parsesIp data sample
        have before := sound.dropped
        dsimp only
        omega
    · exact sound

theorem Sound.step {event : Event} (sound : Sound w) : Sound (w.step parsesIp event) := by
  cases event with
  | others gauge =>
    refine ⟨sound.flows,sound.ledger,?_,sound.present⟩
    have before := sound.dropped
    simp only [World.step]
    omega
  | register id data =>
    dsimp only [World.step]
    split
    · exact sound
    · next absent =>
      simp only [Bool.or_eq_true,not_or,Bool.not_eq_true,Option.isSome_eq_false_iff,Option.isNone_iff_eq_none] at absent
      exact sound.register absent.1
  | beginToken id => exact sound.update (fun _ _ good => good.beginToken) (fun _ => ⟨rfl,rfl,rfl⟩)
  | finishToken id up down =>
    refine sound.update (fun _ _ good => good.finishToken) (fun f => ?_)
    unfold Flow.finishToken
    split <;> exact ⟨rfl,rfl,rfl⟩
  | cancelToken id =>
    refine sound.update (fun _ _ good => good.cancelToken) (fun f => ?_)
    unfold Flow.cancelToken
    split <;> exact ⟨rfl,rfl,rfl⟩
  | endStale id =>
    refine sound.update (fun _ _ good => good.endStale) (fun f => ?_)
    unfold Flow.endStale
    split <;> exact ⟨rfl,rfl,rfl⟩
  | close id => exact sound.update (fun _ _ good => good.close) (fun _ => ⟨rfl,rfl,rfl⟩)
  | task id k => exact sound.update (fun _ _ good => good.task) (fun _ => task_frame)
  | sample minute order => exact sound.sample
  | sampler => exact sound.walk
  | packets data sample => exact sound.packets

theorem Sound.run {events : List Event} (sound : Sound w) : Sound (w.run parsesIp events) := by
  induction events generalizing w with
  | nil => exact sound
  | cons event rest ih => exact ih sound.step

theorem Sound.initial {epoch : Epoch} {limits : TrafficAnalysisConfig} {carried : Map Nat Carried} : Sound (World.initial epoch limits carried) := by
  refine ⟨?_,?_,?_,?_⟩
  · intro id f there
    simp only [World.initial,Std.ExtTreeMap.getElem?_map,Option.map_eq_some_iff] at there
    obtain ⟨c,_,rfl⟩ := there
    exact good_new (by decide)
  · intro user side _
    have nothing : total (fun _ f => credits side user f) (World.initial epoch limits carried).flows = 0 := by
      refine (total_map _ _ _).trans (total_eq_zero _ ?_)
      intro entry _
      unfold credits
      split
      · exact amount_zero
      · rfl
    exact nothing
  · have nothing : total (fun _ f => turnedAway f) (World.initial epoch limits carried).flows = 0 :=
      (total_map _ _ _).trans (total_eq_zero _ (fun _ _ => rfl))
    exact Nat.le_of_eq nothing
  · intro id v visited
    cases visited

/-- Every byte that was finished with a nonzero token is where the collector can account for
    it, and a flow leaves the registry only when there is nothing left of it. -/
structure Lossless (w : World) : Prop where
  /-- It is in a call that still adds it, in the counters, in the hands of the sampler, in the
      row of the user, or was drained when the row could not be reserved. -/
  bytes : ∀ (id : Nat) (f : Flow) (side : Side), w.flows[id]? = some f → amount side f.offered =
    (f.tasks.map (Task.bytes side)).sum + amount side f.counters + (w.sampler.visit id).elim 0 (Visit.hand side) + amount side f.credited +
      (f.turned.map (amount side)).sum
  rows : ∀ (user : UserKey) (side : Side), user.network ≠ "udp" → total (fun _ f => credits side user f) w.flows = w.rows side user
  dropped : total (fun _ f => turnedAway f) w.flows ≤ w.gauge.droppedEntries
  removed : ∀ (id : Nat) (f : Flow), w.flows[id]? = some f → f.place = .removed →
    f.closed = true ∧ f.tokens = 0 ∧ (∀ side, amount side f.counters = 0) ∧ ∀ task ∈ f.tasks, task.beginning = true
  late : ∀ (id : Nat) (f : Flow), w.flows[id]? = some f → f.late = false
  underflow : ∀ (id : Nat) (f : Flow), w.flows[id]? = some f → f.underflow = false

/-- However the calls of the flows and the steps of the sampler interleave, no byte is lost
    when a connection is closed. -/
theorem no_byte_lost_at_close (parsesIp : String → Bool) (epoch : Epoch) (limits : TrafficAnalysisConfig) (carried : Map Nat Carried)
    (events : List Event) : Lossless ((World.initial epoch limits carried).run parsesIp events) := by
  have sound : Sound ((World.initial epoch limits carried).run parsesIp events) := Sound.initial.run
  refine ⟨?_,sound.ledger,sound.dropped,?_,?_,?_⟩
  · intro id f side there
    exact (sound.flows id f there).bytes side
  · intro id f there removed
    have good := sound.flows id f there
    have cut := good.cut (.inl removed)
    exact ⟨cut.closed,cut.tokens,fun side => good.drained side (.inl removed),cut.tasks⟩
  · intro id f there
    exact (sound.flows id f there).late
  · intro id f there
    exact (sound.flows id f there).underflow

end NodeAgent.AnalysisClosing
