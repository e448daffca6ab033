import NodeAgent.RemoteController

/-!
What the state of the controller says is true. There is one lease of the gate at most, and the
state names it; there is one attempt of the periodic pull at most, and its slot is taken exactly
as long as it lives; a setting that is made while an attempt is still on its way outlives it.
-/
namespace NodeAgent.ControllerTruth
open NodeAgent.RemoteController NodeAgent.Transition

/-! ### The reload -/

def Active : LeasePhase → Bool
  | .running | .ready _ => true
  | _ => false

/-- The fields of the state that belong to the reload. -/
def reloadPart (state : ControllerState) : Bool × String × String × Option ReloadSingBoxResult :=
  (state.reloadInProgress,state.reloadOperation,state.reloadStage,state.lastReload)

/-- The fields that decide about the periodic pull. -/
def periodicPart (state : ControllerState) : Bool × ℕ × Option ℤ × Option ℕ :=
  (state.periodicEnabled,state.periodicInterval,state.periodicNextAttempt,state.periodicAttempt)

structure Reloads (state : ControllerState) (gate : Bool) (leases : List ReloadLease) (results : List ReloadSingBoxResult) : Prop where
  gate : leases.length = gate.toNat
  shown : ∀ lease ∈ leases, Active lease.phase = true → state.reloadInProgress = true ∧ state.reloadOperation = lease.operationId
  clear : (∀ lease ∈ leases, Active lease.phase = false) → state.reloadInProgress = false ∧ state.reloadOperation = "" ∧ state.reloadStage = ""
  last : state.lastReload = results.getLast?

section Reload
variable {state state' : ControllerState} {gate : Bool} {leases : List ReloadLease} {results : List ReloadSingBoxResult}

theorem Reloads.same (reloads : Reloads state gate leases results) (same : reloadPart state' = reloadPart state) : Reloads state' gate leases results := by
  simp only [reloadPart,Prod.mk.injEq] at same
  obtain ⟨inProgress,operation,stage,last⟩ := same
  refine ⟨reloads.gate,?_,?_,last.trans reloads.last⟩
  · rw [inProgress,operation]
    exact reloads.shown
  · rw [inProgress,operation,stage]
    exact reloads.clear

/-- The gate lets one lease in. -/
theorem Reloads.single (reloads : Reloads state gate leases results) {id : ℕ} {lease : ReloadLease} (known : leases[id]? = some lease) :
    leases = [lease] ∧ id = 0 ∧ gate = true := by
  have size := reloads.gate
  obtain ⟨inside,own⟩ := List.getElem?_eq_some_iff.mp known
  have taken : gate = true := by
    cases gate
    · rw [Bool.toNat_false] at size
      omega
    · rfl
  subst taken
  rw [Bool.toNat_true] at size
  obtain ⟨only,rfl⟩ := List.length_eq_one_iff.mp size
  have first : id = 0 := by
    rw [List.length_singleton] at inside
    omega
  subst first
  cases known
  exact ⟨rfl,rfl,rfl⟩

/-- A lease that has not changed the state, or has changed it back. -/
theorem Reloads.quiet {lease : ReloadLease} (clear : state.reloadInProgress = false ∧ state.reloadOperation = "" ∧ state.reloadStage = "")
    (last : state.lastReload = results.getLast?) (inactive : Active lease.phase = false) : Reloads state true [lease] results where
  gate := rfl
  shown other member active := by
    rw [List.mem_singleton.mp member,inactive] at active
    cases active
  clear _ := clear
  last := last

theorem Reloads.busy {lease : ReloadLease} (shown : state.reloadInProgress = true ∧ state.reloadOperation = lease.operationId)
    (last : state.lastReload = results.getLast?) (active : Active lease.phase = true) : Reloads state true [lease] results where
  gate := rfl
  shown other member _ := by
    rw [List.mem_singleton.mp member]
    exact shown
  clear inactive := by
    rw [inactive lease (List.mem_singleton_self lease)] at active
    cases active
  last := last

end Reload

section LeaseSteps
variable {w w' : World}

/-- What the task of a lease leaves alone. -/
structure PullsAlone (w w' : World) : Prop where
  part : periodicPart w'.state = periodicPart w.state
  attempts : w'.attempts = w.attempts
  loops : w'.loops = w.loops
  wakes : w'.pendingWakes = w.pendingWakes

theorem reloads_lease (before : Reloads w.state w.gate w.leases w.results) {id : ℕ} {lease : ReloadLease} (known : w.leases[id]? = some lease)
    {action : Action} (taken : leaseStep w id lease action = some w') : Reloads w'.state w'.gate w'.leases w'.results ∧ PullsAlone w w' := by
  obtain ⟨only,rfl,gate⟩ := before.single known
  have member : lease ∈ w.leases := by rw [only]; exact List.mem_singleton_self lease
  have placed (lease' : ReloadLease) : w.leases.set 0 lease' = [lease'] := by rw [only]; rfl
  have inactive (quiet : Active lease.phase = false) : w.state.reloadInProgress = false ∧ w.state.reloadOperation = "" ∧ w.state.reloadStage = "" := by
    refine before.clear (fun other listed => ?_)
    rw [only] at listed
    rw [List.mem_singleton.mp listed]
    exact quiet
  cases action with
  | enterReload _ =>
    dsimp only [leaseStep] at taken
    split at taken
    · cases taken
      refine ⟨?_,rfl,rfl,rfl,rfl⟩
      dsimp only [World.setLease]
      rw [placed,gate]
      exact Reloads.busy ⟨rfl,rfl⟩ before.last rfl
    · cases taken
  | setReloadStage _ stage =>
    dsimp only [leaseStep] at taken
    split at taken
    · next running =>
      cases taken
      refine ⟨?_,rfl,rfl,rfl,rfl⟩
      dsimp only
      rw [only,gate]
      have active : Active lease.phase = true := by rw [running]; rfl
      exact Reloads.busy (before.shown lease member active) before.last active
    · cases taken
  | reloaded _ late backend durationMillis completedAt =>
    dsimp only [leaseStep] at taken
    split at taken
    · next running =>
      cases taken
      refine ⟨?_,rfl,rfl,rfl,rfl⟩
      dsimp only [World.setLease]
      rw [placed,gate]
      have active : Active lease.phase = true := by rw [running]; rfl
      exact Reloads.busy (before.shown lease member active) before.last rfl
    · cases taken
  | finishReload _ =>
    dsimp only [leaseStep] at taken
    split at taken
    · next result ready =>
      cases taken
      refine ⟨?_,rfl,rfl,rfl,rfl⟩
      dsimp only [World.setLease]
      rw [placed,gate]
      exact Reloads.quiet ⟨rfl,rfl,rfl⟩ (by simp [ControllerState.endReload]) rfl
    · cases taken
  | dropReload _ =>
    have dropped : w' = { w.setLease 0 { lease with phase := .updated } with state := w.state.endReload none } := by
      dsimp only [leaseStep] at taken
      split at taken
      · exact (Option.some.inj taken).symm
      · exact (Option.some.inj taken).symm
      · cases taken
    subst dropped
    refine ⟨?_,rfl,rfl,rfl,rfl⟩
    dsimp only [World.setLease]
    rw [placed,gate]
    exact Reloads.quiet ⟨rfl,rfl,rfl⟩ before.last rfl
  | releaseGate _ =>
    dsimp only [leaseStep] at taken
    split at taken
    · next updated =>
      cases taken
      refine ⟨?_,rfl,rfl,rfl,rfl⟩
      dsimp only
      rw [only]
      refine ⟨rfl,?_,?_,before.last⟩
      · exact fun _ impossible => (by cases impossible)
      · exact fun _ => inactive (by rw [updated]; rfl)
    · cases taken
  | _ => cases taken

end LeaseSteps

/-! ### The periodic pull -/

/-- The attempt that a loop holds. -/
def holds : LoopPhase → Option ℕ
  | .pulling attempt | .pulled attempt _ _ => some attempt
  | _ => none

/-- An attempt that is not finished. -/
def Live (attempts : List PeriodicAttempt) (id : ℕ) : Prop := ∃ attempt, attempts[id]? = some attempt ∧ attempt.finished = false

structure Pulls (state : ControllerState) (attempts : List PeriodicAttempt) (loops : List Loop) : Prop where
  slot : ∀ id, state.periodicAttempt = some id ↔ Live attempts id
  held : ∀ i loop id, loops[i]? = some loop → holds loop.phase = some id → ∃ attempt, attempts[id]? = some attempt ∧ attempt.finished = false ∧ attempt.stream = i
  holder : ∀ id attempt, attempts[id]? = some attempt → attempt.finished = false → ∃ loop, loops[attempt.stream]? = some loop ∧ holds loop.phase = some id
  off : state.periodicEnabled = false → state.periodicNextAttempt = none
  on : state.periodicEnabled = true → state.periodicNextAttempt ≠ none ∨ state.periodicAttempt ≠ none

section Pull
variable {state state' : ControllerState} {attempts : List PeriodicAttempt} {loops : List Loop}

/-- A loop after one of them has changed. -/
theorem set_cases {i j : ℕ} {loop' other : Loop} (there : (loops.set i loop')[j]? = some other) : j = i ∧ other = loop' ∨ j ≠ i ∧ loops[j]? = some other := by
  by_cases equal : i = j
  · subst equal
    have inside := (List.getElem?_eq_some_iff.mp there).1
    rw [List.length_set] at inside
    rw [List.getElem?_set_self inside] at there
    exact .inl ⟨rfl,(Option.some.inj there).symm⟩
  · rw [List.getElem?_set_ne equal] at there
    exact .inr ⟨Ne.symm equal,there⟩

theorem pulls_initial : Pulls initial.state initial.attempts initial.loops where
  slot id := ⟨fun impossible => (by cases impossible),fun live => (by obtain ⟨_,impossible,_⟩ := live; cases impossible)⟩
  held _ _ _ impossible := by cases impossible
  holder _ _ impossible := by cases impossible
  off _ := rfl
  on impossible := by cases impossible

theorem Pulls.same (pulls : Pulls state attempts loops) (same : periodicPart state' = periodicPart state) : Pulls state' attempts loops := by
  simp only [periodicPart,Prod.mk.injEq] at same
  obtain ⟨enabled,_,next,attempt⟩ := same
  refine ⟨?_,pulls.held,pulls.holder,?_,?_⟩
  · rw [attempt]
    exact pulls.slot
  · rw [enabled,next]
    exact pulls.off
  · rw [enabled,next,attempt]
    exact pulls.on

/-- There is one live attempt at most. -/
theorem Pulls.one (pulls : Pulls state attempts loops) {id other : ℕ} (live : Live attempts id) (live' : Live attempts other) : id = other :=
  Option.some.inj (((pulls.slot id).mpr live).symm.trans ((pulls.slot other).mpr live'))

/-- A loop moves on and holds what it held. -/
theorem Pulls.moved (pulls : Pulls state attempts loops) {i : ℕ} {loop loop' : Loop} (known : loops[i]? = some loop) (same : holds loop'.phase = holds loop.phase) :
    Pulls state attempts (loops.set i loop') := by
  have inside := (List.getElem?_eq_some_iff.mp known).1
  refine ⟨pulls.slot,?_,?_,pulls.off,pulls.on⟩
  · intro j other id there holding
    rcases set_cases there with ⟨rfl,rfl⟩ | ⟨_,before⟩
    · exact pulls.held j loop id known (same ▸ holding)
    · exact pulls.held j other id before holding
  · intro id attempt there live
    obtain ⟨other,place,holding⟩ := pulls.holder id attempt there live
    by_cases equal : i = attempt.stream
    · rw [← equal,known] at place
      cases place
      exact ⟨loop',by rw [← equal,List.getElem?_set_self inside],same.trans holding⟩
    · exact ⟨other,by rw [List.getElem?_set_ne equal,place],holding⟩

/-- Waking changes no phase, and a new stream holds nothing. -/
theorem Pulls.woken (pulls : Pulls state attempts loops) : Pulls state attempts (loops.map (fun loop => { loop with woken := true })) := by
  refine ⟨pulls.slot,?_,?_,pulls.off,pulls.on⟩
  · intro i loop id there holding
    rw [List.getElem?_map] at there
    obtain ⟨before,known,rfl⟩ := Option.map_eq_some_iff.mp there
    exact pulls.held i before id known holding
  · intro id attempt there live
    obtain ⟨loop,known,holding⟩ := pulls.holder id attempt there live
    exact ⟨{ loop with woken := true },by rw [List.getElem?_map,known]; rfl,holding⟩

theorem Pulls.opened (pulls : Pulls state attempts loops) {loop : Loop} (free : holds loop.phase = none) : Pulls state attempts (loops ++ [loop]) := by
  refine ⟨pulls.slot,?_,?_,pulls.off,pulls.on⟩
  · intro i other id there holding
    rw [List.getElem?_append] at there
    split at there
    · exact pulls.held i other id there holding
    · obtain rfl := List.mem_singleton.mp (List.mem_of_getElem? there)
      rw [free] at holding
      cases holding
  · intro id attempt there live
    obtain ⟨other,known,holding⟩ := pulls.holder id attempt there live
    exact ⟨other,by rw [List.getElem?_append_left (List.getElem?_eq_some_iff.mp known).1,known],holding⟩

/-- Cancelling an attempt neither ends nor moves it. -/
theorem Pulls.cancelled (pulls : Pulls state attempts loops) (id : ℕ) : Pulls state (attempts.modify id (fun a => { a with cancelled := true })) loops := by
  have back {other : ℕ} {attempt : PeriodicAttempt} (there : (attempts.modify id (fun a => { a with cancelled := true }))[other]? = some attempt) :
      ∃ before, attempts[other]? = some before ∧ before.finished = attempt.finished ∧ before.stream = attempt.stream := by
    rw [List.getElem?_modify] at there
    obtain ⟨before,known,rfl⟩ := Option.map_eq_some_iff.mp there
    refine ⟨before,known,?_⟩
    split <;> exact ⟨rfl,rfl⟩
  have forth {other : ℕ} {before : PeriodicAttempt} (known : attempts[other]? = some before) :
      ∃ attempt, (attempts.modify id (fun a => { a with cancelled := true }))[other]? = some attempt ∧ attempt.finished = before.finished ∧
        attempt.stream = before.stream := by
    refine ⟨_,by rw [List.getElem?_modify,known]; rfl,?_⟩
    split <;> exact ⟨rfl,rfl⟩
  refine ⟨fun other => (pulls.slot other).trans ⟨?_,?_⟩,?_,?_,pulls.off,pulls.on⟩
  · rintro ⟨before,known,live⟩
    obtain ⟨attempt,there,finished,_⟩ := forth known
    exact ⟨attempt,there,finished.trans live⟩
  · rintro ⟨attempt,there,live⟩
    obtain ⟨before,known,finished,_⟩ := back there
    exact ⟨before,known,finished.trans live⟩
  · intro i loop other known holding
    obtain ⟨before,place,live,stream⟩ := pulls.held i loop other known holding
    obtain ⟨attempt,there,finished,stream'⟩ := forth place
    exact ⟨attempt,there,finished.trans live,stream'.trans stream⟩
  · intro other attempt there live
    obtain ⟨before,known,finished,stream⟩ := back there
    rw [← stream]
    exact pulls.holder other before known (finished.trans live)

/-- A loop begins an attempt. -/
theorem Pulls.begun (pulls : Pulls state attempts loops) {i : ℕ} {loop : Loop} (known : loops[i]? = some loop) {now : ℤ}
    (begun : state.beginPeriodicAttempt attempts.length now = some state') {loop' : Loop} (holding : holds loop'.phase = some attempts.length) :
    Pulls state' (attempts ++ [⟨i,false,false⟩]) (loops.set i loop') := by
  have inside := (List.getElem?_eq_some_iff.mp known).1
  unfold ControllerState.beginPeriodicAttempt at begun
  split at begun
  · cases begun
  next may =>
  cases begun
  obtain ⟨enabled,empty⟩ := not_or.mp may
  have none : state.periodicAttempt = none := by simpa using empty
  have nothing (id : ℕ) : ¬ Live attempts id := by
    intro live
    rw [(pulls.slot id).mpr live] at none
    cases none
  refine ⟨?_,?_,?_,?_,?_⟩
  · intro id
    constructor
    · rintro same
      cases same
      exact ⟨⟨i,false,false⟩,by simp,rfl⟩
    · rintro ⟨attempt,there,live⟩
      rw [List.getElem?_append] at there
      split at there
      · exact absurd ⟨attempt,there,live⟩ (nothing id)
      · next beyond =>
        have last := (List.getElem?_eq_some_iff.mp there).1
        rw [List.length_singleton] at last
        have equal : id = attempts.length := by omega
        rw [equal]
  · intro j other id there holding'
    rcases set_cases there with ⟨rfl,rfl⟩ | ⟨_,before⟩
    · rw [holding] at holding'
      cases holding'
      exact ⟨⟨j,false,false⟩,by simp,rfl,rfl⟩
    · obtain ⟨attempt,place,live,_⟩ := pulls.held j other id before holding'
      exact absurd ⟨attempt,place,live⟩ (nothing id)
  · intro id attempt there live
    rw [List.getElem?_append] at there
    split at there
    · exact absurd ⟨attempt,there,live⟩ (nothing id)
    · next beyond =>
      have last := (List.getElem?_eq_some_iff.mp there).1
      rw [List.length_singleton] at last
      have equal : id = attempts.length := by omega
      obtain rfl := List.mem_singleton.mp (List.mem_of_getElem? there)
      exact ⟨loop',by rw [List.getElem?_set_self inside],by rw [equal]; exact holding⟩
  · exact fun disabled => absurd disabled enabled
  · exact fun _ => .inr (Option.some_ne_none _)

theorem finishPeriodicAttempt_part (state : ControllerState) (error : Option String) (wasCancelled : Bool) (now : ℤ) :
    (state.finishPeriodicAttempt error wasCancelled now).periodicAttempt = none ∧
    (state.finishPeriodicAttempt error wasCancelled now).periodicEnabled = state.periodicEnabled ∧
    (state.finishPeriodicAttempt error wasCancelled now).periodicInterval = state.periodicInterval ∧
    (state.finishPeriodicAttempt error wasCancelled now).periodicNextAttempt =
      (if state.periodicEnabled ∧ state.periodicNextAttempt.isNone then some (now + state.periodicInterval) else state.periodicNextAttempt) ∧
    reloadPart (state.finishPeriodicAttempt error wasCancelled now) = reloadPart state := by
  unfold ControllerState.finishPeriodicAttempt
  cases error with
  | none =>
    dsimp only
    split
    · exact ⟨rfl,rfl,rfl,rfl,rfl⟩
    · exact ⟨rfl,rfl,rfl,rfl,rfl⟩
  | some error =>
    dsimp only
    by_cases quiet : state.periodicEnabled = false ∨ wasCancelled = true
    · rw [if_pos quiet]
      dsimp only
      split
      · exact ⟨rfl,rfl,rfl,rfl,rfl⟩
      · exact ⟨rfl,rfl,rfl,rfl,rfl⟩
    · rw [if_neg quiet]
      dsimp only
      split
      · exact ⟨rfl,rfl,rfl,rfl,rfl⟩
      · exact ⟨rfl,rfl,rfl,rfl,rfl⟩

/-- The loop that holds an attempt finishes it. -/
theorem Pulls.finished (pulls : Pulls state attempts loops) {i id : ℕ} {loop : Loop} (known : loops[i]? = some loop) (holding : holds loop.phase = some id)
    (error : Option String) (wasCancelled : Bool) (now : ℤ) {loop' : Loop} (free : holds loop'.phase = none) :
    Pulls (state.finishPeriodicAttempt error wasCancelled now) (attempts.modify id (fun a => { a with finished := true })) (loops.set i loop') := by
  have inside := (List.getElem?_eq_some_iff.mp known).1
  obtain ⟨own,place,live,stream⟩ := pulls.held i loop id known holding
  obtain ⟨empty,enabled,_,next,_⟩ := finishPeriodicAttempt_part state error wasCancelled now
  have ended (other : ℕ) : ¬ Live (attempts.modify id (fun a => { a with finished := true })) other := by
    rintro ⟨attempt,there,still⟩
    rw [List.getElem?_modify] at there
    obtain ⟨before,here,rfl⟩ := Option.map_eq_some_iff.mp there
    split at still
    · cases still
    · next different => exact different (pulls.one ⟨own,place,live⟩ ⟨before,here,still⟩)
  refine ⟨?_,?_,?_,?_,?_⟩
  · intro other
    rw [empty]
    exact ⟨fun impossible => (by cases impossible),fun still => absurd still (ended other)⟩
  · intro j other id' there holding'
    rcases set_cases there with ⟨rfl,rfl⟩ | ⟨different,before⟩
    · rw [free] at holding'
      cases holding'
    · obtain ⟨attempt,place',live',stream'⟩ := pulls.held j other id' before holding'
      have same := pulls.one ⟨own,place,live⟩ ⟨attempt,place',live'⟩
      subst same
      rw [place] at place'
      cases place'
      exact absurd (stream'.symm.trans stream) different
  · exact fun other attempt there still => absurd ⟨attempt,there,still⟩ (ended other)
  · intro disabled
    rw [enabled] at disabled
    rw [next,if_neg (by rw [disabled]; simp)]
    exact pulls.off disabled
  · intro on
    rw [enabled] at on
    left
    rw [next]
    split
    · exact Option.some_ne_none _
    · next set =>
      intro none
      exact set ⟨on,by rw [none]; rfl⟩

end Pull

/-! ### Runs -/

structure Truthful (w : World) : Prop where
  reloads : Reloads w.state w.gate w.leases w.results
  pulls : Pulls w.state w.attempts w.loops

/-- What the loops leave alone. -/
structure ReloadsAlone (w w' : World) : Prop where
  part : reloadPart w'.state = reloadPart w.state
  gate : w'.gate = w.gate
  leases : w'.leases = w.leases
  results : w'.results = w.results

section Steps
variable {w w' : World}

theorem cancelAttempt_same (w : World) (attempt : Option ℕ) : (w.cancelAttempt attempt).state = w.state ∧ (w.cancelAttempt attempt).loops = w.loops ∧
    (w.cancelAttempt attempt).pendingWakes = w.pendingWakes ∧ ReloadsAlone w (w.cancelAttempt attempt) := by
  cases attempt <;> exact ⟨rfl,rfl,rfl,rfl,rfl,rfl,rfl⟩

theorem Pulls.cancelAttempt (pulls : Pulls w.state w.attempts w.loops) (attempt : Option ℕ) :
    Pulls w.state (w.cancelAttempt attempt).attempts w.loops := by
  cases attempt with
  | none => exact pulls
  | some id => exact pulls.cancelled id

/-- What one step of a loop can do: it moves on with what it holds, begins an attempt, or ends the one that it holds. -/
inductive LoopMove (w : World) (id : ℕ) (loop : Loop) : World → Prop
  | moved (loop' : Loop) (same : holds loop'.phase = holds loop.phase) : LoopMove w id loop (w.setLoop id loop')
  | begun (loop' : Loop) (state : ControllerState) (now : ℤ) (begun : w.state.beginPeriodicAttempt w.attempts.length now = some state)
      (holding : holds loop'.phase = some w.attempts.length) :
      LoopMove w id loop { w.setLoop id loop' with state := state, attempts := w.attempts ++ [⟨id,false,false⟩] }
  | ended (loop' : Loop) (attempt : ℕ) (cancelled : Option ℕ) (error : Option String) (wasCancelled : Bool) (now : ℤ) (holding : holds loop.phase = some attempt)
      (free : holds loop'.phase = none) : LoopMove w id loop (((w.setLoop id loop').cancelAttempt cancelled).finishAttempt attempt error wasCancelled now)

theorem loopStep_move {id : ℕ} {loop : Loop} {action : Action} (taken : loopStep w id loop action = some w') : LoopMove w id loop w' := by
  cases action with
  | cancelStream _ =>
    cases taken
    exact .moved _ rfl
  | listen _ =>
    dsimp only [loopStep] at taken
    split at taken
    · next top =>
      cases taken
      split
      · exact .moved _ (by rw [top]; rfl)
      · exact .moved _ (by rw [top]; rfl)
    · cases taken
  | readSchedule _ =>
    dsimp only [loopStep] at taken
    split at taken
    · next listening =>
      cases taken
      exact .moved _ (by rw [listening]; rfl)
    · cases taken
  | decide _ now =>
    dsimp only [loopStep] at taken
    split at taken
    · next schedule scheduled =>
      cases taken
      refine .moved _ ?_
      rw [scheduled]
      dsimp only
      split
      · rfl
      · split <;> rfl
    · cases taken
  | elapse _ =>
    dsimp only [loopStep] at taken
    split at taken
    · next sleeping =>
      cases taken
      exact .moved _ (by rw [sleeping]; rfl)
    · cases taken
  | wake _ =>
    dsimp only [loopStep] at taken
    split at taken
    · next waiting =>
      cases taken
      refine .moved _ ?_
      rcases waiting.2 with phase | phase <;> rw [phase] <;> rfl
    · cases taken
  | stop _ =>
    dsimp only [loopStep] at taken
    split at taken
    · next waiting =>
      cases taken
      refine .moved _ ?_
      rcases waiting.2 with phase | phase <;> rw [phase] <;> rfl
    · cases taken
  | beginAttempt _ now =>
    dsimp only [loopStep] at taken
    split at taken
    · next due =>
      split at taken
      · cases taken
        exact .moved _ (by rw [due]; rfl)
      · next state begun =>
        cases taken
        exact .begun _ state now begun rfl
    · cases taken
  | pulled _ error =>
    dsimp only [loopStep] at taken
    split at taken
    · next attempt pulling =>
      cases taken
      exact .moved _ (by rw [pulling]; rfl)
    · cases taken
  | finishAttempt _ now =>
    dsimp only [loopStep] at taken
    split at taken
    · next attempt error cancelled pulled =>
      cases taken
      exact .ended _ attempt none error cancelled now (by rw [pulled]; rfl) rfl
    · cases taken
  | dropAttempt _ now =>
    dsimp only [loopStep] at taken
    split at taken
    · next attempt pulling =>
      cases taken
      exact .ended _ attempt (some attempt) _ true now (by rw [pulling]; rfl) rfl
    · next attempt _ _ pulled =>
      cases taken
      exact .ended _ attempt (some attempt) _ true now (by rw [pulled]; rfl) rfl
    · cases taken
  | _ => cases taken

/-- One step of a loop keeps what is known of the pull. -/
theorem pulls_loop (before : Pulls w.state w.attempts w.loops) {id : ℕ} {loop : Loop} (known : w.loops[id]? = some loop) (move : LoopMove w id loop w') :
    Pulls w'.state w'.attempts w'.loops ∧ ReloadsAlone w w' := by
  cases move with
  | moved loop' same => exact ⟨before.moved known same,rfl,rfl,rfl,rfl⟩
  | begun loop' state now begun holding =>
    refine ⟨before.begun known begun holding,?_,rfl,rfl,rfl⟩
    unfold ControllerState.beginPeriodicAttempt at begun
    split at begun
    · cases begun
    · cases begun
      rfl
  | ended loop' attempt cancelled error wasCancelled now holding free =>
    have part := (finishPeriodicAttempt_part w.state error wasCancelled now).2.2.2.2
    cases cancelled with
    | none => exact ⟨before.finished known holding error wasCancelled now free,part,rfl,rfl,rfl⟩
    | some other => exact ⟨(before.cancelled other).finished known holding error wasCancelled now free,part,rfl,rfl,rfl⟩

theorem setPeriodic_part (state : ControllerState) (enabled : Bool) (interval : ℕ) (now : ℤ) :
    periodicPart (state.setPeriodic enabled interval now) =
      (enabled,if enabled then interval else 0,if enabled then some now else none,state.periodicAttempt) ∧
    reloadPart (state.setPeriodic enabled interval now) = reloadPart state := by
  cases enabled <;> exact ⟨rfl,rfl⟩

theorem Pulls.set {state : ControllerState} {attempts : List PeriodicAttempt} {loops : List Loop} (pulls : Pulls state attempts loops)
    (enabled : Bool) (interval : ℕ) (now : ℤ) : Pulls (state.setPeriodic enabled interval now) attempts loops := by
  cases enabled
  · exact ⟨pulls.slot,pulls.held,pulls.holder,fun _ => rfl,fun impossible => (by cases impossible)⟩
  · exact ⟨pulls.slot,pulls.held,pulls.holder,fun impossible => (by cases impossible),fun _ => .inl (Option.some_ne_none _)⟩

theorem Truthful.alone (truthful : Truthful w) (alone : ReloadsAlone w w') (pulls : Pulls w'.state w'.attempts w'.loops) : Truthful w' := by
  refine ⟨?_,pulls⟩
  rw [alone.gate,alone.leases,alone.results]
  exact truthful.reloads.same alone.part

theorem truthful_lease (before : Truthful w) {id : ℕ} {action : Action}
    (taken : (w.leases[id]?.bind (fun lease => leaseStep w id lease action)) = some w') : Truthful w' := by
  obtain ⟨lease,known,taken⟩ := Option.bind_eq_some_iff.mp taken
  obtain ⟨reloads,alone⟩ := reloads_lease before.reloads known taken
  refine ⟨reloads,?_⟩
  rw [alone.attempts,alone.loops]
  exact before.pulls.same alone.part

theorem truthful_loop (before : Truthful w) {id : ℕ} {action : Action}
    (taken : (w.loops[id]?.bind (fun loop => loopStep w id loop action)) = some w') : Truthful w' := by
  obtain ⟨loop,known,taken⟩ := Option.bind_eq_some_iff.mp taken
  obtain ⟨pulls,alone⟩ := pulls_loop before.pulls known (loopStep_move taken)
  exact before.alone alone pulls

theorem truthful_step (before : Truthful w) {action : Action} (taken : step w action = some w') : Truthful w' := by
  cases action with
  | beginReload operationId =>
    dsimp only [step] at taken
    split at taken
    · cases taken
      exact before
    · next free =>
      cases taken
      have open_ : w.gate = false := by simpa using free
      have reloads := before.reloads
      have none : w.leases = [] := by
        have size := reloads.gate
        rw [open_] at size
        exact List.length_eq_zero_iff.mp size
      refine ⟨?_,before.pulls⟩
      dsimp only
      rw [none]
      exact Reloads.quiet (reloads.clear (by rw [none]; exact fun _ impossible => (by cases impossible))) reloads.last rfl
  | setPeriodic enabled interval now =>
    cases taken
    obtain ⟨same,loops,_,alone⟩ := cancelAttempt_same w w.state.periodicAttempt
    refine before.alone ⟨(setPeriodic_part ..).2,alone.gate,alone.leases,alone.results⟩ ?_
    dsimp only
    rw [loops]
    exact (before.pulls.cancelAttempt _).set enabled interval now
  | notify =>
    dsimp only [step] at taken
    split at taken
    · cases taken
    · cases taken
      exact before.alone ⟨rfl,rfl,rfl,rfl⟩ before.pulls.woken
  | openStream =>
    cases taken
    exact before.alone ⟨rfl,rfl,rfl,rfl⟩ (before.pulls.opened rfl)
  | enterReload id | setReloadStage id _ | reloaded id _ _ _ _ | finishReload id | dropReload id | releaseGate id => exact truthful_lease before taken
  | cancelStream id | listen id | readSchedule id | decide id _ | elapse id | wake id | stop id | beginAttempt id _ | pulled id _ | finishAttempt id _
  | dropAttempt id _ => exact truthful_loop before taken

end Steps

theorem truthful_run {actions : List Action} {w : World} (run : Run step initial actions w) : Truthful w := by
  have begins : Truthful initial := ⟨⟨rfl,fun _ impossible => (by cases impossible),fun _ => ⟨rfl,rfl,rfl⟩,rfl⟩,pulls_initial⟩
  exact run.invariant begins (fun _ _ _ before taken => truthful_step before taken)

/-! ### Settings -/

/-- What a setting consists of. -/
def setting (state : ControllerState) : Bool × ℕ × Option ℤ := (state.periodicEnabled,state.periodicInterval,state.periodicNextAttempt)

section Settings
variable {w w' : World}

/-- While an attempt lives, nothing but another setting changes the setting. -/
theorem setting_kept (truthful : Truthful w) {id : ℕ} (live : Live w.attempts id) (ready : w.state.periodicEnabled = true → w.state.periodicNextAttempt ≠ none)
    {action : Action} (other : ∀ enabled interval now, action ≠ .setPeriodic enabled interval now) (taken : step w action = some w') :
    setting w'.state = setting w.state := by
  have taken_slot : w.state.periodicAttempt = some id := (truthful.pulls.slot id).mpr live
  have finished (error : Option String) (wasCancelled : Bool) (now : ℤ) : setting (w.state.finishPeriodicAttempt error wasCancelled now) = setting w.state := by
    obtain ⟨_,enabled,interval,next,_⟩ := finishPeriodicAttempt_part w.state error wasCancelled now
    unfold setting
    rw [enabled,interval,next,if_neg]
    rintro ⟨on,empty⟩
    exact ready on (Option.isNone_iff_eq_none.mp empty)
  have leases {lease : ℕ} (taken : (w.leases[lease]?.bind (fun own => leaseStep w lease own action)) = some w') : setting w'.state = setting w.state := by
    obtain ⟨own,known,taken⟩ := Option.bind_eq_some_iff.mp taken
    have part := (reloads_lease truthful.reloads known taken).2.part
    simp only [periodicPart,Prod.mk.injEq] at part
    simp only [setting,part]
  have loops {stream : ℕ} (taken : (w.loops[stream]?.bind (fun loop => loopStep w stream loop action)) = some w') : setting w'.state = setting w.state := by
    obtain ⟨loop,known,taken⟩ := Option.bind_eq_some_iff.mp taken
    cases loopStep_move taken with
    | moved loop' same => rfl
    | begun loop' state now begun holding =>
      unfold ControllerState.beginPeriodicAttempt at begun
      rw [if_pos (.inr (by rw [taken_slot]; rfl))] at begun
      cases begun
    | ended loop' attempt cancelled error wasCancelled now holding free => cases cancelled <;> exact finished error wasCancelled now
  cases action with
  | beginReload operationId =>
    dsimp only [step] at taken
    split at taken <;> cases taken <;> rfl
  | setPeriodic enabled interval now => exact absurd rfl (other enabled interval now)
  | notify =>
    dsimp only [step] at taken
    split at taken
    · cases taken
    · cases taken
      rfl
  | openStream =>
    cases taken
    rfl
  | enterReload id | setReloadStage id _ | reloaded id _ _ _ _ | finishReload id | dropReload id | releaseGate id => exact leases taken
  | cancelStream id | listen id | readSchedule id | decide id _ | elapse id | wake id | stop id | beginAttempt id _ | pulled id _ | finishAttempt id _
  | dropAttempt id _ => exact loops taken

/-- No attempt comes back to life. -/
structure Ages (attempts attempts' : List PeriodicAttempt) : Prop where
  length : attempts.length ≤ attempts'.length
  live : ∀ id < attempts.length, Live attempts' id → Live attempts id

theorem Ages.refl (attempts : List PeriodicAttempt) : Ages attempts attempts := ⟨Nat.le_refl _,fun _ _ live => live⟩

theorem Ages.trans {a b c : List PeriodicAttempt} (first : Ages a b) (second : Ages b c) : Ages a c :=
  ⟨Nat.le_trans first.length second.length,fun id inside live => first.live id inside (second.live id (Nat.lt_of_lt_of_le inside first.length) live)⟩

theorem Ages.modify (attempts : List PeriodicAttempt) (i : ℕ) {f : PeriodicAttempt → PeriodicAttempt} (keeps : ∀ a, (f a).finished = false → a.finished = false) :
    Ages attempts (attempts.modify i f) := by
  refine ⟨Nat.le_of_eq (List.length_modify ..).symm,?_⟩
  rintro id _ ⟨attempt,there,live⟩
  rw [List.getElem?_modify] at there
  obtain ⟨before,known,rfl⟩ := Option.map_eq_some_iff.mp there
  refine ⟨before,known,?_⟩
  split at live
  · exact keeps before live
  · exact live

theorem Ages.append (attempts : List PeriodicAttempt) (attempt : PeriodicAttempt) : Ages attempts (attempts ++ [attempt]) := by
  refine ⟨by simp,?_⟩
  rintro id inside ⟨other,there,live⟩
  rw [List.getElem?_append_left inside] at there
  exact ⟨other,there,live⟩

theorem ages_cancelAttempt (w : World) (attempt : Option ℕ) : Ages w.attempts (w.cancelAttempt attempt).attempts := by
  cases attempt with
  | none => exact Ages.refl _
  | some id => exact Ages.modify _ _ (fun _ live => live)

theorem ages_step (truthful : Truthful w) {action : Action} (taken : step w action = some w') : Ages w.attempts w'.attempts := by
  have leases {lease : ℕ} (taken : (w.leases[lease]?.bind (fun own => leaseStep w lease own action)) = some w') : Ages w.attempts w'.attempts := by
    obtain ⟨own,known,taken⟩ := Option.bind_eq_some_iff.mp taken
    rw [(reloads_lease truthful.reloads known taken).2.attempts]
    exact Ages.refl _
  have loops {stream : ℕ} (taken : (w.loops[stream]?.bind (fun loop => loopStep w stream loop action)) = some w') : Ages w.attempts w'.attempts := by
    obtain ⟨loop,known,taken⟩ := Option.bind_eq_some_iff.mp taken
    cases loopStep_move taken with
    | moved loop' same => exact Ages.refl _
    | begun loop' state now begun holding => exact Ages.append _ _
    | ended loop' attempt cancelled error wasCancelled now holding free =>
      have cancels := ages_cancelAttempt (w.setLoop stream loop') cancelled
      exact cancels.trans (Ages.modify _ _ (fun _ impossible => (by cases impossible)))
  cases action with
  | beginReload operationId =>
    dsimp only [step] at taken
    split at taken <;> cases taken <;> exact Ages.refl _
  | setPeriodic enabled interval now =>
    cases taken
    exact ages_cancelAttempt w _
  | notify =>
    dsimp only [step] at taken
    split at taken
    · cases taken
    · cases taken
      exact Ages.refl _
  | openStream =>
    cases taken
    exact Ages.refl _
  | enterReload id | setReloadStage id _ | reloaded id _ _ _ _ | finishReload id | dropReload id | releaseGate id => exact leases taken
  | cancelStream id | listen id | readSchedule id | decide id _ | elapse id | wake id | stop id | beginAttempt id _ | pulled id _ | finishAttempt id _
  | dropAttempt id _ => exact loops taken

/-- A setting stays while the attempt that it found is alive. -/
structure Waits (set : Bool × ℕ × Option ℤ) (id : ℕ) (w : World) : Prop where
  truthful : Truthful w
  old : id < w.attempts.length
  setting : Live w.attempts id → setting w.state = set

theorem waits_step {set : Bool × ℕ × Option ℤ} {id : ℕ} (sensible : set.1 = true → set.2.2 ≠ none) (before : Waits set id w) {action : Action}
    (other : ∀ enabled interval now, action ≠ .setPeriodic enabled interval now) (taken : step w action = some w') :
    Waits set id w' ∧ (Live w.attempts id → setting w'.state = set) := by
  have ages := ages_step before.truthful taken
  have kept (live : Live w.attempts id) : setting w'.state = set := by
    have own := before.setting live
    refine (setting_kept before.truthful live ?_ other taken).trans own
    rw [← own] at sensible
    exact sensible
  exact ⟨⟨truthful_step before.truthful taken,Nat.lt_of_lt_of_le before.old ages.length,fun live => kept (ages.live id before.old live)⟩,kept⟩

end Settings

/-! ### The controller -/

/-- What the state says is true in every state that is reached, and a setting that is made while an
    attempt is on its way cancels it and is still in place right after it. -/
theorem controller_truthful {actions : List Action} {w : World} (run : Run step initial actions w) :
    (w.leases.length ≤ 1 ∧
      ((snapshotState w.state).reloadInProgress = true → ∃ lease ∈ w.leases, (snapshotState w.state).reloadOperationId = lease.operationId) ∧
      (w.leases = [] → (snapshotState w.state).reloadInProgress = false ∧ (snapshotState w.state).reloadOperationId = "" ∧ (snapshotState w.state).reloadStage = "") ∧
      (snapshotState w.state).lastReload = w.results.getLast?) ∧
    ((∀ id other, Live w.attempts id → Live w.attempts other → id = other) ∧
      (∀ id, w.state.periodicAttempt = some id ↔ Live w.attempts id) ∧
      (w.state.periodicEnabled = false → w.state.periodicNextAttempt = none) ∧
      (w.state.periodicEnabled = true → w.state.periodicNextAttempt ≠ none ∨ ∃ id, Live w.attempts id)) ∧
    (∀ id enabled interval now w₁, Live w.attempts id → step w (.setPeriodic enabled interval now) = some w₁ →
      (∃ attempt, w₁.attempts[id]? = some attempt ∧ attempt.cancelled = true) ∧
      ∀ between w₂ action w₃, Run step w₁ between w₂ → (∀ e ∈ between, ∀ enabled interval now, e ≠ .setPeriodic enabled interval now) →
        (∀ enabled interval now, action ≠ .setPeriodic enabled interval now) → Live w₂.attempts id → step w₂ action = some w₃ →
        w₃.state.periodicEnabled = enabled ∧ w₃.state.periodicInterval = (if enabled then interval else 0) ∧
          w₃.state.periodicNextAttempt = (if enabled then some now else none)) := by
  have truthful := truthful_run run
  have reloads := truthful.reloads
  have pulls := truthful.pulls
  refine ⟨⟨?_,?_,?_,reloads.last⟩,⟨fun _ _ => pulls.one,pulls.slot,pulls.off,?_⟩,?_⟩
  · rw [reloads.gate]
    exact Bool.toNat_le _
  · intro inProgress
    by_contra none
    push Not at none
    have inactive (lease : ReloadLease) (member : lease ∈ w.leases) : Active lease.phase = false := by
      cases active : Active lease.phase with
      | false => rfl
      | true => exact absurd (reloads.shown lease member active).2 (none lease member)
    rw [snapshotState,(reloads.clear inactive).1] at inProgress
    cases inProgress
  · intro none
    exact reloads.clear (by rw [none]; exact fun _ impossible => (by cases impossible))
  · intro on
    refine (pulls.on on).imp_right ?_
    intro slot
    obtain ⟨id,known⟩ := Option.ne_none_iff_exists'.mp slot
    exact ⟨id,(pulls.slot id).mp known⟩
  · intro id enabled interval now w₁ live taken
    have slot := (pulls.slot id).mpr live
    obtain ⟨attempt,known,_⟩ := live
    have truthful₁ := truthful_step truthful taken
    cases taken
    constructor
    · rw [slot]
      refine ⟨{ attempt with cancelled := true },?_,rfl⟩
      dsimp only [World.cancelAttempt]
      rw [List.getElem?_modify,known]
      simp
    · intro between w₂ action w₃ run' others other live₂ taken₃
      have inside := (List.getElem?_eq_some_iff.mp known).1
      have part := (setPeriodic_part w.state enabled interval now).1
      simp only [periodicPart,Prod.mk.injEq] at part
      obtain ⟨enabled₁,interval₁,next₁,_⟩ := part
      have waits₁ : Waits (enabled,if enabled then interval else 0,if enabled then some now else none) id
          { w.cancelAttempt w.state.periodicAttempt with state := w.state.setPeriodic enabled interval now, pendingWakes := w.pendingWakes + 1 } :=
        ⟨truthful₁,Nat.lt_of_lt_of_le inside (ages_cancelAttempt w _).length,fun _ => by rw [setting,enabled₁,interval₁,next₁]⟩
      have sensible : enabled = true → (if enabled then some now else none) ≠ none := by
        rintro rfl
        exact Option.some_ne_none _
      have waits₂ : Waits (enabled,if enabled then interval else 0,if enabled then some now else none) id w₂ :=
        run'.keeps (I := fun _ w => Waits _ id w) (fun e => ∀ enabled interval now, e ≠ Action.setPeriodic enabled interval now) waits₁
          (fun _ _ _ _ before allowed taken => (waits_step sensible before allowed taken).1) others
      have kept := (waits_step sensible waits₂ other taken₃).2 live₂
      simpa [setting] using kept

/-- A reload is running, and an attempt is on its way when the setting changes. -/
def busyController : List Action := [.openStream,.beginReload "r1",.enterReload 0,.beginReload "r2",.setPeriodic true 60000000000 5,.notify,.listen 0,.readSchedule 0,
  .decide 0 6,.beginAttempt 0 7]

theorem busy_controller_truthful : ∃ w, Run step initial busyController w ∧ (snapshotState w.state).reloadOperationId = "r1" ∧ w.leases.length ≤ 1 ∧
    Live w.attempts 0 ∧ ∀ w₁ w₂, step w (.setPeriodic false 0 8) = some w₁ → Live w₁.attempts 0 → step w₁ (.dropAttempt 0 9) = some w₂ →
      w₂.state.periodicEnabled = false ∧ w₂.state.periodicNextAttempt = none := by
  have reached : ∃ w, Run step initial busyController w ∧ (snapshotState w.state).reloadOperationId = "r1" ∧ Live w.attempts 0 :=
    ⟨_,Run.of_follow rfl,rfl,⟨0,false,false⟩,rfl,rfl⟩
  obtain ⟨w,run,operation,live⟩ := reached
  obtain ⟨⟨leases,_⟩,_,settings⟩ := controller_truthful run
  refine ⟨w,run,operation,leases,live,?_⟩
  intro w₁ w₂ set live₁ dropped
  have kept := (settings 0 false 0 8 w₁ live set).2 [] w₁ (.dropAttempt 0 9) w₂ .nil (fun _ impossible => (by cases impossible)) (by simp) live₁ dropped
  exact ⟨kept.1,kept.2.2⟩

end NodeAgent.ControllerTruth
