import NodeAgent.Consistency

/-!
Conditions that every run keeps. What survives the engine calls of a transaction
(`Lasting`), a forced stop of a listener whose owner is known, a drain and metering holds
in every state that the runtime reaches, whatever fails on the way.
-/
namespace NodeAgent.Endurance
open NodeAgent.Api NodeAgent.Commit NodeAgent.Consistency NodeAgent.EngineTable NodeAgent.Fallible NodeAgent.FiniteMap NodeAgent.Recovery
  NodeAgent.Rollback NodeAgent.Runtime NodeAgent.RuntimeCalls NodeAgent.Shapes NodeAgent.Transaction NodeAgent.Transition NodeAgent.Upkeep
variable {V : Type} {shoes : Shoes V} {I : World V → Prop} {w w' : World V}

/-- The entry owns whoever is on the listener, if it is there at all. -/
def Owned (w : World V) (tag : String) (known : Option (RetiringInbound V)) : Prop :=
  ∀ shape, shapes w.engine tag = some shape → ∃ retiring, known = some retiring ∧ Tracks retiring tag shape

/-- Kept by everything that the runtime does. -/
structure Enduring (shoes : Shoes V) (I : World V → Prop) : Prop extends Lasting shoes I where
  forceStop : ∀ (w : World V) (tag : String) (known : Option (RetiringInbound V)), I w → Apart (shapes w.engine) → Owned w tag known →
    Ensures (forceStopTag tag known) w (fun _ w' => I w')
  drain : ∀ w : World V, I w → (∀ config, w.state.current = some config → ByTag config) →
    Ensures (@drainTrafficOwned V Empty) w (fun _ w' => I w')
  meter : ∀ (w : World V) (traffic : Meter), I w → I (meterTraffic w traffic)

theorem byTag_of_wellFormed {config : NormalizedConfig V} (wellFormed : WellFormed config) : ByTag config :=
  fun tag inbound found => (wellFormed tag inbound found).tag

section
variable (enduring : Enduring shoes I)
include enduring

theorem Enduring.ask {α : Type} (answer : Engine V → Except EngineError α) : Keeps I (Runtime.ask answer) := by
  intro w held
  exact Ensures.mono ((enduring.closed w.journal).ask answer w ⟨held,rfl⟩) (fun _ _ both => both.1)

theorem Enduring.addInboundWithReplay (spec : InboundSpec V) (lease : InboundReplayLease) :
    Keeps I (callAddInboundWithReplay shoes spec lease) := by
  intro w held
  exact Ensures.mono ((enduring.closed w.journal).addInboundWithReplay spec lease w ⟨held,rfl⟩) (fun _ _ both => both.1)

/-! ### Recovery -/

theorem Enduring.publishRecoveryLive {ε : Type} (live : Map String (RetiringInbound V)) : Keeps I (@publishRecoveryLive V ε live) :=
  Keeps.change (fun w held => enduring.frame w _ rfl rfl rfl held)

theorem Enduring.recoverStop {ε : Type} {progress : List String × Map String (RetiringInbound V)} {tag : String} (held : I w)
    (apart : Apart (shapes w.engine)) (known : AllKnown progress.2 (shapes w.engine)) :
    Ensures (@recoverStop V ε progress tag) w (fun _ w' => I w') := by
  have owned : Owned w tag progress.2[tag]? := fun shape there => known tag shape there
  refine Ensures.attempt_bind (enduring.forceStop w tag progress.2[tag]? held apart owned) ?_
  rintro (error | value) w₁ held₁
  · exact Ensures.pure held₁
  · exact Keeps.bind (enduring.publishRecoveryLive _) (fun _ => Keeps.pure _) w₁ held₁

theorem Enduring.recoverStart (replay : Map String InboundReplayLease) (live : Map String (RetiringInbound V))
    (entry : String × NormalizedInbound V) : Keeps I (recoverStart shoes replay live entry) := by
  unfold Transaction.recoverStart
  dsimp only
  split
  · exact Keeps.fail _
  refine Keeps.attempt_bind (enduring.addInboundWithReplay _ _) ?_
  rintro (error | value)
  · exact Keeps.look_bind (fun _ held => held)
  · exact Keeps.bind (enduring.publishRecoveryLive _) (fun _ => Keeps.pure _)

theorem Enduring.publishKnown {ε : Type} (config : NormalizedConfig V) : Keeps I (@publishKnown V ε config) :=
  Keeps.change (fun w held => enduring.frame w _ rfl rfl rfl held)

theorem Enduring.recover (steady : Steady shoes w) (held : I w) : Ensures (recoverIfNeeded shoes) w (fun _ w' => I w') := by
  refine Ensures.look_bind ?_
  split
  · exact Ensures.pure held
  next lost =>
  have lost : w.state.current = none := by simpa using lost
  obtain ⟨recovery,retained,before⟩ := steady.lost lost
  rw [retained,Option.getD_some]
  refine Ensures.change_bind ?_
  have start := recovering_start steady before
  refine Ensures.bind (Q := fun _ w' => I w') ?_ ?_ (fun _ _ held' => held')
  · refine Ensures.foldEach (fun done progress w' => Stopping shoes w done progress w' ∧ I w') ⟨⟨start,fun _ absent => absent,?_⟩,?_⟩ ?_
      (fun _ _ both => both.2)
    · intro _ tag member
      cases member
    · exact enduring.frame w _ rfl rfl rfl held
    · rintro done tag rest progress w' _ ⟨stopping,held'⟩
      have known := stopping.recovering.known
      refine Ensures.mono (Ensures.and (ensures_recoverStop stopping tag)
        (enduring.recoverStop held' stopping.recovering.apart known)) ?_
      rintro (no | progress') w'' ⟨stopped,kept⟩
      · exact stopped.elim
      · exact ⟨stopped,kept⟩
  rintro ⟨errors,live⟩ w₁ held₁
  change I w₁ at held₁
  dsimp only
  split
  · exact Ensures.look_bind (Ensures.fail held₁)
  refine Ensures.bind (Keeps.orFail (enduring.ask _) w₁ held₁) (fun _ w₂ held₂ => ?_) (fun _ _ held' => held')
  refine Ensures.bind (Keeps.foldEach (A := fun _ => True) trivial (fun live' _ entry _ =>
    ⟨enduring.recoverStart w.recoveryReplay live' entry,Returns.any _⟩) w₂ held₂) (fun _ w₃ held₃ => ?_) (fun _ _ held' => held')
  exact enduring.publishKnown recovery w₃ held₃

/-! ### Transactions -/

theorem Enduring.preflight (desired : NormalizedConfig V) (forceReload : Bool) (steady : Steady shoes w) (held : I w) :
    Ensures (preflight shoes desired forceReload) w (fun _ w' => I w') := by
  have recovered : Ensures (orFail (recoverIfNeeded shoes) TransactionError.refused) w (fun _ w' => I w') :=
    Ensures.orFail (enduring.recover steady held) (fun _ _ held' => held') (fun _ _ held' => held')
  refine Ensures.bind recovered (fun _ w₁ held₁ => ?_) (fun _ _ held' => held')
  refine Ensures.look_bind ?_
  cases w₁.state.current with
  | none => exact Ensures.look_bind (Ensures.fail held₁)
  | some previous =>
    refine Keeps.bind ?_ (fun _ => ?_) w₁ held₁
    · refine Keeps.forEach (fun entry _ => Keeps.attempt_bind (enduring.ask _) ?_)
      rintro (error | value)
      · exact Keeps.look_bind (fun _ held' => held')
      · exact Keeps.pure _
    refine Keeps.attempt_bind (enduring.ask _) ?_
    rintro (error | value)
    · exact Keeps.look_bind (fun _ held' => held')
    · refine Keeps.bind (Keeps.foldEach (A := fun _ => True) trivial (fun replay _ tag _ => ⟨?_,Returns.any _⟩)) (fun _ => Keeps.pure _)
      refine Keeps.attempt_bind (enduring.ask _) ?_
      rintro (error | lease)
      · exact Keeps.fail _
      · exact Keeps.pure _

theorem Enduring.apply [DecidableEq V] (config : RuntimeConfig V) (digest : Credential.Bytes) (forceReload : Bool) (steady : Steady shoes w) (held : I w) :
    Ensures (applyTransactionLocked shoes config digest forceReload) w (fun _ w' => I w') := by
  refine Ensures.look_bind ?_
  split
  · exact Ensures.look_bind (Ensures.fail held)
  split
  · exact Ensures.look_bind (Ensures.fail held)
  next desired normalized =>
  have byTag' := byTag_of_wellFormed (normalize_wellFormed normalized)
  refine Ensures.bind (Ensures.and (ensures_preflight steady) (enduring.preflight desired forceReload steady held)) ?_
    (fun _ _ both => both.2)
  rintro ⟨previous,previousReplay,dns⟩ w₁ ⟨prepared,held₁⟩
  change Prepared shoes desired w (previous,previousReplay,dns) w₁ at prepared
  have byTag := byTag_of_wellFormed (prepared.steady.known previous prepared.current).wellFormed
  have ready : Ready I w₁ := by
    refine ⟨held₁,?_⟩
    rw [prepared.steady.journal]
    intro undo member
    cases member
  have lasting := enduring.toLasting
  have finish (failure : StepFailure) : Keeps (Ready I) (do
      let failed ← finishFailedTransaction shoes previous previousReplay failure dns
      fail (.failed failed) : Op (World V) TransactionError Unit) :=
    Keeps.bind (keeps_finishFailed lasting previous previousReplay failure dns) (fun _ => Keeps.fail _)
  refine Ensures.look_bind ?_
  refine Ensures.mono (Q := fun _ w' => Ready I w') ?_ (fun _ _ both => both.1)
  refine Keeps.bind (keeps_configureDns lasting _) ?_ w₁ ready
  rintro (error | value)
  · exact finish _
  · refine Keeps.attempt_bind (keeps_executeApply lasting byTag byTag' dns.fullReload) ?_
    rintro (failure | value)
    · exact finish failure
    · refine Keeps.bind (keeps_publishKnown lasting desired) (fun _ => Keeps.change ?_)
      rintro w₂ ⟨held₂,-⟩
      refine ⟨enduring.frame w₂ _ rfl rfl rfl held₂,?_⟩
      intro undo member
      cases member

/-! ### Close -/

omit enduring in
theorem owned_closeKnown {known : NormalizedConfig V} {live : Map String (RetiringInbound V)} (wellFormed : WellFormed known)
    (cover : Cover known live (shapes w.engine)) (tag : String) : Owned w tag (closeKnown (some known) live tag) := by
  intro shape there
  unfold closeKnown
  rcases cover tag shape there with ⟨retiring,entry,tracks⟩ | ⟨unknown,inbound,found,covers⟩
  · rw [entry]
    exact ⟨retiring,rfl,tracks⟩
  · rw [unknown]
    refine ⟨⟨inbound,inbound⟩,?_,covers.retiring,(wellFormed tag inbound found).tag⟩
    show ((known.inbounds[tag]?).map _) = _
    rw [found]
    rfl

theorem Enduring.publishClosed {ε : Type} : Keeps I (@publishClosed V ε) :=
  Keeps.bind (enduring.publishKnown _) (fun _ => Keeps.change (fun w held => enduring.frame w _ rfl rfl rfl held))

theorem Enduring.closeTag {ε : Type} {known : Option (NormalizedConfig V)} {live : Map String (RetiringInbound V)} {errors : List String}
    {tag : String} (held : I w) (apart : Apart (shapes w.engine)) (owned : Owned w tag (closeKnown known live tag)) :
    Ensures (@closeTag V ε known live errors tag) w (fun _ w' => I w') := by
  refine Ensures.attempt_bind (enduring.forceStop w tag _ held apart owned) ?_
  rintro (error | value) w' held'
  · exact Ensures.pure held'
  · exact Ensures.pure held'

theorem Enduring.close (steady : Steady shoes w) (held : I w) : Ensures closeOwned w (fun _ w' => I w') := by
  refine Ensures.change_bind (Ensures.look_bind ?_)
  have held : I { w with closing := true } := enduring.frame w _ rfl rfl rfl held
  dsimp only
  split
  · exact enduring.publishClosed _ held
  obtain ⟨known,before,wellFormed,-,cover,-⟩ := Steady.owner steady
  refine Ensures.bind (Q := fun _ w' => I w') ?_ (fun errors w₁ held₁ => ?_) (fun _ _ held' => held')
  · refine Ensures.foldEach (fun done errors w' => Closing shoes known { w with closing := true } done errors w' ∧ I w') ⟨?_,held⟩ ?_
      (fun _ _ both => both.2)
    · refine ⟨Quiet.refl _,rfl,steady.sound,steady.apart,cover,fun _ absent => absent,?_⟩
      intro _ tag member
      cases member
    · rintro done tag rest errors w' _ ⟨closing,held'⟩
      have owned : Owned w' tag (closeKnown (publishedBefore w) w.state.recoveryLive tag) := by
        rw [before]
        exact owned_closeKnown wellFormed closing.cover tag
      refine Ensures.mono (Ensures.and (ensures_closeTag closing _ _) (enduring.closeTag held' closing.apart owned)) ?_
      rintro (no | errors') w'' ⟨closed,kept⟩
      · exact closed.elim
      · exact ⟨closed,kept⟩
  · refine Ensures.change_bind ?_
    split
    · exact enduring.publishClosed _ (enduring.frame w₁ _ rfl rfl rfl held₁)
    · exact Ensures.change_bind (Ensures.look_bind (Ensures.fail (enduring.frame w₁ _ rfl rfl rfl held₁)))

/-! ### Runs -/

theorem Enduring.perform {ε α : Type} {p : Op (World V) ε α} {script : List Moment}
    (keeps : ∀ w, Steady shoes w → I w → Ensures p w (fun _ w' => I w')) (steady : Steady shoes w) (held : I w) :
    I (perform p script w) := by
  have started : I { w with script := script } := enduring.frame w _ rfl rfl rfl held
  have done : I (p { w with script := script }).2 := keeps _ (Steady.rescript steady script) started
  exact enduring.frame (p { w with script := script }).2 _ rfl rfl rfl done

theorem Enduring.step [DecidableEq V] {event : Event V} (steady : Steady shoes w) (held : I w)
    (stepped : Transaction.step shoes w event = some w') : I w' := by
  cases event with
  | apply config digest forceReload script =>
    cases stepped
    exact enduring.perform (fun w steady held => enduring.apply config digest forceReload steady held) steady held
  | beginClose =>
    cases stepped
    exact enduring.frame w _ rfl rfl rfl held
  | close script =>
    cases stepped
    exact enduring.perform (fun w steady held => enduring.close steady held) steady held
  | drainTraffic script =>
    cases stepped
    refine enduring.perform (fun w steady held => enduring.drain w held ?_) steady held
    intro config published
    exact byTag_of_wellFormed (steady.known config published).wellFormed
  | meter traffic =>
    cases stepped
    exact enduring.meter w traffic held

/-- What holds at the start holds in every state that is reached. -/
theorem Enduring.run [DecidableEq V] {maxKeys : Nat} {events : List (Event V)} (initial : I (initial V maxKeys))
    (run : Run (Transaction.step shoes) (Runtime.initial V maxKeys) events w) : I w := by
  have both : Steady shoes w ∧ I w := by
    refine run.invariant (I := fun w => Steady shoes w ∧ I w) ⟨steady_initial shoes maxKeys,initial⟩ ?_
    rintro s e s' ⟨steady,held⟩ stepped
    exact ⟨steady_step steady stepped,enduring.step steady held stepped⟩
  exact both.2

end

end NodeAgent.Endurance
