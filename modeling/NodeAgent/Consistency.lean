import NodeAgent.Recovery
import NodeAgent.RegistryRuns

/-!
Whole transactions and runs of them. Whenever no transaction is running, a published
config is what the engine's table shows, and an indeterminate runtime owns everything
that is live (`Steady`); an error that says rolled back or unchanged is true.
-/
namespace NodeAgent.Consistency
open NodeAgent.Api NodeAgent.Apply NodeAgent.Commit NodeAgent.EngineSound NodeAgent.EngineTable NodeAgent.Fallible NodeAgent.FiniteMap
  NodeAgent.Recovery NodeAgent.Rollback NodeAgent.Runtime NodeAgent.RuntimeCalls NodeAgent.Shapes NodeAgent.Transaction NodeAgent.Transition
open NodeAgent.Credential (Bytes)
variable {V : Type} {shoes : Shoes V} {w w' : World V}

/-! ### Normal configs -/

theorem listSpecs_cons {user : UserSpec} {rest : List UserSpec} {id : String} :
    listSpecs (user :: rest) id = if user.resolvedId = some id then some user else listSpecs rest id := by
  unfold listSpecs
  rw [List.find?_cons]
  by_cases own : user.resolvedId = some id
  · simp [own]
  · simp [own]

theorem normalizeUsers_lookup {tag : String} {list : List UserSpec} {users users' : Map String UserSpec}
    (normalized : normalizeUsers tag users list = .ok users') (id : String) : users'[id]? = (users[id]?).or (listSpecs list id) := by
  induction list generalizing users with
  | nil =>
    cases normalized
    simp [listSpecs]
  | cons user rest ih =>
    unfold normalizeUsers at normalized
    split at normalized
    · cases normalized
    next own resolved =>
    split at normalized
    · cases normalized
    split at normalized
    · cases normalized
    next fresh =>
    have fresh : users[own]? = none := by simpa using fresh
    rw [ih normalized,lookup_insert,listSpecs_cons,resolved]
    by_cases same : own = id
    · subst same
      simp [fresh]
    · simp [same]

theorem normalizeInbound_normal {compiled : CompiledInbound V} {inbound : NormalizedInbound V}
    (normalized : normalizeInbound compiled = .ok inbound) : Normal inbound.compiled.spec.tag inbound := by
  unfold normalizeInbound at normalized
  dsimp only at normalized
  split at normalized
  · cases normalized
  split at normalized
  · cases normalized
  split at normalized
  · cases normalized
  split at normalized
  · cases normalized
  next users listed =>
  cases normalized
  refine ⟨rfl,?_,rfl⟩
  intro id
  rw [normalizeUsers_lookup listed]
  simp

theorem normalizeInbounds_normal {list : List (CompiledInbound V)} {inbounds inbounds' : Map String (NormalizedInbound V)}
    (normalized : normalizeInbounds inbounds list = .ok inbounds')
    (normal : ∀ (tag : String) (inbound : NormalizedInbound V), inbounds[tag]? = some inbound → Normal tag inbound) :
    ∀ (tag : String) (inbound : NormalizedInbound V), inbounds'[tag]? = some inbound → Normal tag inbound := by
  induction list generalizing inbounds with
  | nil => cases normalized; exact normal
  | cons compiled rest ih =>
    unfold normalizeInbounds at normalized
    split at normalized
    · cases normalized
    next inbound made =>
    dsimp only at normalized
    split at normalized
    · cases normalized
    refine ih normalized ?_
    intro tag other found
    rw [lookup_insert] at found
    split at found
    · next same =>
      cases found
      subst same
      exact normalizeInbound_normal made
    · exact normal tag other found

theorem normalize_wellFormed {config : RuntimeConfig V} {digest : Bytes} {desired : NormalizedConfig V}
    (normalized : normalize config digest = .ok desired) : WellFormed desired := by
  unfold Runtime.normalize at normalized
  split at normalized
  · cases normalized
  next inbounds made =>
  cases normalized
  exact normalizeInbounds_normal made (by simp)

/-! ### Preflight -/

/-- The leases on the tags so far. -/
structure Capturing (w : World V) (done : List String) (replay : Map String InboundReplayLease) (w' : World V) : Prop where
  same : Same w w'
  admits : Admits replay (lineages w.engine)
  retains : ∀ tag ∈ done, (replay[tag]?).isSome
  listed : ∀ tag : String, (replay[tag]?).isSome → tag ∈ done

theorem ensures_captureLease {config : NormalizedConfig V} {done : List String} {replay : Map String InboundReplayLease}
    (sound : SoundEngine shoes w.engine) (capturing : Capturing w done replay w') (tag : String) :
    Ensures (captureLease config replay tag) w' (Outcome (Capturing w (done ++ [tag])) (fun error w'' => Same w w'' ∧ ∃ e, error = .refused e)) := by
  refine Ensures.attempt_bind (ensures_ask w') ?_
  rintro (error | lease) w₁ ⟨same,answer⟩
  · exact Ensures.fail ⟨capturing.same.trans same,_,rfl⟩
  have all := capturing.same.trans same
  unfold preserveInboundReplay at answer
  split at answer
  · cases answer
  next slot held =>
  cases answer
  refine Ensures.pure ⟨all,?_,?_,?_⟩
  · intro other lease found
    rw [lookup_insert] at found
    split at found
    · next own =>
      cases found
      subst own
      refine ⟨rfl,?_⟩
      rw [← all.lineages]
      exact (sound_of_same sound all).rooted tag (slotShape slot) (by simp [shapes,held])
    · exact capturing.admits other lease found
  · intro other member
    rw [lookup_insert]
    by_cases own : tag = other
    · simp [own]
    · rw [if_neg own]
      rcases List.mem_append.mp member with earlier | last
      · exact capturing.retains other earlier
      · exact absurd (List.mem_singleton.mp last).symm own
  · intro other leased
    rw [lookup_insert] at leased
    rw [List.mem_append,List.mem_singleton]
    by_cases own : tag = other
    · exact .inr own.symm
    · rw [if_neg own] at leased
      exact .inl (capturing.listed other leased)

theorem ensures_captureReplayState {config : NormalizedConfig V} (sound : SoundEngine shoes w.engine) :
    Ensures (captureReplayState config) w (Outcome
      (fun replay w' => Same w w' ∧ Captured config (lineages w.engine) replay) (fun error w' => Same w w' ∧ ∃ e, error = .refused e)) := by
  refine Ensures.foldEach (fun done replay w' => Capturing w done replay w') ⟨Same.refl w,?_,?_,?_⟩ ?_ ?_
  · intro tag lease found
    simp at found
  · intro tag member
    cases member
  · intro tag leased
    simp at leased
  · intro done tag rest replay w' _ capturing
    exact ensures_captureLease sound capturing tag
  · rintro replay w' capturing
    have keys (tag : String) : tag ∈ config.inbounds.keys ↔ (config.inbounds[tag]?).isSome := by
      rw [Std.ExtTreeMap.mem_keys,Std.ExtTreeMap.mem_iff_isSome_getElem?]
    exact ⟨capturing.same,capturing.admits,fun tag present => capturing.retains tag ((keys tag).mpr present),
      fun tag leased => (keys tag).mp (capturing.listed tag leased)⟩

/-- Every inbound of the config passes its own check. -/
def Valid (shoes : Shoes V) (config : NormalizedConfig V) : Prop :=
  ∀ (tag : String) (inbound : NormalizedInbound V), config.inbounds[tag]? = some inbound → validateInbound shoes inbound.compiled.spec = .ok ()

theorem ensures_validateAll {desired : NormalizedConfig V} (w : World V) :
    Ensures (forEach desired.inbounds.toList (validateDesired shoes)) w (Outcome (fun _ w' => Same w w' ∧ Valid shoes desired)
      (fun error w' => Same w w' ∧ ∃ e, error = .refused e)) := by
  refine Ensures.forEach (fun done w' => Same w w' ∧ ∀ entry ∈ done, validateInbound shoes entry.2.compiled.spec = .ok ()) ?_ ?_ ?_
  · refine ⟨Same.refl w,?_⟩
    intro entry member
    cases member
  · rintro done entry rest w' _ ⟨same,earlier⟩
    refine Ensures.attempt_bind (ensures_ask w') ?_
    rintro (error | value) w₁ ⟨same₁,answer⟩
    · exact Ensures.look_bind (Ensures.fail ⟨same.trans same₁,_,rfl⟩)
    · refine Ensures.pure ⟨same.trans same₁,?_⟩
      intro other member
      rcases List.mem_append.mp member with before | last
      · exact earlier other before
      · rw [List.mem_singleton.mp last]
        exact answer
  · rintro w' ⟨same,all⟩
    exact ⟨same,fun tag inbound found => all (tag,inbound) ((mem_toList desired.inbounds).mpr found)⟩

/-- What a preflight hands to its transaction. -/
structure Prepared (shoes : Shoes V) (desired : NormalizedConfig V) (w : World V)
    (plan : NormalizedConfig V × Map String InboundReplayLease × DnsReloadContext) (w' : World V) : Prop where
  steady : Steady shoes w'
  opened : Open w w'
  current : w'.state.current = some plan.1
  before : publishedBefore w = some plan.1
  captured : Captured plan.1 (lineages w'.engine) plan.2.1
  valid : Valid shoes desired

/-- A refusal changes nothing that is published. -/
def Refused (shoes : Shoes V) (w : World V) (error : TransactionError) (w' : World V) : Prop :=
  Steady shoes w' ∧ Open w w' ∧ ∃ e, error = .refused e

theorem ensures_preflight {desired : NormalizedConfig V} {forceReload : Bool} (steady : Steady shoes w) :
    Ensures (preflight shoes desired forceReload) w (Outcome (Prepared shoes desired w) (Refused shoes w)) := by
  refine Ensures.bind (Ensures.orFail (R := Outcome
    (fun _ w' => Steady shoes w' ∧ Open w w' ∧ (w'.state.current).isSome ∧ w'.state.current = publishedBefore w) (Refused shoes w))
    (ensures_recover steady) (fun _ _ held => held) (fun error w' held => ⟨held.1,held.2,_,rfl⟩)) ?_ (fun _ _ held => held)
  rintro _ w₁ ⟨steady₁,opened,known,before⟩
  refine Ensures.look_bind ?_
  cases current : w₁.state.current with
  | none => rw [current] at known; cases known
  | some previous =>
    dsimp only
    refine Ensures.bind (ensures_validateAll w₁) ?_ (fun error w₂ held => ⟨steady₁.same held.1,opened.same held.1,held.2⟩)
    rintro _ w₂ ⟨same,valid⟩
    refine Ensures.attempt_bind (ensures_ask w₂) ?_
    rintro (error | value) w₃ ⟨same',_⟩
    · have all := same.trans same'
      exact Ensures.look_bind (Ensures.fail ⟨steady₁.same all,opened.same all,_,rfl⟩)
    have all := same.trans same'
    refine Ensures.bind (ensures_captureReplayState (steady₁.same all).sound) ?_
      (fun error w₄ held => ⟨steady₁.same (all.trans held.1),opened.same (all.trans held.1),held.2⟩)
    rintro replay w₄ ⟨same₄,captured⟩
    have whole := all.trans same₄
    refine Ensures.pure ⟨steady₁.same whole,opened.same whole,?_,?_,?_,valid⟩
    · rw [whole.state]; exact current
    · rw [← before]; exact current
    · rw [same₄.lineages]; exact captured

/-! ### The transaction -/

/-- A table that shows a config has its inbounds on keys of their own. -/
theorem installable_of_shown {config : NormalizedConfig V} (valid : Valid shoes config) (sound : SoundEngine shoes w.engine)
    (shows : table (shapes w.engine) = tableOf config) : Installable shoes config := by
  have here {tag : String} {inbound : NormalizedInbound V} (found : config.inbounds[tag]? = some inbound) :
      ∃ shape, shapes w.engine tag = some shape ∧ shape.config = inbound.compiled.spec.config := by
    have view := congrFun shows tag
    unfold table tableOf at view
    rw [found,Option.map_some] at view
    obtain ⟨shape,there,same⟩ := Option.map_eq_some_iff.mp view
    exact ⟨shape,there,congrArg View.config same⟩
  refine ⟨valid,?_⟩
  intro tag tag' inbound inbound' found found' different
  obtain ⟨shape,there,config⟩ := here found
  obtain ⟨shape',there',config'⟩ := here found'
  rw [← config,← config']
  exact sound.disjoint tag tag' shape shape' there there' different

/-- A transaction starts with an empty journal and the published config in place. -/
theorem phase_start {old new : NormalizedConfig V} (steady : Steady shoes w) (current : w.state.current = some old) :
    Phase shoes old new (lineages w.engine) w (tableOf old) [] w := by
  have determined := steady.known old current
  have unstarted (tag : String) : ¬ Starts w.journal tag := by
    rw [steady.journal]
    rintro ⟨_,_,member,_⟩
    cases member
  refine ⟨⟨rfl,rfl,rfl,id,steady.sound,?_⟩,determined.shows,fun tag starts => absurd starts (unstarted tag)⟩
  rw [steady.journal]
  refine ⟨steady.apart,fun _ _ => rfl,(by intro _ member; cases member),trivial,?_,fun _ _ => ⟨determined.shows,determined.collected⟩,?_⟩
  · intro tag shape there
    rw [known_empty]
    rcases cover_of_table determined.shows determined.collected tag shape there with ⟨_,entry,_⟩ | ⟨_,inbound,published,covers⟩
    · simp at entry
    · refine .inr ⟨?_,inbound,published,covers.mode,fun users id registry present => .inl (covers.ids users id registry present)⟩
      rintro ⟨_,_,member,_⟩
      cases member
  · intro _ tag retiring entry
    simp at entry

/-- What a transaction returns when it fails. -/
def Truthful (shoes : Shoes V) (w : World V) (error : TransactionError) (w' : World V) : Prop :=
  Steady shoes w' ∧ Open w w' ∧ ∀ failed, error = .failed failed → (failed.rolledBack = true ∨ failed.stateUnchanged = true) →
    w'.state.current.isSome ∧ w'.state.current = publishedBefore w

theorem Refused.truthful {error : TransactionError} (refused : Refused shoes w error w') : Truthful shoes w error w' := by
  obtain ⟨steady,opened,e,rfl⟩ := refused
  refine ⟨steady,opened,?_⟩
  intro failed no
  cases no

/-- A transaction keeps what holds between transactions, and its errors are true. -/
theorem ensures_apply [DecidableEq V] (steady : Steady shoes w) (config : RuntimeConfig V) (digest : Bytes) (forceReload : Bool) :
    Ensures (applyTransactionLocked shoes config digest forceReload) w (Outcome (fun _ w' => Steady shoes w' ∧ Open w w') (Truthful shoes w)) := by
  refine Ensures.look_bind ?_
  split
  · exact Ensures.look_bind (Ensures.fail ⟨steady,⟨rfl,rfl⟩,fun _ no => by cases no⟩)
  split
  · exact Ensures.look_bind (Ensures.fail ⟨steady,⟨rfl,rfl⟩,fun _ no => by cases no⟩)
  next desired normalized =>
  have wellFormedNew := normalize_wellFormed normalized
  refine Ensures.bind (ensures_preflight steady) ?_ (fun _ _ refused => refused.truthful)
  rintro ⟨previous,previousReplay,dns⟩ w₁ prepared
  change Prepared shoes desired w (previous,previousReplay,dns) w₁ at prepared
  have current : w₁.state.current = some previous := prepared.current
  have determined := prepared.steady.known previous current
  have phase : Phase shoes previous desired (lineages w₁.engine) w₁ (tableOf previous) [] w₁ := phase_start prepared.steady current
  have finish {w₂ : World V} {failure : StepFailure} (going : Going shoes previous desired (lineages w₁.engine) failure.restored w₁ w₂) :
      Ensures (do
        let failed ← finishFailedTransaction shoes previous previousReplay failure dns
        fail (.failed failed) : Op (World V) TransactionError Unit) w₂ (Outcome (fun _ w' => Steady shoes w' ∧ Open w w') (Truthful shoes w)) := by
    refine Ensures.bind (ensures_finishFailed dns determined.wellFormed wellFormedNew determined.installable prepared.captured going) ?_
      (fun _ _ no => no.elim)
    rintro failed w₃ ⟨steady₃,opened₃,truth⟩
    refine Ensures.fail ⟨steady₃,⟨opened₃.closing.trans prepared.opened.closing,opened₃.closed.trans prepared.opened.closed⟩,?_⟩
    intro error same flags
    cases same
    have published := truth flags
    rw [prepared.before,published]
    exact ⟨rfl,rfl⟩
  refine Ensures.look_bind ?_
  refine Ensures.bind (ensures_configureDns w₁ _) ?_ (fun _ _ no => no.elim)
  rintro (error | value) w₂ same
  · exact finish ((phase.same same).going.weaken _)
  · refine Ensures.attempt_bind (ensures_executeApply determined.wellFormed wellFormedNew (phase.same same) dns.fullReload) ?_
    rintro (failure | value) w₃ held
    · exact finish held
    · obtain ⟨started,phase₃⟩ := held
      have going := phase₃.going
      refine Ensures.change_bind (Ensures.change ⟨⟨going.sound,going.rolling.apart,rfl,?_,?_⟩,?_,?_⟩)
      · rintro config published
        cases published
        exact ⟨wellFormedNew,installable_of_shown prepared.valid going.sound phase₃.table,phase₃.table,phase₃.collected,rfl,rfl⟩
      · intro no
        cases no
      · exact going.closing.trans prepared.opened.closing
      · show w₃.state.closed = w.state.closed
        rw [going.state]
        exact prepared.opened.closed

/-! ### Close and drain -/

theorem shapes_of_empty {e : Engine V} (empty : e.inbounds.isEmpty = true) : shapes e = fun _ => none := by
  funext tag
  unfold shapes
  have nothing : e.inbounds = ∅ := Std.ExtTreeMap.isEmpty_iff.mp empty
  rw [nothing]
  simp

/-- An engine without inbounds shows the empty snapshot. -/
theorem determined_closed (empty : shapes w.engine = fun _ => none) (survivors : w.state.recoveryLive = ∅) (unleased : w.recoveryReplay = ∅) :
    Determined shoes (NormalizedConfig.default V) w := by
  refine ⟨?_,⟨?_,?_⟩,?_,?_,survivors,unleased⟩
  · intro tag inbound found
    simp [NormalizedConfig.default] at found
  · intro tag inbound found
    simp [NormalizedConfig.default] at found
  · intro tag tag' inbound inbound' found
    simp [NormalizedConfig.default] at found
  · funext tag
    rw [empty]
    simp [table,tableOf,NormalizedConfig.default]
  · intro tag shape users id has
    rw [empty] at has
    cases has.1

/-- How far a close has come. -/
structure Closing (shoes : Shoes V) (known : NormalizedConfig V) (w : World V) (done errors : List String) (w' : World V) : Prop where
  quiet : Quiet w w'
  lineage : lineages w'.engine = lineages w.engine
  sound : SoundEngine shoes w'.engine
  apart : Apart (shapes w'.engine)
  cover : Cover known w.state.recoveryLive (shapes w'.engine)
  absent : ∀ tag, shapes w.engine tag = none → shapes w'.engine tag = none
  gone : errors = [] → ∀ tag ∈ done, shapes w'.engine tag = none

theorem ensures_closeTag {ε : Type} {known : NormalizedConfig V} {done errors : List String} {tag : String}
    (closing : Closing shoes known w done errors w') (owner : Option (NormalizedConfig V)) (live : Map String (RetiringInbound V)) :
    Ensures (@closeTag V ε owner live errors tag) w' (Outcome (Closing shoes known w (done ++ [tag])) (fun _ _ => False)) := by
  refine Ensures.attempt_bind (Ensures.and (ensures_forceStop w' closing.apart tag (closeKnown owner live tag))
    (keeps_forceStopTag tag (closeKnown owner live tag) w' ⟨closing.sound,rfl⟩)) ?_
  have still {w₁ : World V} (narrowed : Narrowed tag w' w₁) (other : String) (absent : shapes w.engine other = none) :
      shapes w₁.engine other = none := by
    cases there : shapes w₁.engine other with
    | none => rfl
    | some shape =>
      obtain ⟨old,was,_⟩ := narrowed.shrinks other shape there
      rw [closing.absent other absent] at was
      cases was
  rintro (error | value) w₁ ⟨held,sound,_⟩
  · change Narrowed tag w' w₁ at held
    refine Ensures.pure ⟨closing.quiet.trans held.quiet,held.lineage.trans closing.lineage,sound,held.apart,closing.cover.shrinks held.shrinks,
      still held,?_⟩
    intro none_failed
    simp at none_failed
  · obtain ⟨narrowed,down⟩ := held
    refine Ensures.pure ⟨closing.quiet.trans narrowed.quiet,narrowed.lineage.trans closing.lineage,sound,narrowed.apart,
      closing.cover.shrinks narrowed.shrinks,still narrowed,?_⟩
    intro none_failed other member
    rw [down,Function.update_apply]
    split
    · rfl
    · next different =>
      rcases List.mem_append.mp member with earlier | last
      · exact closing.gone none_failed other earlier
      · exact absurd (List.mem_singleton.mp last) different

/-- There is a config to close by, and it owns what lives. -/
theorem Steady.owner (steady : Steady shoes w) : ∃ known, publishedBefore w = some known ∧ WellFormed known ∧ Installable shoes known ∧
    Cover known w.state.recoveryLive (shapes w.engine) ∧ Admits w.recoveryReplay (lineages w.engine) := by
  unfold publishedBefore
  cases current : w.state.current with
  | some config =>
    have determined := steady.known config current
    refine ⟨config,rfl,determined.wellFormed,determined.installable,?_,?_⟩
    · rw [determined.survivors]
      exact cover_of_table determined.shows determined.collected
    · rw [determined.unleased]
      intro tag lease found
      simp at found
  | none =>
    obtain ⟨recovery,retained,lost⟩ := steady.lost current
    exact ⟨recovery,retained,lost.wellFormed,lost.installable,lost.cover,lost.admits⟩

theorem ensures_close (steady : Steady shoes w) : Ensures closeOwned w (fun _ w' => Steady shoes w') := by
  refine Ensures.change_bind (Ensures.look_bind ?_)
  dsimp only
  split
  · next closed =>
    simp only [Bool.and_eq_true] at closed
    refine Ensures.change_bind (Ensures.change ⟨steady.sound,steady.apart,steady.journal,?_,?_⟩)
    · rintro config published
      cases published
      exact determined_closed (shapes_of_empty closed.2) rfl rfl
    · intro no
      cases no
  obtain ⟨known,before,wellFormed,installable,cover,admits⟩ := Steady.owner steady
  refine Ensures.bind (Q := Outcome (fun errors w' => Closing shoes known { w with closing := true } w.engine.inbounds.keys errors w')
    (fun _ _ => False)) ?_ ?_ (fun _ _ no => no.elim)
  · refine Ensures.foldEach (fun done errors w' => Closing shoes known { w with closing := true } done errors w') ?_ ?_ (fun _ _ done => done)
    · refine ⟨Quiet.refl _,rfl,steady.sound,steady.apart,cover,fun _ absent => absent,?_⟩
      intro _ tag member
      cases member
    · intro done tag rest errors w' _ closing
      exact ensures_closeTag closing _ _
  rintro errors w₁ closing
  change Closing shoes known { w with closing := true } w.engine.inbounds.keys errors w₁ at closing
  refine Ensures.change_bind ?_
  split
  · next none_failed =>
    have none_failed : errors = [] := by simpa using none_failed
    have empty : shapes w₁.engine = fun _ => none := by
      funext tag
      by_cases member : tag ∈ w.engine.inbounds.keys
      · exact closing.gone none_failed tag member
      · refine closing.absent tag ?_
        rw [Std.ExtTreeMap.mem_keys,Std.ExtTreeMap.mem_iff_isSome_getElem?,Option.not_isSome_iff_eq_none] at member
        show shapes w.engine tag = none
        unfold shapes
        rw [member]
        rfl
    refine Ensures.change_bind (Ensures.change ⟨closing.sound,closing.apart,closing.quiet.journal.trans steady.journal,?_,?_⟩)
    · rintro config published
      cases published
      exact determined_closed empty rfl rfl
    · intro no
      cases no
  · refine Ensures.change_bind (Ensures.look_bind (Ensures.fail ⟨closing.sound,closing.apart,closing.quiet.journal.trans steady.journal,?_,?_⟩))
    · intro config no
      cases no
    · intro _
      refine ⟨known,before,wellFormed,installable,?_,?_,?_⟩
      · show Cover known w₁.state.recoveryLive (shapes w₁.engine)
        rw [closing.quiet.state]
        exact closing.cover
      · show Admits w₁.recoveryReplay (lineages w₁.engine)
        rw [closing.quiet.recoveryReplay,closing.lineage]
        exact admits
      · intro no
        cases no

theorem ensures_drain {ε : Type} (w : World V) : Ensures (@drainTrafficOwned V ε) w (Outcome (fun _ w' => Same w w') (fun _ _ => False)) := by
  refine Ensures.look_bind (Ensures.change_bind ?_)
  refine Ensures.bind (Q := Outcome (fun _ w' => Same w w') (fun _ _ => False)) ?_ ?_ (fun _ _ no => no.elim)
  · refine Ensures.foldEach (fun _ _ w' => Same w w') (same_setPending w _) ?_ (fun _ _ same => same)
    intro done entry rest drained w₁ _ same
    have found := same.trans (same_seen w₁)
    refine Ensures.attempt_bind (ensures_call w₁) ?_
    rintro (error | users) w₂ held
    · refine Ensures.pure ?_
      rw [held.1]
      exact found
    · obtain ⟨e',taken,_,rfl⟩ := held
      obtain ⟨sameShapes,sameLineages⟩ := takeNonzero_shapes taken
      refine Ensures.pure ⟨⟨found.state,found.closing,found.recoveryReplay,found.journal,found.calm⟩,?_,?_⟩
      · exact sameShapes.trans found.shapes
      · exact sameLineages.trans found.lineages
  · exact fun drained w₁ same => Ensures.pure same

/-! ### Runs -/

theorem steady_initial (shoes : Shoes V) (maxKeys : Nat) : Steady shoes (initial V maxKeys) := by
  have empty : shapes (initial V maxKeys).engine = fun _ => none := shapes_of_empty (by simp [Runtime.initial,EngineTable.initial])
  refine ⟨⟨?_,?_,?_⟩,?_,rfl,?_,?_⟩
  · intro tag shape there
    rw [empty] at there
    cases there
  · intro tag tag' shape shape' there
    rw [empty] at there
    cases there
  · intro tag shape users has
    rw [empty] at has
    cases has.1
  · intro tag shape users id has
    rw [empty] at has
    cases has.1
  · rintro config published
    cases published
    exact determined_closed empty rfl rfl
  · intro no
    cases no

/-- The script is nobody's business between transactions. -/
theorem Steady.rescript (steady : Steady shoes w) (script : List Moment) : Steady shoes { w with script := script } :=
  ⟨steady.sound,steady.apart,steady.journal,fun config published =>
    let determined := steady.known config published
    ⟨determined.wellFormed,determined.installable,determined.shows,determined.collected,determined.survivors,determined.unleased⟩,
    fun lost => by
      obtain ⟨recovery,retained,before⟩ := steady.lost lost
      exact ⟨recovery,retained,before.wellFormed,before.installable,before.cover,before.admits,before.retained⟩⟩

theorem steady_perform {ε α : Type} {p : Op (World V) ε α} {script : List Moment}
    (keeps : ∀ w, Steady shoes w → Ensures p w (fun _ w' => Steady shoes w')) (steady : Steady shoes w) :
    Steady shoes (perform p script w) :=
  Steady.rescript (keeps { w with script := script } (Steady.rescript steady script)) []

theorem steady_step [DecidableEq V] {event : Event V} (steady : Steady shoes w) (stepped : step shoes w event = some w') : Steady shoes w' := by
  cases event with
  | apply config digest forceReload script =>
    cases stepped
    refine steady_perform (fun w steady => Ensures.mono (ensures_apply steady config digest forceReload) ?_) steady
    rintro (error | value) w' held
    · exact held.1
    · exact held.1
  | beginClose =>
    cases stepped
    exact ⟨steady.sound,steady.apart,steady.journal,fun config published =>
      let determined := steady.known config published
      ⟨determined.wellFormed,determined.installable,determined.shows,determined.collected,determined.survivors,determined.unleased⟩,
      fun lost => by
        obtain ⟨recovery,retained,before⟩ := steady.lost lost
        exact ⟨recovery,retained,before.wellFormed,before.installable,before.cover,before.admits,before.retained⟩⟩
  | close script =>
    cases stepped
    exact steady_perform (fun w steady => ensures_close steady) steady
  | drainTraffic script =>
    cases stepped
    refine steady_perform (fun w steady => Ensures.mono (ensures_drain w) ?_) steady
    rintro (no | records) w' held
    · exact held.elim
    · exact Steady.same steady held
  | meter traffic =>
    cases stepped
    exact Steady.same steady (same_meterTraffic w traffic)

theorem steady_run [DecidableEq V] {maxKeys : Nat} {events : List (Event V)} (run : Run (step shoes) (initial V maxKeys) events w) :
    Steady shoes w :=
  run.invariant (steady_initial shoes maxKeys) (fun _ _ _ steady stepped => steady_step steady stepped)

/-- The engine's table: the config and the users of every live tag. -/
def engineTable (e : Engine V) : Table V := table (shapes e)

/-- For every run and every choice of failing calls: a published config is what the engine
    runs, and a transaction that fails as rolled back or unchanged has left the config
    that was published before it. -/
theorem known_state_true [DecidableEq V] (shoes : Shoes V) (maxKeys : Nat) {events : List (Event V)} {w : World V}
    (run : Run (step shoes) (initial V maxKeys) events w) :
    (∀ config, w.state.current = some config → w.state.closed = false → engineTable w.engine = tableOf config) ∧
    ∀ (config : RuntimeConfig V) (digest : Bytes) (forceReload : Bool) (script : List Moment) (error : RuntimeError) (w' : World V),
      applyTransactionLocked shoes config digest forceReload { w with script := script } = (.error (.failed error),w') →
      (error.rolledBack = true ∨ error.stateUnchanged = true) →
      ∃ previous, publishedBefore w = some previous ∧ engineTable w'.engine = tableOf previous := by
  have steady := steady_run run
  refine ⟨fun config published _ => (steady.known config published).shows,?_⟩
  intro config digest forceReload script error w' failed flags
  have truthful := ensures_apply (Steady.rescript steady script) config digest forceReload
  unfold Ensures at truthful
  rw [failed] at truthful
  obtain ⟨steady',_,truth⟩ := truthful
  obtain ⟨known,same⟩ := truth error rfl flags
  obtain ⟨previous,published⟩ := Option.isSome_iff_exists.mp known
  refine ⟨previous,?_,(steady'.known previous published).shows⟩
  rw [published] at same
  exact same.symm

/-- A Hysteria2 server that forwards no UDP, so that its rules can change in place. -/
structure Hysteria2 where
  port : UInt16
  rules : String
deriving DecidableEq

def hysteria2 : Shoes Hysteria2 where
  derivations := RegistryRuns.underived
  validate _ _ := .ok ()
  bindKeys config := [.socket (.v4 2130706433 config.port) .udp]
  text _ := "127.0.0.1/udp"
  registryKinds _ := .ok RegistryRuns.plainPassword
  reloadRejection running candidate := if running.port = candidate.port then none else some "the listen address has changed"
  reload_keeps_listen running candidate stays key := by
    split at stays
    · next same => rw [same]
    · cases stays

/-- A node that serves these users. -/
def serves (tag : String) (port : UInt16) (rules : String) (users : List UserSpec) : CompiledInbound Hysteria2 :=
  ⟨"node-" ++ tag,"hysteria2",⟨tag,⟨port,rules⟩,some users⟩⟩

def oneServer : RuntimeConfig Hysteria2 :=
  ⟨[serves "in" 443 "allow" [RegistryRuns.passwordUser "alice" "secret"]],List.replicate 32 0⟩

/-- New rules for the server, and another server on its port. -/
def conflicting : RuntimeConfig Hysteria2 :=
  ⟨[serves "in" 443 "deny" [RegistryRuns.passwordUser "alice" "secret"],serves "out" 443 "allow" []],List.replicate 32 0⟩

/-- A transaction failed and says that it was rolled back. -/
def saysRolledBack : Except TransactionError Unit → Bool
  | .error (.failed error) => error.rolledBack
  | _ => false

theorem known_state_true_rolled_back : ∃ w previous error w',
    Run (step hysteria2) (initial Hysteria2 8) [.apply oneServer (List.replicate 32 0) false []] w ∧
    w.state.current = some previous ∧ engineTable w.engine = tableOf previous ∧
    applyTransactionLocked hysteria2 conflicting (List.replicate 32 0) false { w with script := [] } = (.error (.failed error),w') ∧
    error.rolledBack = true ∧ engineTable w'.engine = tableOf previous := by
  have followed : ((follow (step hysteria2) (initial Hysteria2 8) [.apply oneServer (List.replicate 32 0) false []]).map
      (fun w => (w.state.current.isSome,w.state.closed,
        saysRolledBack (applyTransactionLocked hysteria2 conflicting (List.replicate 32 0) false { w with script := [] }).1))) =
      some (true,false,true) := by decide
  obtain ⟨w,reached,facts⟩ := Option.map_eq_some_iff.mp followed
  simp only [Prod.mk.injEq] at facts
  obtain ⟨known,opened,undone⟩ := facts
  obtain ⟨previous,published⟩ := Option.isSome_iff_exists.mp known
  have run := Run.of_follow reached
  obtain ⟨shows,truth⟩ := known_state_true hysteria2 8 run
  cases result : applyTransactionLocked hysteria2 conflicting (List.replicate 32 0) false { w with script := [] } with
  | mk outcome w' =>
    rw [result] at undone
    unfold saysRolledBack at undone
    split at undone
    · next error failed =>
      change outcome = .error (.failed error) at failed
      subst failed
      obtain ⟨before,same,restored⟩ := truth conflicting (List.replicate 32 0) false [] error w' result (.inl undone)
      unfold publishedBefore at same
      rw [published] at same
      cases same
      exact ⟨w,previous,error,w',run,published,shows previous published opened,result,undone,restored⟩
    · cases undone

end NodeAgent.Consistency
