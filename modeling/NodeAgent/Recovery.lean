import NodeAgent.Commit

/-!
After a failure. A rollback that takes everything back publishes the config before again;
any other one leaves the runtime indeterminate, with an owner for every user that is still
live (`Cover`). A recovery stops whatever lives and starts the retained config.
-/
namespace NodeAgent.Recovery
open NodeAgent.Api NodeAgent.Apply NodeAgent.Commit NodeAgent.Differences NodeAgent.EngineSound NodeAgent.EngineTable NodeAgent.Fallible
  NodeAgent.FiniteMap NodeAgent.Rollback NodeAgent.Runtime NodeAgent.RuntimeCalls NodeAgent.Shapes NodeAgent.Transaction
open NodeAgent.Listeners (ReplaceFailed Shrunk ensures_callAddInboundWithReplay ensures_callRemoveInboundHard ensures_callUpdateInbound
  ensures_replace)
variable {V : Type} {shoes : Shoes V} {old new config : NormalizedConfig V} {authority : String → Option Nat} {w w' : World V}
  {S S' : String → Option (Shape V)} {live live' : Map String (RetiringInbound V)} {tag : String}

/-! ### Owners -/

/-- The entry owns everybody on the inbound, under the inbound's tag. -/
structure Tracks (retiring : RetiringInbound V) (tag : String) (shape : Shape V) : Prop where
  covers : CoversRetiring retiring shape
  own : retiring.accounting.compiled.spec.tag = tag

/-- Everybody who is live is owned by a surviving generation or, where none is known, by
    the retained config. -/
def Cover (known : NormalizedConfig V) (live : Map String (RetiringInbound V)) (S : String → Option (Shape V)) : Prop :=
  ∀ tag shape, S tag = some shape → (∃ retiring, live[tag]? = some retiring ∧ Tracks retiring tag shape) ∨
    (live[tag]? = none ∧ ∃ inbound, known.inbounds[tag]? = some inbound ∧ Covers inbound shape)

/-- No inbound has more users than before. -/
def Shrinks (S S' : String → Option (Shape V)) : Prop :=
  ∀ tag shape', S' tag = some shape' → ∃ shape, S tag = some shape ∧ Fewer shape shape'

theorem Shrinks.refl (S : String → Option (Shape V)) : Shrinks S S := fun _ shape there => ⟨shape,there,Fewer.refl shape⟩

theorem Shrinks.trans {S'' : String → Option (Shape V)} (first : Shrinks S S') (second : Shrinks S' S'') : Shrinks S S'' := by
  intro tag shape'' there
  obtain ⟨shape',there',fewer'⟩ := second tag shape'' there
  obtain ⟨shape,there₀,fewer⟩ := first tag shape' there'
  exact ⟨shape,there₀,fewer.trans fewer'⟩

/-- Only one tag changes, and it does not get more users. -/
theorem shrinks_at (elsewhere : ∀ other, other ≠ tag → S' other = S other)
    (fewer : ∀ shape', S' tag = some shape' → ∃ shape, S tag = some shape ∧ Fewer shape shape') : Shrinks S S' := by
  intro other shape' there
  by_cases same : other = tag
  · subst same
    exact fewer shape' there
  · rw [elsewhere other same] at there
    exact ⟨shape',there,Fewer.refl shape'⟩

theorem shrinks_removed : Shrinks S (Function.update S tag none) := by
  refine shrinks_at (fun other different => Function.update_of_ne different _ _) ?_
  intro shape' there
  rw [Function.update_self] at there
  cases there

theorem shrinks_config {shape : Shape V} {config : V} (there : S tag = some shape) :
    Shrinks S (Function.update S tag (some { shape with config := config })) := by
  refine shrinks_at (fun other different => Function.update_of_ne different _ _) ?_
  intro shape' found
  rw [Function.update_self,Option.some.injEq] at found
  subst found
  exact ⟨shape,there,rfl,fun users _ registry present => ⟨users,registry,present⟩⟩

theorem shrinks_shrunk {registry : NormalizedInbound V} (shrunk : Shrunk registry tag S S') : Shrinks S S' :=
  shrinks_at (fun _ different => elsewhere_shrunk different shrunk) (fun _ there => fewer_shrunk shrunk there)

theorem shrinks_dropped {id : String} (dropped : Dropped tag id S S') : Shrinks S S' := by
  refine shrinks_at (fun _ different => elsewhere_dropped dropped different) ?_
  intro shape' there
  obtain ⟨shape,was,fewer,_⟩ := fewer_dropped dropped there
  exact ⟨shape,was,fewer⟩

theorem shrinks_stranded {id : String} (stranded : Stranded tag id S S') : Shrinks S S' := by
  refine shrinks_at ?_ (fun _ there => fewer_stranded stranded there)
  intro other different
  obtain ⟨shape,users,counters,_,_,rfl⟩ := stranded
  exact elsewhere_withUsers different

theorem Cover.shrinks {known : NormalizedConfig V} (cover : Cover known live S) (shrinks : Shrinks S S') : Cover known live S' := by
  intro tag shape' there
  obtain ⟨shape,was,fewer⟩ := shrinks tag shape' there
  rcases cover tag shape was with ⟨retiring,entry,tracks⟩ | ⟨unknown,inbound,found,covers⟩
  · exact .inl ⟨retiring,entry,tracks.covers.fewer fewer,tracks.own⟩
  · exact .inr ⟨unknown,inbound,found,covers.fewer fewer⟩

/-- A table that shows a config is owned by it. -/
theorem covers_of_view {shape : Shape V} {inbound : NormalizedInbound V} (view : viewOf shape = inboundView inbound)
    (collected : ∀ users id, shape.users = some users → users.tombstones id = none) : Covers inbound shape := by
  have both := congrArg View.users view
  unfold viewOf inboundView at both
  dsimp only at both
  cases registry : shape.users with
  | none =>
    rw [registry] at both
    refine ⟨?_,fun users id found => by rw [registry] at found; cases found⟩
    rw [registry]
    cases dynamic : inbound.dynamicUsers with
    | false => rfl
    | true => rw [dynamic] at both; simp at both
  | some users =>
    rw [registry] at both
    cases dynamic : inbound.dynamicUsers with
    | false => rw [dynamic] at both; simp at both
    | true =>
      rw [dynamic,if_pos rfl,Option.map_some,Option.some.injEq] at both
      refine ⟨by rw [registry,dynamic]; rfl,?_⟩
      intro users' id found present
      rw [registry,Option.some.injEq] at found
      subst found
      rcases present with registered | waiting
      · rw [← congrFun both id]
        exact registered
      · rw [collected users id registry] at waiting
        cases waiting

theorem cover_of_table (shows : table S = tableOf config) (collected : NoTombstones S) : Cover config ∅ S := by
  intro tag shape there
  have here := congrFun shows tag
  unfold table tableOf at here
  rw [there,Option.map_some] at here
  obtain ⟨inbound,found,view⟩ := Option.map_eq_some_iff.mp here.symm
  exact .inr ⟨by simp,inbound,found,covers_of_view view.symm (fun users id registry => collected tag shape users id ⟨there,registry⟩)⟩

/-- After a rollback everything that is live is owned by what survived or by the config
    before. -/
theorem cover_of_rolling {restored : Bool} {errors : List String} {e : Engine V} (wellFormed : WellFormed old)
    (rolling : Rolling old new authority restored [] errors live e) : Cover old (if errors.isEmpty then ∅ else live) (shapes e) := by
  have known (tag : String) (shape : Shape V) (there : shapes e tag = some shape) :
      (∃ retiring, live[tag]? = some retiring ∧ Tracks retiring tag shape) ∨
        (live[tag]? = none ∧ ∃ inbound, old.inbounds[tag]? = some inbound ∧ Covers inbound shape) := by
    rcases rolling.known tag shape there with ⟨_,retiring,entry,candidate,covers⟩ | ⟨published,owned⟩
    · exact .inl ⟨retiring,entry,covers,candidate.own⟩
    rcases owned with ⟨_,_,member,_⟩ | ⟨_,inbound,scheduled⟩
    · cases member
    have covers : Covers inbound shape := by
      refine ⟨scheduled.mode,?_⟩
      intro users id registry present
      rcases scheduled.ids users id registry present with known | ⟨_,_,member,_⟩
      · exact known
      · cases member
    cases entry : live[tag]? with
    | none => exact .inr ⟨rfl,inbound,scheduled.published,covers⟩
    | some retiring =>
      obtain ⟨generation,accounting⟩ := retiring
      obtain ⟨same,mine⟩ := published _ entry
      rw [scheduled.published,Option.some.injEq] at same
      cases same
      cases mine
      exact .inl ⟨_,rfl,covers.retiring,(wellFormed tag _ scheduled.published).tag⟩
  by_cases clean : errors = []
  · rw [if_pos (by simpa using clean)]
    intro tag shape there
    rcases known tag shape there with ⟨retiring,entry,tracks⟩ | ⟨_,owner⟩
    · obtain ⟨generation,accounting⟩ := retiring
      obtain ⟨published,mine⟩ := rolling.clean clean tag _ entry
      cases mine
      refine .inr ⟨by simp,generation,published,tracks.covers.mode,?_⟩
      intro users id registry present
      rcases tracks.covers.ids users id registry present with known | known
      · exact known
      · exact known
    · exact .inr ⟨by simp,owner⟩
  · rw [if_neg (by simpa using clean)]
    exact known

/-! ### The end of a failed transaction -/

/-- The config before is in place as far as the errors tell. -/
structure Refreshed (shoes : Shoes V) (old : NormalizedConfig V) (w : World V) (rollback : List String) (w' : World V) : Prop where
  quiet : Quiet w w'
  lineage : lineages w'.engine = lineages w.engine
  sound : SoundEngine shoes w'.engine
  apart : Apart (shapes w'.engine)
  cover : Cover old ∅ (shapes w'.engine)
  exact : rollback = [] → table (shapes w'.engine) = tableOf old ∧ NoTombstones (shapes w'.engine)

/-- A step of the refresh that failed. -/
theorem Refreshed.failed {rollback : List String} {error : String} (refreshed : Refreshed shoes old w rollback w') {w'' : World V}
    (quiet : Quiet w' w'') (lineage : lineages w''.engine = lineages w'.engine) (sound : SoundEngine shoes w''.engine)
    (apart : Apart (shapes w''.engine)) (cover : Cover old ∅ (shapes w''.engine)) : Refreshed shoes old w (rollback ++ [error]) w'' :=
  ⟨refreshed.quiet.trans quiet,lineage.trans refreshed.lineage,sound,apart,cover,fun none_failed => by simp at none_failed⟩

theorem Refreshed.same {rollback : List String} (refreshed : Refreshed shoes old w rollback w') {w'' : World V} (same : Same w' w'') :
    Refreshed shoes old w rollback w'' := by
  refine ⟨refreshed.quiet.trans same.toQuiet,same.lineages.trans refreshed.lineage,sound_of_same refreshed.sound same,?_,?_,?_⟩
  · rw [same.shapes]; exact refreshed.apart
  · rw [same.shapes]; exact refreshed.cover
  · rw [same.shapes]; exact refreshed.exact

theorem cover_started {inbound : NormalizedInbound V} {lineage : Nat} {kinds : Credential.CredentialKinds} (wellFormed : WellFormed old)
    (found : old.inbounds[tag]? = some inbound) (cover : Cover old ∅ S) :
    Cover old ∅ (Function.update S tag (some (addedShape inbound.compiled.spec lineage kinds))) := by
  intro other shape there
  rw [Function.update_apply] at there
  split at there
  · next same =>
    cases there
    rw [same]
    exact .inr ⟨by simp,inbound,found,(wellFormed tag inbound found).covers lineage kinds⟩
  · exact cover other shape there

theorem ensures_refreshRestored {ε : Type} {rollback : List String} {inbound : NormalizedInbound V} (wellFormed : WellFormed old)
    (found : old.inbounds[tag]? = some inbound) (refreshed : Refreshed shoes old w rollback w') :
    Ensures (@refreshRestored V shoes ε rollback (tag,inbound)) w' (Outcome (Refreshed shoes old w) (fun _ _ => False)) := by
  have normal := wellFormed tag inbound found
  obtain rfl := normal.tag
  have shows (none_failed : rollback = []) : table (shapes w'.engine) inbound.compiled.spec.tag = some (inboundView inbound) := by
    rw [(refreshed.exact none_failed).1,tableOf,found]
    rfl
  refine Ensures.attempt_bind (Ensures.and (ensures_callUpdateInbound w' inbound)
    (keeps_updateInbound inbound w' ⟨refreshed.sound,rfl⟩)) ?_
  rintro (error | value) w₁ ⟨held,sound,_⟩
  · have refreshed₁ := refreshed.same held.1
    have plain (message : String) : Refreshed shoes old w (rollback ++ [message]) w₁ :=
      refreshed₁.failed (Quiet.refl w₁) rfl refreshed₁.sound refreshed₁.apart refreshed₁.cover
    cases error with
    | reloadRequired reason =>
      refine Ensures.attempt_bind (Q := Outcome (fun _ w₂ => Refreshed shoes old w rollback w₂)
        (fun failure w₂ => ∀ message, Refreshed shoes old w (rollback ++ [message]) w₂)) ?_ ?_
      · refine Ensures.attempt_bind (ensures_ask w₁) ?_
        rintro (error | lease) w₂ ⟨same,_⟩
        · have refreshed₂ := refreshed₁.same same
          exact Ensures.fail (fun message => refreshed₂.failed (Quiet.refl w₂) rfl refreshed₂.sound refreshed₂.apart refreshed₂.cover)
        have refreshed₂ := refreshed₁.same same
        refine Ensures.mono (Ensures.and (ensures_replace w₂ refreshed₂.apart inbound inbound inbound inbound lease normal.keyed rfl)
          (keeps_replaceInbound inbound inbound inbound inbound lease w₂ ⟨refreshed₂.sound,rfl⟩)) ?_
        rintro (failure | value) w₃ ⟨held,sound₃,_⟩
        · obtain ⟨quiet,lineage,failed⟩ := held
          intro message
          rcases failed with shrunk | ⟨_,down⟩ | ⟨_,kinds,again⟩
          · exact refreshed₂.failed quiet lineage sound₃ (apart_shrunk refreshed₂.apart shrunk)
              (refreshed₂.cover.shrinks (shrinks_shrunk shrunk))
          · refine refreshed₂.failed quiet lineage sound₃ ?_ ?_
            · rw [down]; exact apart_removed refreshed₂.apart
            · rw [down]; exact refreshed₂.cover.shrinks shrinks_removed
          · refine refreshed₂.failed quiet lineage sound₃ ?_ ?_
            · rw [again]; exact apart_started refreshed₂.apart
            · rw [again]; exact cover_started wellFormed found refreshed₂.cover
        · obtain ⟨quiet,lineage,_,kinds,after⟩ := held
          refine ⟨refreshed₂.quiet.trans quiet,lineage.trans refreshed₂.lineage,sound₃,?_,?_,?_⟩
          · rw [after]; exact apart_started refreshed₂.apart
          · rw [after]; exact cover_started wellFormed found refreshed₂.cover
          · intro none_failed
            obtain ⟨shown,collected⟩ := refreshed₂.exact none_failed
            have here : table (shapes w₂.engine) inbound.compiled.spec.tag = some (inboundView inbound) := by
              rw [shown,tableOf,found]
              rfl
            rw [after,table_update,Option.map_some,normal.view,← here,Function.update_eq_self]
            exact ⟨shown,noTombstones_started collected⟩
      · rintro (failure | value) w₂ held
        · exact Ensures.pure (held _)
        · exact Ensures.pure held
    | _ => exact Ensures.pure (plain _)
  · obtain ⟨quiet,lineage,shape,there,after⟩ := held
    refine Ensures.pure ⟨refreshed.quiet.trans quiet,lineage.trans refreshed.lineage,sound,?_,?_,?_⟩
    · rw [after]; exact apart_config refreshed.apart there
    · rw [after]; exact refreshed.cover.shrinks (shrinks_config there)
    · intro none_failed
      obtain ⟨shown,collected⟩ := refreshed.exact none_failed
      have here := shows none_failed
      have view : viewOf { shape with config := inbound.compiled.spec.config } = inboundView inbound := by
        unfold table at here
        rw [there,Option.map_some,Option.some.injEq] at here
        rw [← here]
        exact congrArg (fun config : V => (⟨config,shape.users.map UsersShape.specs⟩ : View V)) (congrArg View.config here).symm
      rw [after,table_update,Option.map_some,view,← here,Function.update_eq_self]
      exact ⟨shown,noTombstones_config collected there⟩

/-! ### Between transactions -/

/-- The engine takes the config as a whole. -/
structure Installable (shoes : Shoes V) (config : NormalizedConfig V) : Prop where
  valid : ∀ (tag : String) (inbound : NormalizedInbound V), config.inbounds[tag]? = some inbound →
    validateInbound shoes inbound.compiled.spec = .ok ()
  disjoint : ∀ (tag tag' : String) (inbound inbound' : NormalizedInbound V), config.inbounds[tag]? = some inbound →
    config.inbounds[tag']? = some inbound' → tag ≠ tag' →
    ∀ key ∈ shoes.bindKeys inbound.compiled.spec.config, key ∉ shoes.bindKeys inbound'.compiled.spec.config

/-- Every lease is on the namespace last published for its tag. -/
def Admits (replay : Map String InboundReplayLease) (L : String → Option Nat) : Prop :=
  ∀ (tag : String) (lease : InboundReplayLease), replay[tag]? = some lease → lease.tag = tag ∧ L tag = some lease.lineage

/-- There is a lease for every inbound of the config. -/
def Retains (replay : Map String InboundReplayLease) (config : NormalizedConfig V) : Prop :=
  ∀ tag : String, (config.inbounds[tag]?).isSome → (replay[tag]?).isSome

/-- The runtime knows what runs. -/
structure Determined (shoes : Shoes V) (config : NormalizedConfig V) (w : World V) : Prop where
  wellFormed : WellFormed config
  installable : Installable shoes config
  shows : table (shapes w.engine) = tableOf config
  collected : NoTombstones (shapes w.engine)
  survivors : w.state.recoveryLive = ∅
  unleased : w.recoveryReplay = ∅

/-- The runtime has to rebuild the retained config. -/
structure Indeterminate (shoes : Shoes V) (recovery : NormalizedConfig V) (w : World V) : Prop where
  wellFormed : WellFormed recovery
  installable : Installable shoes recovery
  cover : Cover recovery w.state.recoveryLive (shapes w.engine)
  admits : Admits w.recoveryReplay (lineages w.engine)
  retained : w.state.closed = false → Retains w.recoveryReplay recovery

/-- What holds whenever no transaction is running. -/
structure Steady (shoes : Shoes V) (w : World V) : Prop where
  sound : SoundEngine shoes w.engine
  apart : Apart (shapes w.engine)
  journal : w.journal = []
  known : ∀ config, w.state.current = some config → Determined shoes config w
  lost : w.state.current = none → ∃ recovery, w.state.recovery = some recovery ∧ Indeterminate shoes recovery w

/-- A transaction leaves the flags of a close alone. -/
structure Open (w w' : World V) : Prop where
  closing : w'.closing = w.closing
  closed : w'.state.closed = w.state.closed

theorem Steady.same (steady : Steady shoes w) (same : Same w w') : Steady shoes w' := by
  refine ⟨sound_of_same steady.sound same,?_,same.journal.trans steady.journal,?_,?_⟩
  · rw [same.shapes]; exact steady.apart
  · intro config published
    rw [same.state] at published
    obtain ⟨wellFormed,installable,shows,collected,survivors,unleased⟩ := steady.known config published
    refine ⟨wellFormed,installable,?_,?_,?_,?_⟩
    · rw [same.shapes]; exact shows
    · rw [same.shapes]; exact collected
    · rw [same.state]; exact survivors
    · rw [same.recoveryReplay]; exact unleased
  · intro lost
    rw [same.state] at lost
    obtain ⟨recovery,retained,wellFormed,installable,cover,admits,leased⟩ := steady.lost lost
    refine ⟨recovery,by rw [same.state]; exact retained,wellFormed,installable,?_,?_,?_⟩
    · rw [same.state,same.shapes]; exact cover
    · rw [same.recoveryReplay,same.lineages]; exact admits
    · rw [same.state,same.recoveryReplay]; exact leased

theorem Open.same {w'' : World V} (opened : Open w w') (same : Same w' w'') : Open w w'' :=
  ⟨same.closing.trans opened.closing,by rw [same.state]; exact opened.closed⟩

/-- The leases that a transaction takes before its first change. -/
structure Captured (old : NormalizedConfig V) (authority : String → Option Nat) (replay : Map String InboundReplayLease) : Prop where
  admits : Admits replay authority
  retains : Retains replay old
  listed : ∀ tag : String, (replay[tag]?).isSome → (old.inbounds[tag]?).isSome

theorem tagged_of_consistent {undo : Undo V} (wellFormed : WellFormed old) (consistent : Consistent old new authority undo) : Upkeep.Tagged undo := by
  cases undo with
  | addInbound inbound replay => trivial
  | removeInbound live accounting => exact consistent.2.1
  | restoreHotConfig current previous replay => exact (wellFormed _ _ consistent.2.1).tag
  | addUser inbound user => trivial
  | removeUser live accounting userId => exact (wellFormed _ _ consistent.2.1).tag
  | restoreUser inbound user kick => trivial

theorem ensures_configureDns {ε : Type} (w : World V) (needed : Bool) :
    Ensures (@configureDns V ε needed) w (Outcome (fun _ w' => Same w w') (fun _ _ => False)) := by
  unfold configureDns
  split
  · have asked : Ensures (@callDns V) w (fun _ w' => Same w w') := by
      refine Ensures.mono (ensures_ask w) ?_
      rintro (error | value) w' held
      · exact held.1
      · exact held.1
    exact asked
  · exact Same.refl w

/-- How a rollback has left the engine: owned, and back at the config before when it says
    so. -/
structure Undid (shoes : Shoes V) (old : NormalizedConfig V) (live : Map String (RetiringInbound V)) (restored : Bool) (w : World V)
    (rollback : List String) (w' : World V) : Prop where
  quiet : Quiet w w'
  lineage : lineages w'.engine = lineages w.engine
  sound : SoundEngine shoes w'.engine
  apart : Apart (shapes w'.engine)
  cover : Cover old live (shapes w'.engine)
  exact : restored = true → rollback = [] → table (shapes w'.engine) = tableOf old ∧ NoTombstones (shapes w'.engine)

theorem ensures_refreshAll {ε : Type} {restored rotated : Bool} {errors undoErrors : List String} (wellFormed : WellFormed old)
    (sub : undoErrors = [] → errors = []) (sound : SoundEngine shoes w.engine)
    (rolling : Rolling old new authority restored [] errors live w.engine) :
    Ensures (@refreshAll V shoes ε old (rotated && restored) undoErrors) w (Outcome
      (Undid shoes old (if errors.isEmpty then ∅ else live) restored w) (fun _ _ => False)) := by
  have cover := cover_of_rolling wellFormed rolling
  unfold refreshAll
  split
  · next all =>
    simp only [Bool.and_eq_true,List.isEmpty_iff] at all
    obtain ⟨⟨_,restored⟩,none_failed⟩ := all
    rw [if_pos (by simpa using sub none_failed)] at cover ⊢
    have start : Refreshed shoes old w undoErrors w := by
      refine ⟨Quiet.refl w,rfl,sound,rolling.apart,cover,fun _ => ?_⟩
      exact rolling.exact restored (sub none_failed)
    refine Ensures.mono (Q := Outcome (Refreshed shoes old w) (fun _ _ => False)) ?_ ?_
    · refine Ensures.foldEach (fun _ rollback w' => Refreshed shoes old w rollback w') start ?_ (fun _ _ done => done)
      rintro done ⟨tag,inbound⟩ rest rollback w' split refreshed
      exact ensures_refreshRestored wellFormed ((mem_toList old.inbounds).mp (by rw [split]; simp)) refreshed
    · rintro (no | rollback) w' held
      · exact held.elim
      · exact ⟨held.quiet,held.lineage,held.sound,held.apart,held.cover,fun _ => held.exact⟩
  · refine Ensures.pure ⟨Quiet.refl w,rfl,sound,rolling.apart,cover,?_⟩
    intro restored none_failed
    exact rolling.exact restored (sub none_failed)

/-- A failed transaction ends in a state that can go on, and its flags are true. -/
theorem ensures_finishFailed {ε : Type} {w₀ : World V} {failure : StepFailure} {previousReplay : Map String InboundReplayLease}
    (dns : DnsReloadContext) (wellFormedOld : WellFormed old) (wellFormedNew : WellFormed new) (installable : Installable shoes old)
    (captured : Captured old authority previousReplay) (going : Going shoes old new authority failure.restored w₀ w) :
    Ensures (@finishFailedTransaction V shoes ε old previousReplay failure dns) w (Outcome
      (fun error w' => Steady shoes w' ∧ Open w₀ w' ∧ ((error.rolledBack = true ∨ error.stateUnchanged = true) → w'.state.current = some old))
      (fun _ _ => False)) := by
  refine Ensures.look_bind ?_
  refine Ensures.bind (ensures_configureDns w dns.fullReload) ?_ (fun _ _ no => no.elim)
  intro configured w₁ same
  have going₁ := going.same same
  have tagged : ∀ undo ∈ w₁.journal, Upkeep.Tagged undo := fun undo member =>
    tagged_of_consistent wellFormedOld (going₁.rolling.consistent undo member)
  refine Ensures.bind (Ensures.and (ensures_rollback wellFormedOld wellFormedNew going₁.rolling)
    (Upkeep.keeps_rollbackJournal (sound_lasting shoes) w₁ ⟨going₁.sound,tagged⟩)) ?_ (fun _ _ no => no.1.elim)
  rintro ⟨journalErrors,recoveryLive⟩ w₂ ⟨⟨live,quiet,rolling,survivors⟩,sound,_⟩
  change Rolling old new authority failure.restored [] journalErrors live w₂.engine at rolling
  change recoveryLive = if journalErrors.isEmpty then ∅ else live at survivors
  refine Ensures.bind (ensures_refreshAll wellFormedOld (fun none_failed => (List.append_eq_nil_iff.mp none_failed).2) sound rolling) ?_
    (fun _ _ no => no.elim)
  rw [← survivors]
  intro rollback w₃ undid
  change Undid shoes old recoveryLive failure.restored w₂ rollback w₃ at undid
  have all := quiet.trans undid.quiet
  have state : w₃.state = w₀.state := all.state.trans going₁.state
  refine Ensures.bind (Q := Outcome (fun _ w' => Steady shoes w' ∧ Open w₀ w' ∧
    ((failure.restored && rollback.isEmpty) = true → w'.state.current = some old)) (fun _ _ => False)) ?_ ?_ (fun _ _ no => no.elim)
  · unfold publishFailed
    split
    · next restored =>
      simp only [Bool.and_eq_true,List.isEmpty_iff] at restored
      obtain ⟨shows,collected⟩ := undid.exact restored.1 restored.2
      refine Ensures.change ⟨⟨undid.sound,undid.apart,all.journal,?_,?_⟩,⟨all.closing.trans going₁.closing,?_⟩,fun _ => rfl⟩
      · rintro config published
        cases published
        exact ⟨wellFormedOld,installable,shows,collected,rfl,rfl⟩
      · intro no
        cases no
      · show w₃.state.closed = w₀.state.closed
        rw [state]
    · next broken =>
      refine Ensures.change ⟨⟨undid.sound,undid.apart,all.journal,?_,?_⟩,⟨all.closing.trans going₁.closing,?_⟩,?_⟩
      · intro config no
        cases no
      · intro _
        refine ⟨old,rfl,wellFormedOld,installable,undid.cover,?_,fun _ => captured.retains⟩
        intro tag lease held
        obtain ⟨own,admitted⟩ := captured.admits tag lease held
        refine ⟨own,?_⟩
        show lineages w₃.engine tag = some lease.lineage
        rw [undid.lineage,rolling.authorities tag (captured.listed tag (by rw [held]; rfl))]
        exact admitted
      · show w₃.state.closed = w₀.state.closed
        rw [state]
      · intro restored
        exact absurd restored broken
  · rintro _ w₄ ⟨steady,opened,published⟩
    refine Ensures.pure ⟨steady,opened,?_⟩
    intro flags
    apply published
    rcases flags with rolledBack | unchanged
    · simp only [RuntimeError.failed,Bool.and_eq_true] at rolledBack
      simpa using rolledBack.1.1
    · simp only [RuntimeError.failed,Bool.and_eq_true] at unchanged
      simpa using unchanged.1

/-! ### Forced stops -/

/-- Nothing happened but on one tag, and there nobody came. -/
structure Narrowed (tag : String) (w w' : World V) : Prop where
  quiet : Quiet w w'
  lineage : lineages w'.engine = lineages w.engine
  apart : Apart (shapes w'.engine)
  elsewhere : ∀ other, other ≠ tag → shapes w'.engine other = shapes w.engine other
  shrinks : Shrinks (shapes w.engine) (shapes w'.engine)

theorem Narrowed.same (apart : Apart (shapes w.engine)) (same : Same w w') : Narrowed tag w w' := by
  refine ⟨same.toQuiet,same.lineages,?_,fun _ _ => by rw [same.shapes],?_⟩
  · rw [same.shapes]; exact apart
  · rw [same.shapes]; exact Shrinks.refl _

theorem Narrowed.trans {w'' : World V} (first : Narrowed tag w w') (second : Narrowed tag w' w'') : Narrowed tag w w'' :=
  ⟨first.quiet.trans second.quiet,second.lineage.trans first.lineage,second.apart,
    fun other different => (second.elsewhere other different).trans (first.elsewhere other different),first.shrinks.trans second.shrinks⟩

theorem narrowed_collect (w : World V) (apart : Apart (shapes w.engine)) (tag : String) (accounting : NormalizedInbound V) (id : String) :
    Ensures (collectUser tag accounting id) w (fun _ w' => Narrowed tag w w') := by
  refine Ensures.mono (ensures_collectUser w apart tag accounting id) ?_
  rintro (failure | value) w' ⟨quiet,lineage,held⟩
  · have unchanged (same : shapes w'.engine = shapes w.engine) : Narrowed tag w w' := Narrowed.same apart ⟨quiet,same,lineage⟩
    cases failure with
    | reserve error => exact unchanged held
    | remove failure =>
      rcases held with ⟨_,_,_,stranded⟩ | ⟨_,same,_⟩
      · refine ⟨quiet,lineage,apart_stranded apart stranded,?_,shrinks_stranded stranded⟩
        intro other different
        obtain ⟨shape,users,counters,_,_,after⟩ := stranded
        rw [after]
        exact elsewhere_withUsers different
      · exact unchanged same
  · exact ⟨quiet,lineage,apart_dropped apart held,fun other different => elsewhere_dropped held different,shrinks_dropped held⟩

theorem narrowed_forceCollect (w : World V) (apart : Apart (shapes w.engine)) (tag : String) (inbound : RetiringInbound V) (id : String) :
    Ensures (forceCollect tag inbound id) w (fun _ w' => Narrowed tag w w') := by
  refine Ensures.attempt_bind (narrowed_collect w apart tag inbound.accounting id) ?_
  rintro (failure | value) w' narrowed
  · cases failure with
    | reserve error => exact Ensures.fail narrowed
    | remove failure =>
      dsimp only
      split
      · exact Ensures.pure narrowed
      · exact Ensures.fail narrowed
  · exact Ensures.pure narrowed

theorem narrowed_forceCollectAll (w : World V) (apart : Apart (shapes w.engine)) (tag : String) (known : Option (RetiringInbound V)) :
    Ensures (forceCollectAll tag known) w (fun _ w' => Narrowed tag w w') := by
  refine Ensures.attempt_bind (ensures_ask w) ?_
  rintro (error | users) w₁ ⟨same,_⟩
  · have narrowed : Narrowed tag w w₁ := Narrowed.same apart same
    cases error with
    | unsupported msg => exact Ensures.pure narrowed
    | _ => exact Ensures.fail narrowed
  have narrowed : Narrowed tag w w₁ := Narrowed.same apart same
  cases known with
  | none =>
    dsimp only
    split
    · exact Ensures.fail narrowed
    · exact Ensures.pure narrowed
  | some inbound =>
    refine Ensures.forEach (fun _ w' => Narrowed tag w w') narrowed ?_ (fun _ done => done)
    intro done id rest w₂ _ narrowed₂
    refine Ensures.mono (narrowed_forceCollect w₂ narrowed₂.apart tag inbound id) ?_
    rintro (error | value) w₃ narrowed₃
    · exact narrowed₂.trans narrowed₃
    · exact narrowed₂.trans narrowed₃

/-- A forced stop takes the listener down or leaves it with no more users. -/
theorem ensures_forceStop (w : World V) (apart : Apart (shapes w.engine)) (tag : String) (known : Option (RetiringInbound V)) :
    Ensures (forceStopTag tag known) w (Outcome
      (fun _ w' => Narrowed tag w w' ∧ shapes w'.engine = Function.update (shapes w.engine) tag none)
      (fun _ w' => Narrowed tag w w')) := by
  refine Ensures.bind (narrowed_forceCollectAll w apart tag known) ?_ (fun _ _ narrowed => narrowed)
  intro _ w₁ narrowed
  refine Ensures.orFail (ensures_callRemoveInboundHard w₁ tag) ?_ ?_
  · rintro _ w₂ ⟨quiet,lineage,_,down⟩
    have gone : shapes w₂.engine = Function.update (shapes w.engine) tag none := by
      rw [down]
      funext other
      by_cases same : other = tag
      · subst same; simp
      · rw [Function.update_of_ne same,Function.update_of_ne same,narrowed.elsewhere other same]
    refine ⟨⟨narrowed.quiet.trans quiet,lineage.trans narrowed.lineage,?_,?_,?_⟩,gone⟩
    · rw [down]; exact apart_removed narrowed.apart
    · intro other different
      rw [gone]
      exact Function.update_of_ne different _ _
    · rw [gone]; exact shrinks_removed
  · rintro error w₂ ⟨same,_⟩
    exact narrowed.trans (Narrowed.same narrowed.apart same)

/-! ### Recovery -/

/-- Every live listener has an entry of its own. -/
def AllKnown (live : Map String (RetiringInbound V)) (S : String → Option (Shape V)) : Prop :=
  ∀ tag shape, S tag = some shape → ∃ retiring, live[tag]? = some retiring ∧ Tracks retiring tag shape

theorem AllKnown.cover {known : NormalizedConfig V} (all : AllKnown live S) : Cover known live S :=
  fun tag shape there => .inl (all tag shape there)

theorem AllKnown.shrinks (all : AllKnown live S) (shrinks : Shrinks S S') : AllKnown live S' := by
  intro tag shape' there
  obtain ⟨shape,was,fewer⟩ := shrinks tag shape' there
  obtain ⟨retiring,entry,tracks⟩ := all tag shape was
  exact ⟨retiring,entry,tracks.covers.fewer fewer,tracks.own⟩

theorem learn_lookup {recovery : NormalizedConfig V} (known : Map String (RetiringInbound V)) (tag k : String) :
    (learn recovery known tag)[k]? =
      if k = tag then (known[k]?).or ((recovery.inbounds[k]?).map (fun inbound => ⟨inbound,inbound⟩)) else known[k]? := by
  unfold learn
  by_cases same : k = tag
  · subst same
    rw [if_pos rfl]
    cases held : known[k]? with
    | some retiring => simp [held]
    | none =>
      cases found : recovery.inbounds[k]? with
      | none => simp [held]
      | some inbound => simp
  · rw [if_neg same]
    split
    · rw [lookup_insert,if_neg (Ne.symm same)]
    · rfl

/-- Looking the live listeners up adds the retained config's own where nothing else is
    known. -/
theorem learnAll_lookup {recovery : NormalizedConfig V} (tags : List String) (start : Map String (RetiringInbound V)) (k : String) :
    (tags.foldl (learn recovery) start)[k]? =
      if k ∈ tags then (start[k]?).or ((recovery.inbounds[k]?).map (fun inbound => ⟨inbound,inbound⟩)) else start[k]? := by
  induction tags generalizing start with
  | nil => simp
  | cons tag rest ih =>
    rw [List.foldl_cons,ih,learn_lookup]
    by_cases same : k = tag
    · subst same
      cases start[k]? <;> cases recovery.inbounds[k]? <;> simp
    · simp [same]

theorem allKnown_knownLive {recovery : NormalizedConfig V} {e : Engine V} (wellFormed : WellFormed recovery)
    (cover : Cover recovery live (shapes e)) : AllKnown (knownLive e recovery live) (shapes e) := by
  intro tag shape there
  obtain ⟨slot,held,_⟩ := Option.map_eq_some_iff.mp there
  have member : tag ∈ e.inbounds.keys := by
    rw [Std.ExtTreeMap.mem_keys,Std.ExtTreeMap.mem_iff_isSome_getElem?,held]
    rfl
  have entry : (live.filter (fun tag _ => (e.inbounds[tag]?).isSome))[tag]? = live[tag]? := by
    rw [Std.ExtTreeMap.getElem?_filter']
    cases live[tag]? with
    | none => rfl
    | some retiring => simp [held]
  unfold knownLive
  rw [learnAll_lookup,if_pos member,entry]
  rcases cover tag shape there with ⟨retiring,found,tracks⟩ | ⟨unknown,inbound,found,covers⟩
  · rw [found]
    exact ⟨retiring,rfl,tracks⟩
  · rw [unknown,found]
    exact ⟨⟨inbound,inbound⟩,rfl,covers.retiring,(wellFormed tag inbound found).tag⟩

/-- A recovery under way, with what it knows of the listeners that live. -/
structure Recovering (shoes : Shoes V) (w : World V) (live : Map String (RetiringInbound V)) (w' : World V) : Prop where
  state : w'.state = { w.state with recoveryLive := live }
  closing : w'.closing = w.closing
  recoveryReplay : w'.recoveryReplay = w.recoveryReplay
  journal : w'.journal = w.journal
  lineage : lineages w'.engine = lineages w.engine
  sound : SoundEngine shoes w'.engine
  apart : Apart (shapes w'.engine)
  known : AllKnown live (shapes w'.engine)

theorem Recovering.narrowed {w'' : World V} (recovering : Recovering shoes w live w') (narrowed : Narrowed tag w' w'')
    (sound : SoundEngine shoes w''.engine) : Recovering shoes w live w'' :=
  ⟨narrowed.quiet.state.trans recovering.state,narrowed.quiet.closing.trans recovering.closing,
    narrowed.quiet.recoveryReplay.trans recovering.recoveryReplay,narrowed.quiet.journal.trans recovering.journal,
    narrowed.lineage.trans recovering.lineage,sound,narrowed.apart,recovering.known.shrinks narrowed.shrinks⟩

theorem Recovering.same {w'' : World V} (recovering : Recovering shoes w live w') (same : Same w' w'') : Recovering shoes w live w'' :=
  recovering.narrowed (Narrowed.same recovering.apart same : Narrowed "" w' w'') (sound_of_same recovering.sound same)

/-- A recovery that gives up can be taken up again. -/
theorem Recovering.steady {recovery : NormalizedConfig V} (recovering : Recovering shoes w live w') (journal : w.journal = [])
    (lost : w.state.current = none) (retained : w.state.recovery = some recovery) (before : Indeterminate shoes recovery w) :
    Steady shoes w' := by
  refine ⟨recovering.sound,recovering.apart,recovering.journal.trans journal,?_,?_⟩
  · intro config published
    rw [recovering.state] at published
    rw [lost] at published
    cases published
  · intro _
    refine ⟨recovery,by rw [recovering.state]; exact retained,before.wellFormed,before.installable,?_,?_,?_⟩
    · rw [recovering.state]
      exact recovering.known.cover
    · rw [recovering.recoveryReplay,recovering.lineage]
      exact before.admits
    · rw [recovering.state,recovering.recoveryReplay]
      exact before.retained

/-- A recovery begins by looking up whatever lives. -/
theorem recovering_start {recovery : NormalizedConfig V} (steady : Steady shoes w) (before : Indeterminate shoes recovery w) :
    Recovering shoes w (knownLive w.engine recovery w.state.recoveryLive)
      { w with state := { w.state with recoveryLive := knownLive w.engine recovery w.state.recoveryLive } } :=
  ⟨rfl,rfl,rfl,rfl,rfl,steady.sound,steady.apart,allKnown_knownLive before.wellFormed before.cover⟩

/-- What the stops of a recovery have done. -/
structure Stopping (shoes : Shoes V) (w : World V) (done : List String) (progress : List String × Map String (RetiringInbound V))
    (w' : World V) : Prop where
  recovering : Recovering shoes w progress.2 w'
  absent : ∀ tag, shapes w.engine tag = none → shapes w'.engine tag = none
  gone : progress.1 = [] → ∀ tag ∈ done, shapes w'.engine tag = none

/-- Stops that all succeed leave nothing live. -/
theorem Stopping.empty {progress : List String × Map String (RetiringInbound V)}
    (stopping : Stopping shoes w w.engine.inbounds.keys progress w') (none_failed : progress.1 = []) : shapes w'.engine = fun _ => none := by
  funext tag
  by_cases member : tag ∈ w.engine.inbounds.keys
  · exact stopping.gone none_failed tag member
  · refine stopping.absent tag ?_
    rw [Std.ExtTreeMap.mem_keys,Std.ExtTreeMap.mem_iff_isSome_getElem?,Option.not_isSome_iff_eq_none] at member
    unfold shapes
    rw [member]
    rfl

theorem ensures_recoverStop {ε : Type} {done : List String} {progress : List String × Map String (RetiringInbound V)}
    (stopping : Stopping shoes w done progress w') (tag : String) :
    Ensures (@recoverStop V ε progress tag) w' (Outcome (Stopping shoes w (done ++ [tag])) (fun _ _ => False)) := by
  have recovering := stopping.recovering
  refine Ensures.attempt_bind (Ensures.and (ensures_forceStop w' recovering.apart tag progress.2[tag]?)
    (keeps_forceStopTag tag progress.2[tag]? w' ⟨recovering.sound,rfl⟩)) ?_
  rintro (error | value) w₁ ⟨held,sound,_⟩
  · change Narrowed tag w' w₁ at held
    refine Ensures.pure ⟨recovering.narrowed held sound,?_,?_⟩
    · intro other absent
      have before := stopping.absent other absent
      cases there : shapes w₁.engine other with
      | none => rfl
      | some shape =>
        obtain ⟨old,was,_⟩ := held.shrinks other shape there
        rw [before] at was
        cases was
    · intro none_failed
      simp at none_failed
  · obtain ⟨narrowed,down⟩ := held
    have after := recovering.narrowed narrowed sound
    refine Ensures.change_bind (Ensures.pure ⟨⟨?_,after.closing,after.recoveryReplay,after.journal,after.lineage,sound,after.apart,?_⟩,?_,?_⟩)
    · show ({ w₁.state with recoveryLive := progress.2.erase tag } : AppliedState V) = _
      rw [after.state]
    · intro other shape there
      change shapes w₁.engine other = some shape at there
      obtain ⟨retiring,entry,tracks⟩ := after.known other shape there
      refine ⟨retiring,?_,tracks⟩
      rw [lookup_erase,if_neg]
      · exact entry
      · rintro rfl
        rw [down,Function.update_self] at there
        cases there
    · intro other absent
      show shapes w₁.engine other = none
      rw [down,Function.update_apply,stopping.absent other absent]
      simp
    · intro none_failed other member
      show shapes w₁.engine other = none
      rw [down,Function.update_apply]
      split
      · rfl
      · next different =>
        rcases List.mem_append.mp member with earlier | last
        · exact stopping.gone none_failed other earlier
        · exact absurd (List.mem_singleton.mp last) different

/-- What the starts of a recovery have done. -/
structure Restarting (shoes : Shoes V) (w : World V) (recovery : NormalizedConfig V) (done : List (String × NormalizedInbound V))
    (live : Map String (RetiringInbound V)) (w' : World V) : Prop where
  recovering : Recovering shoes w live w'
  table : table (shapes w'.engine) = reached recovery (done.map Prod.fst) (fun _ => none)
  collected : NoTombstones (shapes w'.engine)

theorem restarting_start {recovery : NormalizedConfig V} (recovering : Recovering shoes w live w') (empty : shapes w'.engine = fun _ => none) :
    Restarting shoes w recovery [] live w' := by
  refine ⟨recovering,?_,?_⟩
  · rw [empty,List.map_nil,reached,overlay_nil]
    rfl
  · intro tag shape users id has
    rw [empty] at has
    cases has.1

theorem ensures_recoverStart {recovery : NormalizedConfig V} {done : List (String × NormalizedInbound V)} {inbound : NormalizedInbound V}
    {replay : Map String InboundReplayLease} (wellFormed : WellFormed recovery) (found : recovery.inbounds[tag]? = some inbound)
    (restarting : Restarting shoes w recovery done live w') :
    Ensures (recoverStart shoes replay live (tag,inbound)) w' (Outcome
      (fun live' w'' => Restarting shoes w recovery (done ++ [(tag,inbound)]) live' w'')
      (fun _ w'' => Recovering shoes w live w'')) := by
  have recovering := restarting.recovering
  have normal := wellFormed tag inbound found
  obtain rfl := normal.tag
  unfold recoverStart
  dsimp only
  split
  · exact Ensures.fail recovering
  next lease held =>
  refine Ensures.attempt_bind (Ensures.and (ensures_callAddInboundWithReplay w' inbound.compiled.spec lease)
    (keeps_addInboundWithReplay inbound.compiled.spec lease w' ⟨recovering.sound,rfl⟩)) ?_
  rintro (error | value) w₁ ⟨held,sound,_⟩
  · exact Ensures.look_bind (Ensures.fail (recovering.same held.1))
  · obtain ⟨quiet,lineage,_,_,kinds,after⟩ := held
    refine Ensures.change_bind (Ensures.pure ⟨⟨?_,?_,?_,?_,lineage.trans recovering.lineage,sound,?_,?_⟩,?_,?_⟩)
    · show ({ w₁.state with recoveryLive := _ } : AppliedState V) = _
      rw [quiet.state,recovering.state]
    · exact quiet.closing.trans recovering.closing
    · exact quiet.recoveryReplay.trans recovering.recoveryReplay
    · exact quiet.journal.trans recovering.journal
    · show Apart (shapes w₁.engine)
      rw [after]
      exact apart_started recovering.apart
    · intro other shape there
      change shapes w₁.engine other = some shape at there
      rw [after,Function.update_apply] at there
      rw [lookup_insert]
      split at there
      · next same =>
        cases there
        rw [if_pos same.symm]
        exact ⟨⟨inbound,inbound⟩,rfl,(normal.covers _ _).retiring,same.symm⟩
      · next different =>
        rw [if_neg (Ne.symm different)]
        exact recovering.known other shape there
    · show table (shapes w₁.engine) = _
      rw [after,table_update,restarting.table,List.map_append,List.map_singleton,reached,reached,overlay_snoc,tableOf,found,Option.map_some,
        Option.map_some,normal.view]
    · show NoTombstones (shapes w₁.engine)
      rw [after]
      exact noTombstones_started restarting.collected

/-- The config that is published, or the one that a recovery is going to publish. -/
def publishedBefore (w : World V) : Option (NormalizedConfig V) :=
  match w.state.current with
  | some config => some config
  | none => w.state.recovery

/-- A recovery publishes the retained config, or leaves a state that can be recovered. -/
theorem ensures_recover (steady : Steady shoes w) : Ensures (recoverIfNeeded shoes) w (Outcome
    (fun _ w' => Steady shoes w' ∧ Open w w' ∧ (w'.state.current).isSome ∧ w'.state.current = publishedBefore w)
    (fun _ w' => Steady shoes w' ∧ Open w w')) := by
  refine Ensures.look_bind ?_
  split
  · next known =>
    refine Ensures.pure ⟨steady,⟨rfl,rfl⟩,known,?_⟩
    unfold publishedBefore
    cases current : w.state.current with
    | none => rw [current] at known; cases known
    | some config => rfl
  next lost =>
  have lost : w.state.current = none := by simpa using lost
  obtain ⟨recovery,retained,before⟩ := steady.lost lost
  have opened {live : Map String (RetiringInbound V)} {w' : World V} (recovering : Recovering shoes w live w') : Open w w' :=
    ⟨recovering.closing,by rw [recovering.state]⟩
  have gives_up {live : Map String (RetiringInbound V)} {w' : World V} (recovering : Recovering shoes w live w') :
      Steady shoes w' ∧ Open w w' := ⟨recovering.steady steady.journal lost retained before,opened recovering⟩
  rw [retained,Option.getD_some]
  refine Ensures.change_bind ?_
  have start := recovering_start steady before
  refine Ensures.bind (Q := Outcome (Stopping shoes w w.engine.inbounds.keys) (fun _ _ => False)) ?_ ?_ (fun _ _ no => no.elim)
  · refine Ensures.foldEach (fun done progress w' => Stopping shoes w done progress w') ⟨start,fun _ absent => absent,?_⟩ ?_
      (fun _ _ done => done)
    · intro _ tag member
      cases member
    · intro done tag rest progress w' _ stopping
      exact ensures_recoverStop stopping tag
  rintro ⟨errors,live⟩ w₁ stopping
  change Stopping shoes w w.engine.inbounds.keys (errors,live) w₁ at stopping
  have recovering₁ : Recovering shoes w live w₁ := stopping.recovering
  dsimp only
  split
  · exact Ensures.look_bind (Ensures.fail (gives_up recovering₁))
  next none_failed =>
  have none_failed : errors = [] := by simpa using none_failed
  have empty := stopping.empty none_failed
  refine Ensures.bind (Ensures.orFail (R := Outcome (fun _ w' => Same w₁ w') (fun _ w' => Same w₁ w')) (ensures_ask w₁)
    (fun _ _ held => held.1) (fun _ _ held => held.1)) ?_ ?_
  · intro _ w₂ same
    change Same w₁ w₂ at same
    have recovering₂ := recovering₁.same same
    have empty₂ : shapes w₂.engine = fun _ => none := same.shapes.trans empty
    refine Ensures.bind (Q := Outcome
      (fun live' w' => Restarting shoes w recovery recovery.inbounds.toList live' w')
      (fun _ w' => Steady shoes w' ∧ Open w w')) ?_ ?_ (fun _ _ held => held)
    · refine Ensures.foldEach (fun done live' w' => Restarting shoes w recovery done live' w') ?_ ?_ (fun _ _ done => done)
      · exact restarting_start recovering₂ empty₂
      · rintro done ⟨tag,inbound⟩ rest live' w' split restarting
        refine Ensures.mono (ensures_recoverStart before.wellFormed ((mem_toList recovery.inbounds).mp (by rw [split]; simp)) restarting) ?_
        rintro (error | value) w'' held
        · exact gives_up held
        · exact held
    · rintro live' w₃ restarting
      have recovering₃ : Recovering shoes w live' w₃ := restarting.recovering
      refine Ensures.change ⟨⟨recovering₃.sound,recovering₃.apart,recovering₃.journal.trans steady.journal,?_,?_⟩,⟨recovering₃.closing,?_⟩,rfl,?_⟩
      · rintro config published
        cases published
        exact ⟨before.wellFormed,before.installable,restarting.table.trans (reached_all recovery),restarting.collected,rfl,rfl⟩
      · intro no
        cases no
      · show w₃.state.closed = w.state.closed
        rw [recovering₃.state]
      · unfold publishedBefore
        rw [lost,retained]
  · rintro error w₂ same
    exact gives_up (recovering₁.same same)

end NodeAgent.Recovery
