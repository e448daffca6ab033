import NodeAgent.EngineSound

/-!
The apply, step by step. Every step that takes effect journals its inverse, so that at any
time the journal leads back to the published config and every live inbound has an owner
(`Going`); the table itself moves from the published config to the desired one (`Phase`).
A step that fails says whether its own changes are undone.
-/
namespace NodeAgent.Apply
open NodeAgent.Api NodeAgent.EngineSound NodeAgent.EngineTable NodeAgent.Fallible NodeAgent.FiniteMap NodeAgent.Listeners NodeAgent.Rollback
  NodeAgent.Runtime NodeAgent.RuntimeCalls NodeAgent.Shapes NodeAgent.Transaction
variable {V : Type} {shoes : Shoes V} {old new : NormalizedConfig V} {authority : String → Option Nat} {w₀ w w' : World V}

/-! ### The journal -/

/-- A running transaction: whatever happens next can be rolled back. -/
structure Going (shoes : Shoes V) (old new : NormalizedConfig V) (authority : String → Option Nat) (restored : Bool) (w₀ w : World V) :
    Prop where
  state : w.state = w₀.state
  closing : w.closing = w₀.closing
  recoveryReplay : w.recoveryReplay = w₀.recoveryReplay
  calm : Calm w₀ → Calm w
  sound : SoundEngine shoes w.engine
  rolling : Rolling old new authority restored w.journal [] ∅ w.engine

theorem known_empty {journal : List (Undo V)} {tag : String} {shape : Shape V} :
    Known old new journal ∅ tag shape ↔ Owned old journal tag shape := by
  unfold Known
  constructor
  · rintro (⟨_,retiring,entry,_⟩ | ⟨_,owned⟩)
    · simp at entry
    · exact owned
  · intro owned
    exact .inr ⟨by simp,owned⟩

theorem Going.weaken (going : Going shoes old new authority true w₀ w) (restored : Bool) : Going shoes old new authority restored w₀ w :=
  ⟨going.state,going.closing,going.recoveryReplay,going.calm,going.sound,going.rolling.apart,going.rolling.authorities,
    going.rolling.consistent,going.rolling.ordered,going.rolling.known,fun _ => going.rolling.exact rfl,going.rolling.clean⟩

theorem Going.same {restored : Bool} (going : Going shoes old new authority restored w₀ w) (same : Same w w') :
    Going shoes old new authority restored w₀ w' := by
  obtain ⟨⟨state,closing,recoveryReplay,journal,calm⟩,sameShapes,sameLineages⟩ := same
  have rolling := going.rolling
  refine ⟨state.trans going.state,closing.trans going.closing,recoveryReplay.trans going.recoveryReplay,
    fun before => calm (going.calm before),?_,?_⟩
  · unfold SoundEngine
    rw [sameShapes,sameLineages]
    exact going.sound
  · rw [journal]
    refine ⟨?_,?_,rolling.consistent,rolling.ordered,?_,?_,rolling.clean⟩
    · rw [sameShapes]; exact rolling.apart
    · rw [sameLineages]; exact rolling.authorities
    · rw [sameShapes]; exact rolling.known
    · rw [sameShapes]; exact rolling.exact

/-- A step that failed has left its tag with no more users than before. -/
theorem Going.failed {restored : Bool} {tag : String} (going : Going shoes old new authority true w₀ w) (quiet : Quiet w w')
    (sound : SoundEngine shoes w'.engine) (lineage : lineages w'.engine = lineages w.engine) (apart : Apart (shapes w'.engine))
    (elsewhere : ∀ other, other ≠ tag → shapes w'.engine other = shapes w.engine other)
    (fewer : ∀ shape', shapes w'.engine tag = some shape' → ∃ shape, shapes w.engine tag = some shape ∧ Fewer shape shape')
    (unchanged : restored = true → shapes w'.engine = shapes w.engine) : Going shoes old new authority restored w₀ w' := by
  have rolling := going.rolling
  refine ⟨quiet.state.trans going.state,quiet.closing.trans going.closing,quiet.recoveryReplay.trans going.recoveryReplay,
    fun before => quiet.calm (going.calm before),sound,?_⟩
  rw [quiet.journal]
  refine ⟨apart,?_,rolling.consistent,rolling.ordered,?_,?_,rolling.clean⟩
  · rw [lineage]; exact rolling.authorities
  · intro other shape' there
    by_cases same : other = tag
    · subst same
      obtain ⟨shape,before,fewer⟩ := fewer shape' there
      have owned := known_empty.mp (rolling.known other shape before)
      rw [known_empty]
      rcases owned with ⟨live,accounting,member,own,covers⟩ | ⟨unstarted,inbound,scheduled⟩
      · exact .inl ⟨live,accounting,member,own,covers.fewer fewer⟩
      · refine .inr ⟨unstarted,inbound,scheduled.published,fewer.mode.trans scheduled.mode,?_⟩
        intro users' id registry present
        obtain ⟨users,was,earlier⟩ := fewer.ids users' id registry present
        exact scheduled.ids users id was earlier
    · rw [elsewhere other same] at there
      exact rolling.known other shape' there
  · intro restored _
    rw [unchanged restored]
    exact rolling.exact rfl rfl

theorem Owned.push {journal : List (Undo V)} {undo : Undo V} {tag : String} {shape : Shape V} (silent : Silent undo tag)
    (owned : Owned old journal tag shape) : Owned old (undo :: journal) tag shape := by
  rcases owned with ⟨live,accounting,member,own,covers⟩ | ⟨unstarted,inbound,scheduled⟩
  · exact .inl ⟨live,accounting,List.mem_cons_of_mem _ member,own,covers⟩
  · rw [← starts_rest silent] at unstarted
    refine .inr ⟨unstarted,inbound,scheduled.published,scheduled.mode,?_⟩
    intro users id registry present
    rcases scheduled.ids users id registry present with known | ⟨live,accounting,member,own⟩
    · exact .inl known
    · exact .inr ⟨live,accounting,List.mem_cons_of_mem _ member,own⟩

/-- What the journal needs to know of a step that took effect. -/
structure Recorded (old new : NormalizedConfig V) (authority : String → Option Nat) (journal : List (Undo V))
    (S S' : String → Option (Shape V)) (undo : Undo V) : Prop where
  apart : Apart S'
  elsewhere : ∀ other, other ≠ undoTag undo → S' other = S other
  consistent : Consistent old new authority undo
  unstarted : ¬ Starts journal (undoTag undo)
  owned : ∀ shape', S' (undoTag undo) = some shape' → Owned old (undo :: journal) (undoTag undo) shape'
  inverse : undoTable (table S') undo = table S
  collected : NoTombstones S'

theorem Going.record {undo : Undo V} (going : Going shoes old new authority true w₀ w) (quiet : Quiet w w')
    (sound : SoundEngine shoes w'.engine) (lineage : ∀ tag, (old.inbounds[tag]?).isSome → lineages w'.engine tag = lineages w.engine tag)
    (recorded : Recorded old new authority w.journal (shapes w.engine) (shapes w'.engine) undo) :
    Going shoes old new authority true w₀ { w' with journal := undo :: w'.journal } := by
  have rolling := going.rolling
  refine ⟨quiet.state.trans going.state,quiet.closing.trans going.closing,quiet.recoveryReplay.trans going.recoveryReplay,
    fun before => quiet.calm (going.calm before),sound,?_⟩
  rw [quiet.journal]
  refine ⟨recorded.apart,?_,?_,⟨recorded.unstarted,rolling.ordered⟩,?_,?_,rolling.clean⟩
  · intro tag published
    rw [lineage tag published]
    exact rolling.authorities tag published
  · intro other member
    rcases List.mem_cons.mp member with rfl | later
    · exact recorded.consistent
    · exact rolling.consistent other later
  · intro other shape' there
    rw [known_empty]
    by_cases same : other = undoTag undo
    · subst same
      exact recorded.owned shape' there
    · rw [recorded.elsewhere other same] at there
      exact Owned.push (silent_elsewhere same) (known_empty.mp (rolling.known other shape' there))
  · intro _ _
    refine ⟨?_,recorded.collected⟩
    show undoAll w.journal (undoTable (table (shapes w'.engine)) undo) = tableOf old
    rw [recorded.inverse]
    exact (rolling.exact rfl rfl).1

/-- The transaction has brought the table this far; only these tags have been started. -/
structure Phase (shoes : Shoes V) (old new : NormalizedConfig V) (authority : String → Option Nat) (w₀ : World V) (t : Table V)
    (started : List String) (w : World V) : Prop where
  going : Going shoes old new authority true w₀ w
  table : table (shapes w.engine) = t
  started : ∀ tag, Starts w.journal tag → tag ∈ started

theorem Phase.same {t : Table V} {started : List String} (phase : Phase shoes old new authority w₀ t started w) (same : Same w w') :
    Phase shoes old new authority w₀ t started w' :=
  ⟨phase.going.same same,by rw [same.shapes]; exact phase.table,by rw [same.journal]; exact phase.started⟩

theorem Phase.collected {t : Table V} {started : List String} (phase : Phase shoes old new authority w₀ t started w) :
    NoTombstones (shapes w.engine) := (phase.going.rolling.exact rfl rfl).2

/-- A step of the apply: it brings the table further, or fails and says what is undone. -/
def Stepped (shoes : Shoes V) (old new : NormalizedConfig V) (authority : String → Option Nat) (w₀ : World V) (t : Table V)
    (started : List String) : Except StepFailure Unit → World V → Prop :=
  Outcome (fun _ w' => Phase shoes old new authority w₀ t started w') (fun failure w' => Going shoes old new authority failure.restored w₀ w')

/-! ### Steps on a whole inbound -/

section
variable {t : Table V} {started : List String} {tag : String} (wellFormedOld : WellFormed old) (wellFormedNew : WellFormed new)

theorem expectInbound_found {config : NormalizedConfig V} {inbound : NormalizedInbound V} (found : config.inbounds[tag]? = some inbound) :
    expectInbound config tag = (pure inbound : Op (World V) StepFailure (NormalizedInbound V)) := by
  unfold expectInbound
  rw [found]

/-- A preserved namespace has the authority that its tag had from the start. -/
theorem ensures_preserveFor (going : Going shoes old new authority true w₀ w) (published : (old.inbounds[tag]?).isSome) (operation : String) :
    Ensures (preserveFor operation tag) w (Outcome
      (fun lease w' => Same w w' ∧ lease.tag = tag ∧ authority tag = some lease.lineage)
      (fun failure w' => Same w w' ∧ failure.restored = true)) := by
  refine Ensures.orFail (ensures_ask w) ?_ ?_
  · rintro lease w' ⟨same,answer⟩
    have going' := going.same same
    unfold preserveInboundReplay at answer
    split at answer
    · cases answer
    next slot held =>
    cases answer
    refine ⟨same,rfl,?_⟩
    rw [← going'.rolling.authorities tag published]
    exact going'.sound.rooted tag (slotShape slot) (by simp [shapes,held])
  · rintro error w' ⟨same,_⟩
    exact ⟨same,rfl⟩

/-- The live users of an inbound that shows its config are those of the config. -/
theorem agrees_of_view {S : String → Option (Shape V)} {inbound : NormalizedInbound V} (shown : table S tag = some (inboundView inbound)) :
    ∀ shape users, HasUsers S tag shape users → Agrees inbound users := by
  intro shape users has id spec held
  unfold table at shown
  rw [has.1,Option.map_some,Option.some.injEq] at shown
  have both := congrArg View.users shown
  simp only [viewOf,inboundView,has.2,Option.map_some] at both
  split at both
  · rw [Option.some.injEq] at both
    rw [← congrFun both id]
    exact held
  · cases both

include wellFormedOld in
theorem ensures_takeDown {inbound : NormalizedInbound V} {lease : InboundReplayLease} (phase : Phase shoes old new authority w₀ t started w)
    (published : old.inbounds[tag]? = some inbound) (shown : t tag = some (inboundView inbound)) (unstarted : tag ∉ started)
    (admits : authority tag = some lease.lineage) :
    Ensures (takeDown shoes inbound lease) w (Stepped shoes old new authority w₀ (Function.update t tag none) started) := by
  have normal := wellFormedOld tag inbound published
  have going := phase.going
  obtain rfl := normal.tag
  refine Ensures.bind (Ensures.and (ensures_stop w going.rolling.apart inbound inbound inbound normal.keyed)
    ((sound_piecewise shoes w.journal).stop inbound inbound inbound w ⟨going.sound,rfl⟩)) ?_ ?_
  · rintro _ w' ⟨⟨quiet,lineage,_,down⟩,sound,_⟩
    refine Ensures.change ⟨?_,?_,?_⟩
    · refine going.record quiet sound (fun _ _ => by rw [lineage]) ?_
      rw [down]
      refine ⟨apart_removed going.rolling.apart,fun other different => Function.update_of_ne different _ _,⟨published,admits⟩,
        fun starts => unstarted (phase.started _ starts),?_,?_,noTombstones_removed phase.collected⟩
      · intro shape' there
        rw [undoTag,Function.update_self] at there
        cases there
      · rw [undoTable,table_update,phase.table,Option.map_none,Function.update_idem,← shown,Function.update_eq_self]
    · show table (shapes w'.engine) = _
      rw [down,table_update,phase.table]
      rfl
    · intro other starts
      refine phase.started other ?_
      rw [← quiet.journal]
      exact (starts_rest ⟨(by intro _ _ no; cases no),(by intro _ _ _ no; cases no)⟩).mp starts
  · rintro failure w' ⟨⟨quiet,lineage,shrunk,exactly⟩,sound,_⟩
    refine going.failed quiet sound lineage (apart_shrunk going.rolling.apart shrunk) (fun other different => elsewhere_shrunk different shrunk)
      (fun shape' there => fewer_shrunk shrunk there) ?_
    intro restored
    exact exactly restored (agrees_of_view (by rw [phase.table]; exact shown))

/-- What a start does when it succeeds and when it fails. -/
def Starting (old : NormalizedConfig V) (start : Op (World V) EngineError Unit) (w : World V) (inbound : NormalizedInbound V) : Prop :=
  Ensures start w (Outcome
    (fun _ w' => Quiet w w' ∧ (∀ tag, (old.inbounds[tag]?).isSome → lineages w'.engine tag = lineages w.engine tag) ∧ ∃ lineage kinds,
      shapes w'.engine = Function.update (shapes w.engine) inbound.compiled.spec.tag
        (some (addedShape inbound.compiled.spec lineage kinds)))
    (fun _ w' => Same w w'))

theorem starting_replay (inbound : NormalizedInbound V) (lease : InboundReplayLease) (w : World V) :
    Starting old (callAddInboundWithReplay shoes inbound.compiled.spec lease) w inbound := by
  refine Ensures.mono (ensures_callAddInboundWithReplay w inbound.compiled.spec lease) ?_
  rintro (error | value) w' held
  · exact held.1
  · obtain ⟨quiet,lineage,_,_,kinds,after⟩ := held
    exact ⟨quiet,fun _ _ => by rw [lineage],lease.lineage,kinds,after⟩

theorem starting_fresh {inbound : NormalizedInbound V} (absent : old.inbounds[inbound.compiled.spec.tag]? = none) (w : World V) :
    Starting old (callAddInbound shoes inbound.compiled.spec) w inbound := by
  refine Ensures.mono (ensures_callAddInbound w inbound.compiled.spec) ?_
  rintro (error | value) w' held
  · exact held.1
  · obtain ⟨quiet,_,lineage,kinds,published,after⟩ := held
    refine ⟨quiet,?_,lineage,kinds,after⟩
    intro tag known
    rw [published]
    refine Function.update_of_ne ?_ _ _
    rintro rfl
    rw [absent] at known
    cases known

include wellFormedNew in
theorem ensures_bringUp {inbound accounting : NormalizedInbound V} {start : Op (World V) EngineError Unit} {operation : String}
    (phase : Phase shoes old new authority w₀ t started w) (desired : new.inbounds[tag]? = some inbound) (free : t tag = none)
    (unstarted : tag ∉ started) (own : accounting.compiled.spec.tag = tag)
    (owner : ∀ published, old.inbounds[tag]? = some published → accounting = published)
    (starting : Starting old start w inbound) (keeps : Keeps (Sane shoes w.journal) start) :
    Ensures (bringUp operation start inbound accounting) w
      (Stepped shoes old new authority w₀ (Function.update t tag (some (inboundView inbound))) (started ++ [tag])) := by
  have normal := wellFormedNew tag inbound desired
  have going := phase.going
  obtain rfl := normal.tag
  refine Ensures.bind (Ensures.orFail (R := Outcome _ (fun failure w' => Same w w' ∧ failure.restored = true))
    (Ensures.and starting (keeps w ⟨going.sound,rfl⟩)) (fun _ _ held => held) (fun _ _ held => ⟨held.1,rfl⟩)) ?_ ?_
  · rintro _ w' ⟨⟨quiet,lineage,authority',kinds,after⟩,sound,_⟩
    have shape_there {shape' : Shape V} (there : shapes w'.engine inbound.compiled.spec.tag = some shape') :
        shape' = addedShape inbound.compiled.spec authority' kinds := by
      rw [after,Function.update_self,Option.some.injEq] at there
      exact there.symm
    refine Ensures.change ⟨?_,?_,?_⟩
    · refine going.record quiet sound lineage ?_
      refine ⟨?_,?_,⟨desired,own,owner⟩,fun starts => unstarted (phase.started _ starts),?_,?_,?_⟩
      · rw [after]; exact apart_started going.rolling.apart
      · intro other different
        rw [after]
        exact Function.update_of_ne different _ _
      · intro shape' there
        refine .inl ⟨inbound,accounting,List.mem_cons_self,rfl,?_⟩
        rw [shape_there there]
        exact normal.covers authority' kinds
      · rw [after,undoTable,table_update,phase.table,Function.update_idem,← free,Function.update_eq_self]
      · rw [after]; exact noTombstones_started phase.collected
    · show table (shapes w'.engine) = _
      rw [after,table_update,phase.table,Option.map_some,normal.view]
    · rintro other ⟨live,acc,member,own⟩
      rcases List.mem_cons.mp member with head | later
      · cases head
        rw [← own]
        simp
      · rw [quiet.journal] at later
        exact List.mem_append_left _ (phase.started other ⟨live,acc,later,own⟩)
  · rintro failure w' ⟨same,restored⟩
    show Going shoes old new authority failure.restored w₀ w'
    exact (going.same same).weaken _

/-- The config of the desired inbound over the users of the published one. -/
def hotView (old new : NormalizedConfig V) : Table V := fun tag =>
  match old.inbounds[tag]?, new.inbounds[tag]? with
  | some before, some after => some ⟨after.compiled.spec.config,(inboundView before).users⟩
  | _, _ => none

theorem hotView_eq {before after : NormalizedInbound V} (published : old.inbounds[tag]? = some before)
    (desired : new.inbounds[tag]? = some after) :
    hotView old new tag = some ⟨after.compiled.spec.config,(inboundView before).users⟩ := by
  unfold hotView
  rw [published,desired]

/-- Whoever is on a listener that was not started in this transaction is known. -/
theorem Phase.scheduled {inbound : NormalizedInbound V} {shape : Shape V} (phase : Phase shoes old new authority w₀ t started w)
    (published : old.inbounds[tag]? = some inbound) (unstarted : tag ∉ started) (there : shapes w.engine tag = some shape) :
    Scheduled old w.journal tag inbound shape := by
  rcases known_empty.mp (phase.going.rolling.known tag shape there) with ⟨live,accounting,member,own,_⟩ | ⟨_,other,scheduled⟩
  · exact absurd (phase.started tag ⟨live,accounting,member,own⟩) unstarted
  · have same := scheduled.published
    rw [published,Option.some.injEq] at same
    subst same
    exact scheduled

theorem unstarted_push {undo : Undo V} {journal : List (Undo V)} (unstarted : tag ∉ started) (earlier : ∀ tag, Starts journal tag → tag ∈ started)
    (silent : ∀ live accounting, undo ≠ .removeInbound live accounting) : ¬ Starts (undo :: journal) tag := by
  rintro ⟨live,accounting,member,own⟩
  rcases List.mem_cons.mp member with head | later
  · exact silent live accounting head.symm
  · exact unstarted (earlier tag ⟨live,accounting,later,own⟩)

theorem started_push {undo : Undo V} {journal : List (Undo V)} (earlier : ∀ tag, Starts journal tag → tag ∈ started)
    (silent : ∀ live accounting, undo ≠ .removeInbound live accounting) : ∀ tag, Starts (undo :: journal) tag → tag ∈ started := by
  intro tag starts
  by_contra unstarted
  exact unstarted_push unstarted earlier silent starts

include wellFormedNew in
/-- A listener takes its new config in place. -/
theorem ensures_takeOver {before after : NormalizedInbound V} {lease : InboundReplayLease} {w' : World V}
    (phase : Phase shoes old new authority w₀ t started w) (published : old.inbounds[tag]? = some before)
    (desired : new.inbounds[tag]? = some after) (mode : before.dynamicUsers = after.dynamicUsers)
    (shown : t tag = some (inboundView before)) (unstarted : tag ∉ started) (admits : authority tag = some lease.lineage)
    (sound : SoundEngine shoes w'.engine) (quiet : Quiet w w') (lineage : lineages w'.engine = lineages w.engine)
    (updated : ∃ shape, shapes w.engine tag = some shape ∧
      shapes w'.engine = Function.update (shapes w.engine) tag (some { shape with config := after.compiled.spec.config })) :
    Phase shoes old new authority w₀ (Function.update t tag (hotView old new tag)) started
      { w' with journal := .restoreHotConfig after before lease :: w'.journal } := by
  obtain ⟨shape,there,after_shapes⟩ := updated
  have going := phase.going
  obtain rfl := (wellFormedNew tag after desired).tag
  have view : viewOf shape = inboundView before := by
    have shown' := shown
    rw [← phase.table] at shown'
    unfold table at shown'
    rw [there] at shown'
    simpa using shown'
  have silent : ∀ live accounting, Undo.restoreHotConfig after before lease ≠ .removeInbound live accounting := by
    intro _ _ no
    cases no
  refine ⟨?_,?_,?_⟩
  · refine going.record quiet sound (fun _ _ => by rw [lineage]) ?_
    rw [after_shapes]
    refine ⟨apart_config going.rolling.apart there,fun other different => Function.update_of_ne different _ _,
      ⟨desired,published,mode.symm,admits⟩,fun starts => unstarted (phase.started _ starts),?_,?_,
      noTombstones_config phase.collected there⟩
    · intro shape' found
      rw [undoTag,Function.update_self,Option.some.injEq] at found
      subst found
      have scheduled := phase.scheduled published unstarted there
      refine .inr ⟨unstarted_push unstarted phase.started silent,before,scheduled.published,scheduled.mode,?_⟩
      intro users id registry present
      rcases scheduled.ids users id registry present with known | ⟨live,accounting,member,own⟩
      · exact .inl known
      · exact .inr ⟨live,accounting,List.mem_cons_of_mem _ member,own⟩
    · rw [undoTable,table_update,phase.table,Function.update_idem,← shown,Function.update_eq_self]
  · show table (shapes w'.engine) = _
    rw [after_shapes,table_update,phase.table,hotView_eq published desired,← view]
    rfl
  · show ∀ tag, Starts (.restoreHotConfig after before lease :: w'.journal) tag → tag ∈ started
    rw [quiet.journal]
    exact started_push phase.started silent

/-! ### Steps on one user -/

theorem setUser_eq {config : V} {specs : String → Option UserSpec} {id : String} {spec : Option UserSpec}
    (shown : t tag = some ⟨config,some specs⟩) :
    setUser t tag id spec = Function.update t tag (some ⟨config,some (Function.update specs id spec)⟩) := by
  unfold setUser
  rw [shown]

/-- Setting a user back to what it was undoes the change. -/
theorem setUser_back {config : V} {specs : String → Option UserSpec} {id : String} {spec : Option UserSpec}
    (shown : t tag = some ⟨config,some specs⟩) : setUser (setUser t tag id spec) tag id (specs id) = t := by
  have changed : (setUser t tag id spec) tag = some ⟨config,some (Function.update specs id spec)⟩ := by
    rw [setUser_eq shown,Function.update_self]
  rw [setUser_eq changed,setUser_eq shown,Function.update_idem,Function.update_idem,Function.update_eq_self,← shown,Function.update_eq_self]

theorem expectUser_found {inbound : NormalizedInbound V} {id : String} {user : UserSpec} (found : inbound.users[id]? = some user) :
    expectUser inbound id = (pure user : Op (World V) StepFailure UserSpec) := by
  unfold expectUser
  rw [found]

theorem elsewhere_dropped {S S' : String → Option (Shape V)} {id other : String} (dropped : Dropped tag id S S') (different : other ≠ tag) :
    S' other = S other := by
  obtain ⟨shape,users,_,_,rfl⟩ := dropped
  exact elsewhere_withUsers different

theorem elsewhere_added {S S' : String → Option (Shape V)} {spec : UserSpec} {other : String} (added : Added tag spec S S')
    (different : other ≠ tag) : S' other = S other := by
  obtain ⟨id,shape,users,_,_,_,rfl⟩ := added
  exact elsewhere_withUsers different

include wellFormedOld in
/-- A user that the desired config does not have is collected. -/
theorem ensures_retireUser {before : NormalizedInbound V} {config : V} {specs : String → Option UserSpec} {id : String} {oldUser : UserSpec}
    (phase : Phase shoes old new authority w₀ t started w) (published : old.inbounds[tag]? = some before)
    (shown : t tag = some ⟨config,some specs⟩) (registered : specs id = some oldUser) (listed : before.users[id]? = some oldUser)
    (unstarted : tag ∉ started) : Ensures (retireUser tag before id) w (Stepped shoes old new authority w₀
      (Function.update t tag (some ⟨config,some (Function.update specs id none)⟩)) started) := by
  have normal := wellFormedOld tag before published
  have going := phase.going
  have silent : ∀ live accounting, Undo.addUser before oldUser ≠ .removeInbound live accounting := by
    intro _ _ no
    cases no
  unfold retireUser
  rw [expectUser_found listed]
  refine Ensures.pure_bind ?_
  refine Ensures.attempt_bind (Ensures.and (ensures_collectUser w going.rolling.apart tag before id)
    (keeps_collect tag before id w ⟨going.sound,rfl⟩)) ?_
  rintro (failure | value) w' ⟨⟨quiet,lineage,held⟩,sound,_⟩
  · cases failure with
    | reserve error =>
      change shapes w'.engine = shapes w.engine at held
      refine Ensures.fail ?_
      exact (going.same ⟨quiet,held,lineage⟩).weaken _
    | remove failure =>
      refine Ensures.fail ?_
      rcases held with ⟨changed,_,_,stranded⟩ | ⟨_,same,_⟩
      · refine going.failed quiet sound lineage (apart_stranded going.rolling.apart stranded) ?_
          (fun shape' there => fewer_stranded stranded there) ?_
        · intro other different
          obtain ⟨shape,users,counters,_,_,after⟩ := stranded
          rw [after]
          exact elsewhere_withUsers different
        · intro restored
          simp [changed] at restored
      · exact (going.same ⟨quiet,same,lineage⟩).weaken _
  · refine Ensures.change ?_
    have changed : table (shapes w'.engine) = setUser t tag id none := by rw [table_dropped held,phase.table]
    have resolved := normal.keyed id oldUser listed
    refine ⟨?_,?_,?_⟩
    · refine going.record quiet sound (fun _ _ => by rw [lineage]) ?_
      obtain rfl := normal.tag
      refine ⟨apart_dropped going.rolling.apart held,fun other different => elsewhere_dropped held different,⟨published,id,listed⟩,
        fun starts => unstarted (phase.started _ starts),?_,?_,noTombstones_dropped phase.collected held⟩
      · intro shape' there
        obtain ⟨shape,was,fewer,_⟩ := fewer_dropped held there
        have scheduled := phase.scheduled published unstarted was
        refine .inr ⟨unstarted_push unstarted phase.started silent,before,published,fewer.mode.trans scheduled.mode,?_⟩
        intro users' other registry present
        obtain ⟨users,was',earlier⟩ := fewer.ids users' other registry present
        rcases scheduled.ids users other was' earlier with known | ⟨live,accounting,member,own⟩
        · exact .inl known
        · exact .inr ⟨live,accounting,List.mem_cons_of_mem _ member,own⟩
      · rw [undoTable,changed,resolved,Option.getD_some,← registered,setUser_back shown,phase.table]
    · show table (shapes w'.engine) = _
      rw [changed,setUser_eq shown]
    · show ∀ tag, Starts (.addUser before oldUser :: w'.journal) tag → tag ∈ started
      rw [quiet.journal]
      exact started_push phase.started silent

/-- What an upsert relies on in the diff. -/
structure Upserts (before after : NormalizedInbound V) (specs : String → Option UserSpec) (change : UserDelta) (newUser : UserSpec) : Prop where
  listed : after.users[change.id]? = some newUser
  added : change.added = true → specs change.id = none
  replaced : change.added = false → ∃ previous, before.users[change.id]? = some previous ∧ specs change.id = some previous

/-- What an upsert journals leads back to the table before it. -/
theorem inverse_upsert {before after : NormalizedInbound V} {config : V} {specs : String → Option UserSpec} {change : UserDelta}
    {newUser previous : UserSpec} (shown : t tag = some ⟨config,some specs⟩) (keyed : Keyed before) (own : before.compiled.spec.tag = tag)
    (own' : after.compiled.spec.tag = tag) (added : change.added = true → specs change.id = none)
    (replaced : change.added = false → before.users[change.id]? = some previous ∧ specs change.id = some previous) :
    undoTable (setUser t tag change.id (some newUser)) (upsertUndo before after change previous) = t := by
  unfold upsertUndo
  cases kind : change.added with
  | true =>
    rw [if_pos rfl,undoTable,own',← added kind,setUser_back shown]
  | false =>
    obtain ⟨listed,registered⟩ := replaced kind
    rw [if_neg (by simp),undoTable,own,keyed _ _ listed,Option.getD_some,← registered,setUser_back shown]

theorem upsertUndo_tag {before after : NormalizedInbound V} (own : before.compiled.spec.tag = tag) (own' : after.compiled.spec.tag = tag)
    (change : UserDelta) (previous : UserSpec) : undoTag (upsertUndo before after change previous) = tag := by
  unfold upsertUndo
  split
  · exact own'
  · exact own

theorem upsertUndo_silent (before after : NormalizedInbound V) (change : UserDelta) (previous : UserSpec) :
    ∀ live accounting, upsertUndo before after change previous ≠ .removeInbound live accounting := by
  unfold upsertUndo
  intro live accounting
  split
  · intro no; cases no
  · intro no; cases no

include wellFormedOld wellFormedNew in
/-- A user of the desired config is registered, anew or in place of its old spec. -/
theorem ensures_upsertUser {before after : NormalizedInbound V} {config : V} {specs : String → Option UserSpec} {change : UserDelta}
    {newUser : UserSpec} (phase : Phase shoes old new authority w₀ t started w) (published : old.inbounds[tag]? = some before)
    (desired : new.inbounds[tag]? = some after) (mode : before.dynamicUsers = after.dynamicUsers)
    (shown : t tag = some ⟨config,some specs⟩) (upserts : Upserts before after specs change newUser) (unstarted : tag ∉ started) :
    Ensures (upsertUser shoes tag before after change) w (Stepped shoes old new authority w₀
      (Function.update t tag (some ⟨config,some (Function.update specs change.id (some newUser))⟩)) started) := by
  have normal := wellFormedOld tag before published
  have normal' := wellFormedNew tag after desired
  have going := phase.going
  have resolved := normal'.keyed change.id newUser upserts.listed
  unfold upsertUser
  rw [expectUser_found upserts.listed]
  refine Ensures.pure_bind ?_
  refine Ensures.bind (Ensures.orFail (R := Outcome _ (fun failure w' => Same w w' ∧ failure.restored = true))
    (Ensures.and (ensures_callAddUser w tag newUser) (keeps_addUser tag newUser w ⟨going.sound,rfl⟩)) (fun _ _ held => held)
    (fun _ _ held => ⟨held.1.1,rfl⟩)) ?_ (fun failure w' held => (going.same held.1).weaken _)
  rintro _ w' ⟨⟨quiet,lineage,held⟩,sound,_⟩
  have changed : table (shapes w'.engine) = setUser t tag change.id (some newUser) := by
    rw [table_added held,phase.table,resolved]
    rfl
  -- What the journal needs, whichever inverse the upsert has.
  have next : ∃ previous, replacedUser before change newUser = (pure previous : Op (World V) StepFailure UserSpec) ∧
      (change.added = false → before.users[change.id]? = some previous ∧ specs change.id = some previous) := by
    unfold replacedUser
    cases kind : change.added with
    | true => exact ⟨newUser,if_pos rfl,fun no => by cases no⟩
    | false =>
      obtain ⟨previous,listed,registered⟩ := upserts.replaced kind
      refine ⟨previous,?_,fun _ => ⟨listed,registered⟩⟩
      rw [if_neg (by simp),expectUser_found listed]
  obtain ⟨previous,replaced,facts⟩ := next
  rw [replaced]
  refine Ensures.pure_bind ?_
  have own := upsertUndo_tag normal.tag normal'.tag change previous
  have silent := upsertUndo_silent before after change previous
  have phase' : Phase shoes old new authority w₀ (Function.update t tag (some ⟨config,some (Function.update specs change.id (some newUser))⟩))
      started { w' with journal := upsertUndo before after change previous :: w'.journal } := by
    refine ⟨?_,?_,?_⟩
    · refine going.record quiet sound (fun _ _ => by rw [lineage]) ?_
      refine ⟨apart_added going.rolling.apart held,?_,?_,?_,?_,?_,noTombstones_added phase.collected held⟩
      · intro other different
        rw [own] at different
        exact elsewhere_added held different
      · unfold upsertUndo
        cases kind : change.added with
        | true =>
          refine ⟨by rw [normal'.tag]; exact desired,by rw [normal'.tag]; exact published,mode.symm,?_⟩
          rw [upserts.listed]
          rfl
        | false =>
          refine ⟨by rw [normal.tag]; exact published,change.id,(facts kind).1⟩
      · rw [own]
        exact fun starts => unstarted (phase.started _ starts)
      · rw [own]
        intro shape' there
        obtain ⟨id,shape,users,resolved',has,_,after_shapes⟩ := held
        rw [resolved,Option.some.injEq] at resolved'
        subst resolved'
        rw [after_shapes,withUsers_apply,if_pos rfl,Option.some.injEq] at there
        subst there
        have scheduled := phase.scheduled published unstarted has.1
        refine .inr ⟨unstarted_push unstarted phase.started silent,before,published,?_,?_⟩
        · rw [← scheduled.mode,has.2]
          rfl
        · rintro users' other registry present
          cases registry
          by_cases same : other = change.id
          · subst same
            cases kind : change.added with
            | true =>
              refine .inr ⟨after,before,?_,normal'.tag⟩
              simp [upsertUndo,kind]
            | false =>
              rw [(facts kind).1]
              exact .inl rfl
          · have earlier : Present users other := by
              unfold Present at present ⊢
              simpa [UsersShape.add,Function.update_of_ne same] using present
            rcases scheduled.ids users other has.2 earlier with known | ⟨live,accounting,member,own⟩
            · exact .inl known
            · exact .inr ⟨live,accounting,List.mem_cons_of_mem _ member,own⟩
      · rw [changed,inverse_upsert shown normal.keyed normal.tag normal'.tag upserts.added facts,phase.table]
    · show table (shapes w'.engine) = _
      rw [changed,setUser_eq shown]
    · show ∀ tag, Starts (upsertUndo before after change previous :: w'.journal) tag → tag ∈ started
      rw [quiet.journal]
      exact started_push phase.started silent
  refine Ensures.change_bind ?_
  split
  · -- A kick that fails leaves the upsert to the journal.
    refine Ensures.orFail (ensures_ask _) ?_ ?_
    · rintro _ w'' ⟨same,_⟩
      exact phase'.same same
    · rintro error w'' ⟨same,_⟩
      exact (phase'.going.same same).weaken _
  · exact Ensures.pure phase'

end

end NodeAgent.Apply
