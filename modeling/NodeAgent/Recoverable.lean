import NodeAgent.PendingRoom

/-!
Recovery of an indeterminate runtime. Whatever has failed so far, every live listener has
a known owner and every inbound of the retained config a lease that the engine admits, so a
recovery in which nothing fails by itself, with room for the users it collects, publishes
the retained config. A runtime that was closed is not recovered.
-/
namespace NodeAgent.Recoverable
open NodeAgent.Api NodeAgent.Commit NodeAgent.Consistency NodeAgent.EngineSound NodeAgent.EngineTable NodeAgent.Endurance NodeAgent.Fallible
  NodeAgent.FiniteMap NodeAgent.PendingRoom NodeAgent.Receipts NodeAgent.Recovery NodeAgent.Rollback NodeAgent.Runtime NodeAgent.RuntimeCalls
  NodeAgent.Shapes NodeAgent.Transaction NodeAgent.Transition
open NodeAgent.Listeners (ensures_callAddInboundWithReplay ensures_callRemoveInboundHard)
variable {V : Type} {shoes : Shoes V} {w w' : World V} {maxKeys : Nat} {tag : String}

/-! ### Room -/

/-- The users that the generations of a listener may have left on it, under their owner. -/
def generationKeys (retiring : RetiringInbound V) : List TrafficDrainKey :=
  (retiring.live.users.keys ++ retiring.accounting.users.keys).map (trafficKey retiring.accounting)

/-- The identities on file, and those that a recovery may have to file. -/
def recoveryKeys (w : World V) (recovery : NormalizedConfig V) : Finset TrafficDrainKey :=
  (w.pending.entries.keys ++ w.engine.inbounds.keys.flatMap (fun tag =>
    (((knownLive w.engine recovery w.state.recoveryLive)[tag]?).map generationKeys).getD [])).toFinset

/-- What is on file is among these identities. -/
structure Within (keys : Finset TrafficDrainKey) (maxKeys : Nat) (w : World V) : Prop where
  filing : Filing maxKeys w
  inside : ∀ key, (w.pending.entries[key]?).isSome → key ∈ keys

theorem Within.untouched {keys : Finset TrafficDrainKey} (within : Within keys maxKeys w) (untouched : Untouched w w') :
    Within keys maxKeys w' := by
  refine ⟨within.filing.untouched untouched,?_⟩
  rw [untouched.pending]
  exact within.inside

/-- There is room for an identity that is not on file. -/
theorem Within.room {keys : Finset TrafficDrainKey} {key : TrafficDrainKey} (within : Within keys maxKeys w) (room : keys.card ≤ maxKeys)
    (member : key ∈ keys) (fresh : w.pending.entries[key]? = none) : w.pending.entries.size < maxKeys := by
  have smaller : w.pending.entries.keys.toFinset ⊂ keys := by
    rw [Finset.ssubset_iff_of_subset]
    · refine ⟨key,member,?_⟩
      rw [List.mem_toFinset,Std.ExtTreeMap.mem_keys,Std.ExtTreeMap.mem_iff_isSome_getElem?,fresh]
      simp
    · intro other there
      rw [List.mem_toFinset,Std.ExtTreeMap.mem_keys,Std.ExtTreeMap.mem_iff_isSome_getElem?] at there
      exact within.inside other there
  have size : w.pending.entries.keys.toFinset.card = w.pending.entries.size := by
    rw [List.toFinset_card_of_nodup Std.ExtTreeMap.nodup_keys,Std.ExtTreeMap.length_keys]
  have fewer := Finset.card_lt_card smaller
  omega

theorem mem_inserted (ids : List String) (start : Map String Unit) (id : String) :
    id ∈ (ids.foldl (fun ids id => ids.insert id ()) start).keys ↔ id ∈ ids ∨ id ∈ start.keys := by
  induction ids generalizing start with
  | nil => simp
  | cons first rest ih =>
    rw [List.foldl_cons,ih]
    simp only [Std.ExtTreeMap.mem_keys,Std.ExtTreeMap.mem_insert,List.mem_cons,Std.LawfulEqOrd.compare_eq_iff_eq]
    constructor
    · rintro (later | rfl | earlier)
      · exact .inl (.inr later)
      · exact .inl (.inl rfl)
      · exact .inr earlier
    · rintro ((rfl | later) | earlier)
      · exact .inr (.inl rfl)
      · exact .inl later
      · exact .inr (.inr earlier)

/-- Everybody who is listed is known, so a forced stop collects users of the generations. -/
theorem forceIds_known {retiring : RetiringInbound V} {users : List String} {id : String} (dynamic : retiring.live.dynamicUsers = true)
    (listed : ∀ id ∈ users, (retiring.live.users[id]?).isSome ∨ (retiring.accounting.users[id]?).isSome)
    (member : id ∈ forceIds users (some retiring)) : trafficKey retiring.accounting id ∈ generationKeys retiring := by
  have ids : forceIds users (some retiring) =
      ((users ++ retiring.live.users.keys ++ retiring.accounting.users.keys).foldl (fun ids id => ids.insert id ())
        (∅ : Map String Unit)).keys := if_pos dynamic
  refine List.mem_map_of_mem ?_
  rw [ids,mem_inserted] at member
  simp only [List.mem_append,Std.ExtTreeMap.mem_keys,Std.ExtTreeMap.mem_iff_isSome_getElem?] at member ⊢
  rcases member with ((user | live) | accounted) | none
  · exact listed id user
  · exact .inl live
  · exact .inr accounted
  · simp at none

/-! ### Forced stops that succeed -/

/-- A forced stop that collects users without a failure. -/
structure Collecting (keys : Finset TrafficDrainKey) (maxKeys : Nat) (tag : String) (w w' : World V) : Prop where
  narrowed : Narrowed tag w w'
  calm : Calm w'
  within : Within keys maxKeys w'
  registry : ∃ shape users, HasUsers (shapes w'.engine) tag shape users

/-- With room, a user is collected or was collected before. -/
theorem Collecting.collects {keys : Finset TrafficDrainKey} (collecting : Collecting keys maxKeys tag w w') (room : keys.card ≤ maxKeys)
    (inbound : RetiringInbound V) (id : String) (member : trafficKey inbound.accounting id ∈ keys) :
    Ensures (forceCollect tag inbound id) w' (Outcome (fun _ w'' => Collecting keys maxKeys tag w w'') (fun _ _ => False)) := by
  have apart := collecting.narrowed.apart
  obtain ⟨shape,users,has⟩ := collecting.registry
  refine Ensures.attempt_bind (Ensures.and (narrowed_collect w' apart tag inbound.accounting id)
    (Ensures.and (ensures_collectUser w' apart tag inbound.accounting id)
      (ensures_collect collecting.within.filing tag inbound.accounting id))) ?_
  rintro result w'' ⟨narrowed,held,filing,filed,full⟩
  have within : Within keys maxKeys w'' := by
    refine ⟨filing,fun key there => ?_⟩
    rcases filed key there with before | rfl
    · exact collecting.within.inside key before
    · exact member
  rcases result with failure | value
  · obtain ⟨quiet,-,failed⟩ := held
    cases failure with
    | reserve error =>
      obtain ⟨fresh,limit⟩ := full error rfl
      have space := collecting.within.room room member fresh
      omega
    | remove failure =>
      rcases failed with ⟨-,-,rough,-⟩ | ⟨unchanged,same,decided⟩
      · exact absurd collecting.calm rough
      · obtain ⟨missing,-⟩ := decided (.inr collecting.calm) shape users has
        dsimp only
        rw [missing,unchanged]
        show Ensures (pure ()) _ _
        refine Ensures.pure ⟨collecting.narrowed.trans narrowed,quiet.calm collecting.calm,within,shape,users,?_⟩
        rw [same]
        exact has
  · obtain ⟨quiet,-,shape',users',-,-,after⟩ := held
    refine Ensures.pure ⟨collecting.narrowed.trans narrowed,quiet.calm collecting.calm,within,?_⟩
    rw [after]
    exact ⟨_,_,hasUsers_withUsers⟩

/-- A live listener lists its users, or has none to list. -/
theorem listUsers_cases {e : Engine V} {shape : Shape V} (there : shapes e tag = some shape) :
    (∃ users, shape.users = some users ∧ ∃ ids, listUsers e tag = .ok ids ∧ ∀ id ∈ ids, (users.specs id).isSome) ∨
      ∃ message, listUsers e tag = .error (.unsupported message) := by
  obtain ⟨slot,held,rfl⟩ := Option.map_eq_some_iff.mp there
  cases registry : slot.registry with
  | none =>
    right
    simp [listUsers,registryFor,held,registry]
  | some t =>
    refine .inl ⟨usersShape t,by simp [slotShape,registry],t.users.keys,by simp [listUsers,registryFor,held,registry],?_⟩
    intro id member
    rw [Std.ExtTreeMap.mem_keys,Std.ExtTreeMap.mem_iff_isSome_getElem?] at member
    simpa [usersShape] using member

/-- A listener whose owner is known is stopped when nothing fails by itself and there is room for its users. -/
theorem ensures_forceStop_calm {keys : Finset TrafficDrainKey} {retiring : RetiringInbound V} {shape : Shape V}
    (apart : Apart (shapes w.engine)) (calm : Calm w) (within : Within keys maxKeys w) (room : keys.card ≤ maxKeys)
    (there : shapes w.engine tag = some shape) (tracks : Tracks retiring tag shape) (needed : ∀ key ∈ generationKeys retiring, key ∈ keys) :
    Ensures (forceStopTag tag (some retiring)) w (Outcome (fun _ w' => Calm w' ∧ Within keys maxKeys w') (fun _ _ => False)) := by
  refine Ensures.bind (Q := Outcome (fun _ w' => Calm w' ∧ Within keys maxKeys w' ∧ (shapes w'.engine tag).isSome) (fun _ _ => False))
    ?_ ?_ (fun _ _ no => no)
  · refine Ensures.attempt_bind (Ensures.and (ensures_ask w) (untouched_ask w)) ?_
    rintro (error | ids) w₁ ⟨⟨same,answer⟩,untouched⟩
    · have there₁ : shapes w₁.engine tag = some shape := by rw [same.shapes]; exact there
      have refused := answer calm
      rcases listUsers_cases there₁ with ⟨users,-,ids,listed,-⟩ | ⟨message,unsupported⟩
      · rw [listed] at refused
        cases refused
      · rw [unsupported] at refused
        cases refused
        exact Ensures.pure ⟨same.calm calm,within.untouched untouched,by rw [there₁]; rfl⟩
    · have there₁ : shapes w₁.engine tag = some shape := by rw [same.shapes]; exact there
      rcases listUsers_cases there₁ with ⟨users,registry,ids',listed,known⟩ | ⟨message,unsupported⟩
      · rw [listed] at answer
        cases answer
        have dynamic : retiring.live.dynamicUsers = true := by
          rw [← tracks.covers.mode,registry]
          rfl
        have start : Collecting keys maxKeys tag w w₁ :=
          ⟨Narrowed.same apart same,same.calm calm,within.untouched untouched,shape,users,there₁,registry⟩
        dsimp only
        refine Ensures.forEach (fun _ w' => Collecting keys maxKeys tag w w') start ?_ ?_
        · intro done id rest w' split collecting
          refine collecting.collects room retiring id (needed _ ?_)
          refine forceIds_known dynamic (fun id member => tracks.covers.ids users id registry (.inl (known id member))) ?_
          rw [split]
          simp
        · intro w' collecting
          obtain ⟨shape',users',has⟩ := collecting.registry
          exact ⟨collecting.calm,collecting.within,by rw [has.1]; rfl⟩
      · rw [unsupported] at answer
        cases answer
  · rintro _ w₁ ⟨calm₁,within₁,present⟩
    refine Ensures.orFail (Ensures.and (ensures_callRemoveInboundHard w₁ tag) (untouched_tell w₁)) ?_ ?_
    · rintro _ w₂ ⟨⟨quiet,-⟩,untouched⟩
      exact ⟨quiet.calm calm₁,within₁.untouched untouched⟩
    · rintro error w₂ ⟨⟨-,gone⟩,-⟩
      rw [gone calm₁] at present
      cases present

/-! ### Recovery that succeeds -/

/-- The stops of a recovery in which nothing has failed. -/
structure Emptying (shoes : Shoes V) (keys : Finset TrafficDrainKey) (maxKeys : Nat) (live : Map String (RetiringInbound V)) (w : World V)
    (done : List String) (progress : List String × Map String (RetiringInbound V)) (w' : World V) : Prop where
  stopping : Stopping shoes w done progress w'
  clean : progress.1 = []
  calm : Calm w'
  within : Within keys maxKeys w'
  ahead : ∀ tag ∉ done, shapes w'.engine tag = shapes w.engine tag ∧ progress.2[tag]? = live[tag]?

theorem Emptying.stops {keys : Finset TrafficDrainKey} {live : Map String (RetiringInbound V)} {done : List String}
    {progress : List String × Map String (RetiringInbound V)} (emptying : Emptying shoes keys maxKeys live w done progress w')
    (room : keys.card ≤ maxKeys) (next : tag ∉ done) (present : (shapes w.engine tag).isSome)
    (needed : ∀ retiring, live[tag]? = some retiring → ∀ key ∈ generationKeys retiring, key ∈ keys) :
    Ensures (@recoverStop V RuntimeError progress tag) w' (Outcome (Emptying shoes keys maxKeys live w (done ++ [tag])) (fun _ _ => False)) := by
  have recovering := emptying.stopping.recovering
  obtain ⟨shape,there⟩ := Option.isSome_iff_exists.mp present
  obtain ⟨unchanged,entry⟩ := emptying.ahead tag next
  have there' : shapes w'.engine tag = some shape := unchanged.trans there
  obtain ⟨retiring,held,tracks⟩ := recovering.known tag shape there'
  have known : live[tag]? = some retiring := entry.symm.trans held
  refine Ensures.mono (Ensures.and (ensures_recoverStop emptying.stopping tag) (Q := Outcome
    (Stopping shoes w (done ++ [tag])) (fun _ _ => False)) (R := Outcome (fun progress' w'' => progress' = (progress.1,progress.2.erase tag) ∧
      Calm w'' ∧ Within keys maxKeys w'' ∧ ∀ other ≠ tag, shapes w''.engine other = shapes w'.engine other) (fun _ _ => False)) ?_) ?_
  · unfold recoverStop
    rw [held]
    refine Ensures.attempt_bind (Ensures.and (ensures_forceStop w' recovering.apart tag (some retiring))
      (ensures_forceStop_calm recovering.apart emptying.calm emptying.within room there' tracks (needed retiring known))) ?_
    rintro (error | value) w₁ ⟨stopped,succeeded⟩
    · exact succeeded.elim
    · obtain ⟨calm,within⟩ := succeeded
      refine Ensures.change_bind (Ensures.pure ⟨rfl,calm,within.untouched ⟨rfl,rfl⟩,?_⟩)
      intro other different
      exact stopped.1.elsewhere other different
  · rintro (no | progress') w'' ⟨stopping,rest⟩
    · exact stopping
    · obtain ⟨rfl,calm,within,elsewhere⟩ := rest
      refine ⟨stopping,emptying.clean,calm,within,?_⟩
      intro other later
      simp only [List.mem_append,List.mem_singleton,not_or] at later
      obtain ⟨same,entry⟩ := emptying.ahead other later.1
      refine ⟨(elsewhere other later.2).trans same,?_⟩
      show (progress.2.erase tag)[other]? = live[other]?
      rw [lookup_erase,if_neg (Ne.symm later.2)]
      exact entry

theorem ensures_ask_calm {α : Type} {answer : Engine V → Except EngineError α} {a : α} (calm : Calm w) (always : ∀ e, answer e = .ok a) :
    Ensures (ask answer) w (Outcome (fun _ w' => Same w w') (fun _ _ => False)) := by
  refine Ensures.mono (ensures_ask w) ?_
  rintro (error | value) w' ⟨same,answered⟩
  · have refused := answered calm
    rw [always] at refused
    cases refused
  · exact same

/-- A lease on the namespace last published for its tag is admitted. -/
theorem prepare_preserved {e : Engine V} {lease : InboundReplayLease} (published : lineages e tag = some lease.lineage) :
    prepare e tag (.preserved lease) = .ok (lease.lineage,e.nextLineage) := if_pos published

/-- The inbounds that are back leave the listen addresses of the others free. -/
theorem free_of_reached {e : Engine V} {recovery : NormalizedConfig V} {tags : List String} {inbound : NormalizedInbound V}
    (installable : Installable shoes recovery) (found : recovery.inbounds[tag]? = some inbound) (later : tag ∉ tags)
    (shown : table (shapes e) = reached recovery tags (fun _ => none)) (other : String) (shape : Shape V)
    (there : shapes e other = some shape) : ∀ key ∈ shoes.bindKeys inbound.compiled.spec.config, key ∉ shoes.bindKeys shape.config := by
  have here := congrFun shown other
  unfold table at here
  rw [there,Option.map_some] at here
  by_cases member : other ∈ tags
  · rw [reached,overlay_inside member,tableOf] at here
    obtain ⟨back,listed,view⟩ := Option.map_eq_some_iff.mp here.symm
    have config : shape.config = back.compiled.spec.config := (congrArg View.config view).symm
    rw [config]
    exact installable.disjoint tag other inbound back found listed (fun same => later (same ▸ member))
  · rw [reached,overlay_outside member] at here
    cases here

/-- An inbound of the retained config starts again when nothing fails by itself. -/
theorem ensures_recoverStart_calm {recovery : NormalizedConfig V} {done : List (String × NormalizedInbound V)} {inbound : NormalizedInbound V}
    {live : Map String (RetiringInbound V)} (before : Indeterminate shoes recovery w) (opened : w.state.closed = false)
    (found : recovery.inbounds[tag]? = some inbound) (later : tag ∉ done.map Prod.fst)
    (restarting : Restarting shoes w recovery done live w') (calm : Calm w') :
    Ensures (recoverStart shoes w.recoveryReplay live (tag,inbound)) w' (Outcome (fun _ w'' => Calm w'') (fun _ _ => False)) := by
  have recovering := restarting.recovering
  obtain rfl := (before.wellFormed tag inbound found).tag
  obtain ⟨lease,retained⟩ := Option.isSome_iff_exists.mp (before.retained opened _ (by rw [found]; rfl))
  obtain ⟨own,admitted⟩ := before.admits _ lease retained
  unfold recoverStart
  dsimp only
  rw [retained]
  refine Ensures.attempt_bind (ensures_callAddInboundWithReplay w' inbound.compiled.spec lease) ?_
  rintro (error | value) w₁ held
  · obtain ⟨e,sameShapes,sameLineages,refused⟩ := held.2 calm
    have shown : table (shapes e) = reached recovery (done.map Prod.fst) (fun _ => none) := by
      rw [sameShapes]
      exact restarting.table
    have absent : shapes e inbound.compiled.spec.tag = none := by
      have outside := congrFun shown inbound.compiled.spec.tag
      rw [reached,overlay_outside later] at outside
      exact Option.map_eq_none_iff.mp outside
    have published : lineages e inbound.compiled.spec.tag = some lease.lineage := by
      rw [sameLineages,recovering.lineage]
      exact admitted
    obtain ⟨e',added⟩ := addInboundInner_succeeds (before.installable.valid _ inbound found) absent
      ⟨_,prepare_preserved published⟩ (free_of_reached before.installable found later shown)
    unfold addInboundWithReplay at refused
    rw [if_neg (by simp [own]),added] at refused
    cases refused
  · exact Ensures.change_bind (Ensures.pure (held.1.calm calm))

/-- A recovery in which nothing fails by itself does not give up while there is room for the users that it collects. -/
theorem ensures_recover_calm {recovery : NormalizedConfig V} (steady : Steady shoes w) (retained : w.state.recovery = some recovery)
    (before : Indeterminate shoes recovery w) (opened : w.state.closed = false) (calm : Calm w) (filing : Filing maxKeys w)
    (room : (recoveryKeys w recovery).card ≤ maxKeys) :
    Ensures (recoverIfNeeded shoes) w (Outcome (fun _ _ => True) (fun _ _ => False)) := by
  have filed (key : TrafficDrainKey) (there : (w.pending.entries[key]?).isSome) : key ∈ recoveryKeys w recovery := by
    rw [recoveryKeys,List.mem_toFinset,List.mem_append,Std.ExtTreeMap.mem_keys,Std.ExtTreeMap.mem_iff_isSome_getElem?]
    exact .inl there
  have needed {tag : String} (member : tag ∈ w.engine.inbounds.keys) (retiring : RetiringInbound V)
      (known : (knownLive w.engine recovery w.state.recoveryLive)[tag]? = some retiring) (key : TrafficDrainKey)
      (own : key ∈ generationKeys retiring) : key ∈ recoveryKeys w recovery := by
    rw [recoveryKeys,List.mem_toFinset,List.mem_append,List.mem_flatMap]
    refine .inr ⟨tag,member,?_⟩
    rw [known]
    exact own
  refine Ensures.look_bind ?_
  split
  · exact Ensures.pure trivial
  rw [retained,Option.getD_some]
  refine Ensures.change_bind ?_
  refine Ensures.bind (Q := Outcome (Emptying shoes (recoveryKeys w recovery) maxKeys
    (knownLive w.engine recovery w.state.recoveryLive) w w.engine.inbounds.keys) (fun _ _ => False)) ?_ ?_ (fun _ _ no => no.elim)
  · refine Ensures.foldEach (Emptying shoes (recoveryKeys w recovery) maxKeys (knownLive w.engine recovery w.state.recoveryLive) w) ?_ ?_
      (fun _ _ done => done)
    · refine ⟨⟨recovering_start steady before,fun _ absent => absent,?_⟩,rfl,calm,⟨filing.untouched ⟨rfl,rfl⟩,filed⟩,fun _ _ => ⟨rfl,rfl⟩⟩
      intro _ tag member
      cases member
    · intro done tag rest progress w' split emptying
      have member : tag ∈ w.engine.inbounds.keys := by rw [split]; simp
      have distinct : w.engine.inbounds.keys.Nodup := Std.ExtTreeMap.nodup_keys
      have next : tag ∉ done := by
        rw [split,List.nodup_append] at distinct
        intro earlier
        exact distinct.2.2 tag earlier tag List.mem_cons_self rfl
      have present : (shapes w.engine tag).isSome := by
        rw [Std.ExtTreeMap.mem_keys,Std.ExtTreeMap.mem_iff_isSome_getElem?] at member
        unfold shapes
        rw [Option.isSome_map]
        exact member
      exact emptying.stops room next present (needed member)
  rintro ⟨errors,live⟩ w₁ emptying
  change Emptying shoes (recoveryKeys w recovery) maxKeys _ w w.engine.inbounds.keys (errors,live) w₁ at emptying
  have none_failed : errors = [] := emptying.clean
  have empty := emptying.stopping.empty none_failed
  subst none_failed
  show Ensures (orFail callDns _ >>= _) w₁ _
  refine Ensures.bind (Ensures.orFail (R := Outcome (fun _ w' => Same w₁ w') (fun _ _ => False))
    (ensures_ask_calm emptying.calm (fun _ => rfl)) (fun _ _ same => same) (fun _ _ no => no)) ?_ (fun _ _ no => no.elim)
  intro _ w₂ same
  change Same w₁ w₂ at same
  refine Ensures.bind (Q := Outcome (fun _ _ => True) (fun _ _ => False)) ?_ (fun _ _ _ => Ensures.change trivial) (fun _ _ no => no)
  refine Ensures.foldEach (fun done live' w' => Restarting shoes w recovery done live' w' ∧ Calm w') ⟨?_,same.calm emptying.calm⟩ ?_
    (fun _ _ _ => trivial)
  · exact restarting_start (emptying.stopping.recovering.same same) (same.shapes.trans empty)
  · rintro done ⟨tag,inbound⟩ rest live' w' split ⟨restarting,calm'⟩
    have found : recovery.inbounds[tag]? = some inbound := (mem_toList recovery.inbounds).mp (by rw [split]; simp)
    have later : tag ∉ done.map Prod.fst := by
      have distinct : (recovery.inbounds.toList.map Prod.fst).Nodup := by
        rw [Std.ExtTreeMap.map_fst_toList_eq_keys]
        exact Std.ExtTreeMap.nodup_keys
      rw [split,List.map_append,List.map_cons,List.nodup_append] at distinct
      intro earlier
      exact distinct.2.2 tag earlier tag List.mem_cons_self rfl
    refine Ensures.mono (Ensures.and (ensures_recoverStart before.wellFormed found restarting)
      (ensures_recoverStart_calm before opened found later restarting calm')) ?_
    rintro (error | live'') w'' ⟨started,calm''⟩
    · exact calm''
    · exact ⟨started,calm''⟩

/-- In every indeterminate state that a run reaches, whatever has failed so far: each live listener has a known owner; and while the runtime
    is not closed, each inbound of the retained config has a lease that the engine admits, and a recovery in which nothing fails by itself,
    with room for the users that it collects, publishes the retained config and leaves the engine running it. -/
theorem indeterminate_runtime_recoverable [DecidableEq V] (shoes : Shoes V) (maxKeys : Nat) {events : List (Event V)} {w : World V}
    (run : Run (step shoes) (initial V maxKeys) events w) (lost : w.state.current = none) :
    ∃ recovery, w.state.recovery = some recovery ∧
      (∀ tag : String, (w.engine.inbounds[tag]?).isSome → (w.state.recoveryLive[tag]?).isSome ∨ (recovery.inbounds[tag]?).isSome) ∧
      (w.state.closed = false →
        (∀ tag : String, (recovery.inbounds[tag]?).isSome → ∃ lease, w.recoveryReplay[tag]? = some lease ∧ lease.tag = tag ∧
          prepare w.engine tag (.preserved lease) = .ok (lease.lineage,w.engine.nextLineage)) ∧
        ∀ script : List Moment, (∀ m ∈ script, m.fault = none) → (recoveryKeys w recovery).card ≤ maxKeys →
          ∃ w', recoverIfNeeded shoes { w with script := script } = (.ok (),w') ∧ w'.state.current = some recovery ∧
            engineTable w'.engine = tableOf recovery) := by
  have steady := steady_run run
  have filing := run_filing run
  obtain ⟨recovery,retained,before⟩ := steady.lost lost
  refine ⟨recovery,retained,?_,fun opened => ⟨?_,?_⟩⟩
  · intro tag live
    obtain ⟨slot,there⟩ := Option.isSome_iff_exists.mp live
    rcases before.cover tag (slotShape slot) (by rw [shapes,there]; rfl) with ⟨retiring,entry,-⟩ | ⟨-,inbound,found,-⟩
    · exact .inl (by rw [entry]; rfl)
    · exact .inr (by rw [found]; rfl)
  · intro tag wanted
    obtain ⟨lease,held⟩ := Option.isSome_iff_exists.mp (before.retained opened tag wanted)
    obtain ⟨own,admitted⟩ := before.admits tag lease held
    exact ⟨lease,held,own,prepare_preserved admitted⟩
  · intro script calm room
    have steady' := Steady.rescript steady script
    obtain ⟨recovery',retained',before'⟩ := steady'.lost lost
    have same : recovery' = recovery := Option.some.inj (retained'.symm.trans retained)
    subst same
    have published := ensures_recover steady'
    have succeeds := ensures_recover_calm steady' retained' before' opened calm (filing.untouched ⟨rfl,rfl⟩) room
    unfold Ensures at published succeeds
    cases result : recoverIfNeeded shoes { w with script := script } with
    | mk outcome w' =>
      rw [result] at published succeeds
      rcases outcome with error | value
      · exact succeeds.elim
      · obtain ⟨done,-,-,current⟩ := published
        have current : w'.state.current = some recovery' := by
          refine current.trans ?_
          unfold publishedBefore
          rw [show ({ w with script := script } : World V).state.current = none from lost]
          exact retained
        exact ⟨w',rfl,current,(done.known recovery' current).shows⟩

/-- An engine call fails in I/O. -/
def broken : Moment := ⟨[],some (.io "connection reset"),false⟩

/-- The rules of a server are changed and the rollback cannot take the change back. -/
def failedRollback : List (Event Hysteria2) :=
  [.apply oneServer (List.replicate 32 0) false [],
    .apply conflicting (List.replicate 32 0) false (List.replicate 10 Moment.quiet ++ [broken])]

theorem failed_rollback_recovered : ∃ w recovery w', Run (step hysteria2) (initial Hysteria2 8) failedRollback w ∧
    w.state.current = none ∧ w.state.closed = false ∧ (w.engine.inbounds["in"]?).isSome ∧ (recovery.inbounds["in"]?).isSome ∧
    (recoveryKeys w recovery).card ≤ 8 ∧ recoverIfNeeded hysteria2 { w with script := [] } = (.ok (),w') ∧
    w'.state.current = some recovery ∧ engineTable w'.engine = tableOf recovery := by
  have followed : (follow (step hysteria2) (initial Hysteria2 8) failedRollback).map (fun w => (w.state.current.isNone,w.state.closed,
      (w.engine.inbounds["in"]?).isSome,w.state.recovery.map (fun recovery => ((recovery.inbounds["in"]?).isSome,
        decide ((recoveryKeys w recovery).card ≤ 8))))) = some (true,false,true,some (true,true)) := by decide +kernel
  obtain ⟨w,reached,facts⟩ := Option.map_eq_some_iff.mp followed
  simp only [Prod.mk.injEq] at facts
  obtain ⟨lost,opened,live,known⟩ := facts
  have lost : w.state.current = none := by simpa using lost
  have run := Run.of_follow reached
  obtain ⟨recovery,retained,-,recoverable⟩ := indeterminate_runtime_recoverable hysteria2 8 run lost
  rw [retained,Option.map_some,Option.some.injEq,Prod.mk.injEq,decide_eq_true_eq] at known
  obtain ⟨w',recovered,current,shows⟩ := (recoverable opened).2 [] (fun _ no => by cases no) known.2
  exact ⟨w,recovery,w',run,lost,opened,live,known.1,known.2,recovered,current,shows⟩

/-- A server is closed and its listener cannot be removed. -/
def failedClose : List (Event Hysteria2) :=
  [.apply oneServer (List.replicate 32 0) false [],.close (List.replicate 2 Moment.quiet ++ [broken])]

/-- A close that fails keeps no leases: applying is forbidden from then on, and only another close follows. -/
theorem failed_close_not_recovered : ∃ w recovery error w', Run (step hysteria2) (initial Hysteria2 8) failedClose w ∧
    w.state.current = none ∧ w.state.recovery = some recovery ∧ (recovery.inbounds["in"]?).isSome ∧ w.recoveryReplay["in"]? = none ∧
    (recoveryKeys w recovery).card ≤ 8 ∧ recoverIfNeeded hysteria2 { w with script := [] } = (.error error,w') := by
  have followed : (follow (step hysteria2) (initial Hysteria2 8) failedClose).map (fun w => (w.state.current.isNone,
      (w.recoveryReplay["in"]?).isNone,w.state.recovery.map (fun recovery => ((recovery.inbounds["in"]?).isSome,
        decide ((recoveryKeys w recovery).card ≤ 8))),(recoverIfNeeded hysteria2 { w with script := [] }).1.toOption.isNone)) =
      some (true,true,some (true,true),true) := by decide +kernel
  obtain ⟨w,reached,facts⟩ := Option.map_eq_some_iff.mp followed
  simp only [Prod.mk.injEq,Option.isNone_iff_eq_none] at facts
  obtain ⟨lost,unleased,known,failed⟩ := facts
  obtain ⟨recovery,retained,known⟩ := Option.map_eq_some_iff.mp known
  rw [Prod.mk.injEq,decide_eq_true_eq] at known
  cases result : recoverIfNeeded hysteria2 { w with script := [] } with
  | mk outcome w' =>
    rw [result] at failed
    rcases outcome with error | value
    · exact ⟨w,recovery,error,w',Run.of_follow reached,lost,retained,known.1,unleased,known.2,result⟩
    · cases failed

end NodeAgent.Recoverable
