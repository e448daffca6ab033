import NodeAgent.Apply
import NodeAgent.Differences

/-!
Both paths of an apply, as loops over the diff or over whole configs. When every step
takes effect the table shows the desired config; wherever a step fails, the transaction
can be rolled back.
-/
namespace NodeAgent.Commit
open NodeAgent.Api NodeAgent.Apply NodeAgent.Differences NodeAgent.EngineSound NodeAgent.EngineTable NodeAgent.Fallible NodeAgent.FiniteMap
  NodeAgent.Rollback NodeAgent.Runtime NodeAgent.RuntimeCalls NodeAgent.Shapes NodeAgent.Transaction
open NodeAgent.Listeners (ensures_callUpdateInbound)
variable {V : Type} {shoes : Shoes V} {old new : NormalizedConfig V} {authority : String → Option Nat} {w₀ w w' : World V}

/-! ### Partly changed tables -/

/-- One function on some keys, another one elsewhere. -/
def overlay {β : Type} (keys : List String) (g f : String → β) : String → β := fun key => if key ∈ keys then g key else f key

section
variable {β : Type} {keys : List String} {g f : String → β} {key : String}

@[simp] theorem overlay_nil : overlay [] g f = f := by
  funext key
  simp [overlay]

theorem overlay_inside (member : key ∈ keys) : overlay keys g f key = g key := if_pos member

theorem overlay_outside (absent : key ∉ keys) : overlay keys g f key = f key := if_neg absent

theorem overlay_snoc : overlay (keys ++ [key]) g f = Function.update (overlay keys g f) key (g key) := by
  funext other
  unfold overlay
  by_cases same : other = key
  · subst same; simp
  · rw [Function.update_of_ne same]
    simp [same]

end

theorem fresh_of_split {α : Type} {xs done rest : List α} {x : α} (once : xs.Nodup) (split : xs = done ++ x :: rest) : x ∉ done := by
  rw [split] at once
  intro member
  exact (List.nodup_append.mp once).2.2 x member x List.mem_cons_self rfl

section
variable (wellFormedOld : WellFormed old) (wellFormedNew : WellFormed new)

/-! ### The incremental apply -/

/-- Nothing is left of these tags. -/
def cleared (tags : List String) (t : Table V) : Table V := overlay tags (fun _ => none) t

include wellFormedOld in
theorem ensures_removals [DecidableEq V] (phase : Phase shoes old new authority w₀ (tableOf old) [] w) :
    Ensures (forEach (diffConfigs old new).removed (removeTag shoes old)) w
      (Stepped shoes old new authority w₀ (cleared (diffConfigs old new).removed (tableOf old)) []) := by
  refine Ensures.forEach (fun done w' => Phase shoes old new authority w₀ (cleared done (tableOf old)) [] w') ?_ ?_ (fun _ done => done)
  · rw [cleared,overlay_nil]
    exact phase
  intro done tag rest w' split phase
  have published := (mem_removed.mp (show tag ∈ (diffConfigs old new).removed by rw [split]; simp)).1
  obtain ⟨inbound,found⟩ := Option.isSome_iff_exists.mp published
  unfold removeTag
  rw [expectInbound_found found]
  refine Ensures.pure_bind ?_
  refine Ensures.bind (ensures_preserveFor phase.going published _) ?_ ?_
  · rintro lease w'' ⟨same,_,admits⟩
    have shown : cleared done (tableOf old) tag = some (inboundView inbound) := by
      rw [cleared,overlay_outside (fresh_of_split nodup_removed split),tableOf,found]
      rfl
    refine Ensures.mono (ensures_takeDown wellFormedOld (phase.same same) found shown List.not_mem_nil admits) ?_
    rintro (failure | value) w₃ held
    · exact held
    · show Phase shoes old new authority w₀ (cleared (done ++ [tag]) (tableOf old)) [] w₃
      rw [cleared,overlay_snoc]
      exact held
  · rintro failure w'' ⟨same,restored⟩
    exact (phase.going.same same).weaken _

/-- How the deltas of the diff are dealt with: a listener is listed for its replacement,
    or it keeps running with its new config. -/
structure Listed (old new : NormalizedConfig V) (authority : String → Option Nat) (done : List InboundDelta)
    (replacements : List (Replacement V)) (kept : List String) : Prop where
  each : ∀ r ∈ replacements, old.inbounds[r.tag]? = some r.old ∧ new.inbounds[r.tag]? = some r.new ∧
    authority r.tag = some r.replay.lineage
  once : (replacements.map Replacement.tag).Nodup
  apart : ∀ tag ∈ kept, tag ∉ replacements.map Replacement.tag
  replaced : ∀ tag ∈ replacements.map Replacement.tag, tag ∈ done.map InboundDelta.tag
  stays : ∀ tag ∈ kept, tag ∈ done.map InboundDelta.tag
  all : ∀ delta ∈ done, delta.tag ∈ replacements.map Replacement.tag ∨ (delta.tag ∈ kept ∧ delta.userModeChanged = false)

theorem listed_replace {done : List InboundDelta} {delta : InboundDelta} {replacements : List (Replacement V)} {kept : List String}
    {before after : NormalizedInbound V} {lease : InboundReplayLease} (listed : Listed old new authority done replacements kept)
    (fresh : delta.tag ∉ done.map InboundDelta.tag) (published : old.inbounds[delta.tag]? = some before)
    (desired : new.inbounds[delta.tag]? = some after) (admits : authority delta.tag = some lease.lineage) :
    Listed old new authority (done ++ [delta]) (replacements ++ [⟨delta.tag,before,after,lease⟩]) kept := by
  refine ⟨?_,?_,?_,?_,?_,?_⟩
  · intro r member
    rcases List.mem_append.mp member with earlier | last
    · exact listed.each r earlier
    · rw [List.mem_singleton.mp last]
      exact ⟨published,desired,admits⟩
  · rw [List.map_append,List.nodup_append]
    refine ⟨listed.once,by simp,?_⟩
    intro tag member other single same
    rw [List.map_singleton,List.mem_singleton] at single
    rw [same,single] at member
    exact fresh (listed.replaced _ member)
  · intro tag member
    rw [List.map_append,List.mem_append,not_or]
    refine ⟨listed.apart tag member,?_⟩
    intro single
    rw [List.map_singleton,List.mem_singleton] at single
    rw [single] at member
    exact fresh (listed.stays _ member)
  · intro tag member
    rw [List.map_append] at member ⊢
    rcases List.mem_append.mp member with earlier | last
    · exact List.mem_append_left _ (listed.replaced tag earlier)
    · exact List.mem_append_right _ last
  · intro tag member
    rw [List.map_append]
    exact List.mem_append_left _ (listed.stays tag member)
  · intro other member
    rcases List.mem_append.mp member with earlier | last
    · rcases listed.all other earlier with replaced | stays
      · rw [List.map_append]
        exact .inl (List.mem_append_left _ replaced)
      · exact .inr stays
    · rw [List.mem_singleton.mp last,List.map_append]
      exact .inl (List.mem_append_right _ (by simp))

theorem listed_keep {done : List InboundDelta} {delta : InboundDelta} {replacements : List (Replacement V)} {kept : List String}
    (listed : Listed old new authority done replacements kept) (fresh : delta.tag ∉ done.map InboundDelta.tag)
    (mode : delta.userModeChanged = false) : Listed old new authority (done ++ [delta]) replacements (kept ++ [delta.tag]) := by
  refine ⟨listed.each,listed.once,?_,?_,?_,?_⟩
  · intro tag member
    rcases List.mem_append.mp member with earlier | last
    · exact listed.apart tag earlier
    · rw [List.mem_singleton.mp last]
      exact fun replaced => fresh (listed.replaced _ replaced)
  · intro tag member
    rw [List.map_append]
    exact List.mem_append_left _ (listed.replaced tag member)
  · intro tag member
    rw [List.map_append]
    rcases List.mem_append.mp member with earlier | last
    · exact List.mem_append_left _ (listed.stays tag earlier)
    · rw [List.mem_singleton.mp last]
      exact List.mem_append_right _ (by simp)
  · intro other member
    rcases List.mem_append.mp member with earlier | last
    · rcases listed.all other earlier with replaced | ⟨stays,same⟩
      · exact .inl replaced
      · exact .inr ⟨List.mem_append_left _ stays,same⟩
    · rw [List.mem_singleton.mp last]
      exact .inr ⟨List.mem_append_right _ (by simp),mode⟩

/-- The table once these listeners have their new config. -/
def updated (old new : NormalizedConfig V) (kept : List String) (t : Table V) : Table V := overlay kept (hotView old new) t

include wellFormedNew in
theorem ensures_hotUpdate [DecidableEq V] {done : List InboundDelta} {delta : InboundDelta} {replacements : List (Replacement V)}
    {kept removed : List String} (member : delta ∈ (diffConfigs old new).changed) (fresh : delta.tag ∉ done.map InboundDelta.tag)
    (stays : delta.tag ∉ removed) (listed : Listed old new authority done replacements kept)
    (phase : Phase shoes old new authority w₀ (updated old new kept (cleared removed (tableOf old))) [] w) :
    Ensures (hotUpdate shoes old new replacements delta) w (Outcome
      (fun replacements' w' => ∃ kept', Listed old new authority (done ++ [delta]) replacements' kept' ∧
        Phase shoes old new authority w₀ (updated old new kept' (cleared removed (tableOf old))) [] w')
      (fun failure w' => Going shoes old new authority failure.restored w₀ w')) := by
  obtain ⟨before,after,published,desired,made⟩ := changed_delta member
  have known : (old.inbounds[delta.tag]?).isSome := by rw [published]; rfl
  have unkept : delta.tag ∉ kept := fun again => fresh (listed.stays _ again)
  have shown : updated old new kept (cleared removed (tableOf old)) delta.tag = some (inboundView before) := by
    rw [updated,overlay_outside unkept,cleared,overlay_outside stays,tableOf,published]
    rfl
  unfold hotUpdate
  rw [expectInbound_found published,expectInbound_found desired]
  refine Ensures.pure_bind ?_
  refine Ensures.pure_bind ?_
  split
  · refine Ensures.bind (ensures_preserveFor phase.going known _) ?_ (fun failure w' held => (phase.going.same held.1).weaken _)
    rintro lease w' ⟨same,_,admits⟩
    exact Ensures.pure ⟨kept,listed_replace listed fresh published desired admits,phase.same same⟩
  next same_mode =>
  rw [Bool.not_eq_true] at same_mode
  have mode : before.dynamicUsers = after.dynamicUsers := by
    rw [made] at same_mode
    exact mode_kept same_mode
  split
  · refine Ensures.bind (ensures_preserveFor phase.going known _) ?_ (fun failure w' held => (phase.going.same held.1).weaken _)
    rintro lease w₁ ⟨same,_,admits⟩
    have phase₁ := phase.same same
    refine Ensures.attempt_bind (Ensures.and (ensures_callUpdateInbound w₁ after)
      (keeps_updateInbound after w₁ ⟨phase₁.going.sound,rfl⟩)) ?_
    rintro (error | value) w₂ ⟨held,sound,_⟩
    · cases error with
      | reloadRequired reason =>
        exact Ensures.pure ⟨kept,listed_replace listed fresh published desired admits,phase₁.same held.1⟩
      | _ => exact Ensures.fail ((phase₁.going.same held.1).weaken _)
    · obtain ⟨quiet,lineage,shape,there,after_shapes⟩ := held
      refine Ensures.change_bind (Ensures.pure ⟨kept ++ [delta.tag],listed_keep listed fresh same_mode,?_⟩)
      rw [updated,overlay_snoc]
      rw [(wellFormedNew _ _ desired).tag] at there after_shapes
      exact ensures_takeOver wellFormedNew phase₁ published desired mode shown List.not_mem_nil admits sound quiet lineage
        ⟨shape,there,after_shapes⟩
  · next same_config =>
    rw [Bool.not_eq_true] at same_config
    refine Ensures.pure ⟨kept ++ [delta.tag],listed_keep listed fresh same_mode,?_⟩
    have nothing : hotView old new delta.tag = updated old new kept (cleared removed (tableOf old)) delta.tag := by
      rw [made] at same_config
      rw [shown,hotView_eq published desired,← config_kept same_config]
      rfl
    rw [updated,overlay_snoc,nothing]
    rw [updated,Function.update_eq_self]
    exact phase

include wellFormedNew in
theorem ensures_hotUpdates [DecidableEq V]
    (phase : Phase shoes old new authority w₀ (cleared (diffConfigs old new).removed (tableOf old)) [] w) :
    Ensures (foldEach (hotUpdate shoes old new) [] (diffConfigs old new).changed) w (Outcome
      (fun replacements w' => ∃ kept, Listed old new authority (diffConfigs old new).changed replacements kept ∧
        Phase shoes old new authority w₀ (updated old new kept (cleared (diffConfigs old new).removed (tableOf old))) [] w')
      (fun failure w' => Going shoes old new authority failure.restored w₀ w')) := by
  refine Ensures.foldEach (fun done replacements w' => ∃ kept, Listed old new authority done replacements kept ∧
    Phase shoes old new authority w₀ (updated old new kept (cleared (diffConfigs old new).removed (tableOf old))) [] w') ?_ ?_
    (fun _ _ done => done)
  · refine ⟨[],⟨?_,by simp,?_,?_,?_,?_⟩,?_⟩
    · intro r member; cases member
    · intro tag member; cases member
    · intro tag member; cases member
    · intro tag member; cases member
    · intro delta member; cases member
    · rw [updated,overlay_nil]
      exact phase
  · rintro done delta rest replacements w' split ⟨kept,listed,phase⟩
    have member : delta ∈ (diffConfigs old new).changed := by rw [split]; simp
    refine ensures_hotUpdate wellFormedNew member ?_ ?_ listed phase
    · have once : ((diffConfigs old new).changed.map InboundDelta.tag).Nodup := nodup_changed
      exact fresh_of_split once (by rw [split,List.map_append,List.map_cons])
    · intro removed
      obtain ⟨_,after,_,desired,_⟩ := changed_delta member
      rw [(mem_removed.mp removed).2] at desired
      cases desired

include wellFormedOld in
/-- The replaced listeners stop, so that their keys are free before any of them starts. -/
theorem ensures_stopAll {t : Table V} {replacements : List (Replacement V)} {changed : List InboundDelta} {kept : List String}
    (listed : Listed old new authority changed replacements kept)
    (shown : ∀ r ∈ replacements, t r.tag = some (inboundView r.old)) (phase : Phase shoes old new authority w₀ t [] w) :
    Ensures (forEach replacements (stopReplaced shoes)) w
      (Stepped shoes old new authority w₀ (cleared (replacements.map Replacement.tag) t) []) := by
  refine Ensures.forEach (fun done w' => Phase shoes old new authority w₀ (cleared (done.map Replacement.tag) t) [] w') ?_ ?_
    (fun _ done => done)
  · rw [List.map_nil,cleared,overlay_nil]
    exact phase
  · intro done r rest w' split phase
    have member : r ∈ replacements := by rw [split]; simp
    have fresh : r.tag ∉ done.map Replacement.tag :=
      fresh_of_split listed.once (by rw [split,List.map_append,List.map_cons])
    obtain ⟨published,_,admits⟩ := listed.each r member
    refine Ensures.mono (ensures_takeDown wellFormedOld phase published ?_ List.not_mem_nil admits) ?_
    · rw [cleared,overlay_outside fresh]
      exact shown r member
    · rintro (failure | value) w'' held
      · exact held
      · show Phase shoes old new authority w₀ (cleared ((done ++ [r]).map Replacement.tag) t) [] w''
        rw [List.map_append,List.map_singleton,cleared,overlay_snoc]
        exact held

/-- The table once these tags show the desired config. -/
def reached (new : NormalizedConfig V) (tags : List String) (t : Table V) : Table V := overlay tags (tableOf new) t

theorem reached_all (config : NormalizedConfig V) : reached config (config.inbounds.toList.map Prod.fst) (fun _ => none) = tableOf config := by
  funext tag
  by_cases member : tag ∈ config.inbounds.toList.map Prod.fst
  · rw [reached,overlay_inside member]
  · rw [reached,overlay_outside member,tableOf]
    cases found : config.inbounds[tag]? with
    | none => rfl
    | some inbound => exact absurd (List.mem_map.mpr ⟨(tag,inbound),(mem_toList config.inbounds).mpr found,rfl⟩) member

include wellFormedOld wellFormedNew in
theorem ensures_startAll {t : Table V} {replacements : List (Replacement V)} {changed : List InboundDelta} {kept : List String}
    (listed : Listed old new authority changed replacements kept) (free : ∀ r ∈ replacements, t r.tag = none)
    (phase : Phase shoes old new authority w₀ t [] w) : Ensures (forEach replacements (startReplacement shoes)) w
      (Stepped shoes old new authority w₀ (reached new (replacements.map Replacement.tag) t) (replacements.map Replacement.tag)) := by
  refine Ensures.forEach (fun done w' =>
    Phase shoes old new authority w₀ (reached new (done.map Replacement.tag) t) (done.map Replacement.tag) w') ?_ ?_ (fun _ done => done)
  · rw [List.map_nil,reached,overlay_nil]
    exact phase
  · intro done r rest w' split phase
    have member : r ∈ replacements := by rw [split]; simp
    have fresh : r.tag ∉ done.map Replacement.tag :=
      fresh_of_split listed.once (by rw [split,List.map_append,List.map_cons])
    obtain ⟨published,desired,_⟩ := listed.each r member
    refine Ensures.mono (ensures_bringUp wellFormedNew phase desired ?_ fresh (wellFormedOld _ _ published).tag ?_ (starting_replay r.new r.replay w')
      (keeps_addInboundWithReplay _ _)) ?_
    · rw [reached,overlay_outside fresh]
      exact free r member
    · intro inbound found
      rw [published,Option.some.injEq] at found
      exact found
    · rintro (failure | value) w'' held
      · exact held
      · show Phase shoes old new authority w₀ (reached new ((done ++ [r]).map Replacement.tag) t) ((done ++ [r]).map Replacement.tag) w''
        rw [List.map_append,List.map_singleton,reached,overlay_snoc,tableOf,desired]
        exact held

theorem removedUsers_classic [DecidableEq V] {before after : NormalizedInbound V} {tag : String} {ruleSets : Bool} (normal : Normal tag before)
    (classic : before.dynamicUsers = false) : (inboundDelta ruleSets tag before after).removedUsers = [] := by
  rw [List.eq_nil_iff_forall_not_mem]
  intro id member
  have present := (mem_removedUsers.mp member).1
  rw [normal.classic classic] at present
  cases present

theorem upsertUsers_classic [DecidableEq V] {before after : NormalizedInbound V} {tag : String} {ruleSets : Bool} (normal : Normal tag after)
    (classic : after.dynamicUsers = false) : (inboundDelta ruleSets tag before after).upsertUsers = [] := by
  rw [List.eq_nil_iff_forall_not_mem]
  intro change member
  obtain ⟨newUser,listed,_⟩ := mem_upsertUsers member
  rw [normal.classic classic] at listed
  cases listed

/-- The users of an inbound once the removed ones are gone. -/
def retired (before : NormalizedInbound V) (ids : List String) : String → Option UserSpec :=
  overlay ids (fun _ => none) (fun id => before.users[id]?)

/-- The users of an inbound once these are as desired. -/
def upserted (after : NormalizedInbound V) (ids : List String) (specs : String → Option UserSpec) : String → Option UserSpec :=
  overlay ids (fun id => after.users[id]?) specs

include wellFormedOld in
theorem ensures_retireUsers [DecidableEq V] {t : Table V} {started : List String} {tag : String} {before : NormalizedInbound V} {config : V}
    (after : NormalizedInbound V) (ruleSets : Bool) (published : old.inbounds[tag]? = some before) (unstarted : tag ∉ started)
    (phase : Phase shoes old new authority w₀ (Function.update t tag (some ⟨config,some (retired before [])⟩)) started w) :
    Ensures (forEach (inboundDelta ruleSets tag before after).removedUsers (retireUser tag before)) w
      (Stepped shoes old new authority w₀ (Function.update t tag
        (some ⟨config,some (retired before (inboundDelta ruleSets tag before after).removedUsers)⟩)) started) := by
  refine Ensures.forEach (fun done w' =>
    Phase shoes old new authority w₀ (Function.update t tag (some ⟨config,some (retired before done)⟩)) started w') phase ?_
    (fun _ done => done)
  intro done id rest w' split phase
  have member : id ∈ (inboundDelta ruleSets tag before after).removedUsers := by rw [split]; simp
  have fresh : id ∉ done := fresh_of_split nodup_removedUsers split
  obtain ⟨oldUser,listed⟩ := Option.isSome_iff_exists.mp (mem_removedUsers.mp member).1
  have registered : retired before done id = some oldUser := by
    rw [retired,overlay_outside fresh,listed]
  refine Ensures.mono (ensures_retireUser wellFormedOld phase published (Function.update_self _ _ _) registered listed unstarted) ?_
  rintro (failure | value) w'' held
  · exact held
  · show Phase shoes old new authority w₀ (Function.update t tag (some ⟨config,some (retired before (done ++ [id]))⟩)) started w''
    rw [retired,overlay_snoc]
    rw [Function.update_idem] at held
    exact held

include wellFormedOld wellFormedNew in
theorem ensures_upsertUsers [DecidableEq V] {t : Table V} {started : List String} {tag : String} {before after : NormalizedInbound V} {config : V}
    {ruleSets : Bool} (published : old.inbounds[tag]? = some before) (desired : new.inbounds[tag]? = some after)
    (mode : before.dynamicUsers = after.dynamicUsers) (unstarted : tag ∉ started)
    (phase : Phase shoes old new authority w₀ (Function.update t tag
      (some ⟨config,some (retired before (inboundDelta ruleSets tag before after).removedUsers)⟩)) started w) :
    Ensures (forEach (inboundDelta ruleSets tag before after).upsertUsers (upsertUser shoes tag before after)) w
      (Stepped shoes old new authority w₀ (Function.update t tag (some ⟨config,some
        (upserted after ((inboundDelta ruleSets tag before after).upsertUsers.map UserDelta.id)
          (retired before (inboundDelta ruleSets tag before after).removedUsers))⟩)) started) := by
  refine Ensures.forEach (fun done w' => Phase shoes old new authority w₀ (Function.update t tag (some ⟨config,some
    (upserted after (done.map UserDelta.id) (retired before (inboundDelta ruleSets tag before after).removedUsers))⟩)) started w') ?_ ?_
    (fun _ done => done)
  · rw [List.map_nil,upserted,overlay_nil]
    exact phase
  intro done change rest w' split phase
  have member : change ∈ (inboundDelta ruleSets tag before after).upsertUsers := by rw [split]; simp
  have once : ((inboundDelta ruleSets tag before after).upsertUsers.map UserDelta.id).Nodup := nodup_upsertUsers
  have fresh : change.id ∉ done.map UserDelta.id := fresh_of_split once (by rw [split,List.map_append,List.map_cons])
  obtain ⟨newUser,listed,kind⟩ := mem_upsertUsers member
  have kept : change.id ∉ (inboundDelta ruleSets tag before after).removedUsers := by
    intro removed
    rw [(mem_removedUsers.mp removed).2] at listed
    cases listed
  have registered : upserted after (done.map UserDelta.id) (retired before (inboundDelta ruleSets tag before after).removedUsers) change.id =
      before.users[change.id]? := by
    rw [upserted,overlay_outside fresh,retired,overlay_outside kept]
  have upserts : Upserts before after
      (upserted after (done.map UserDelta.id) (retired before (inboundDelta ruleSets tag before after).removedUsers)) change newUser := by
    refine ⟨listed,?_,?_⟩
    · intro added
      rw [registered]
      rcases kind with ⟨_,absent⟩ | ⟨no,_⟩
      · exact absent
      · rw [added] at no; cases no
    · intro replaced
      rw [registered]
      rcases kind with ⟨no,_⟩ | ⟨_,previous,found⟩
      · rw [replaced] at no; cases no
      · exact ⟨previous,found,found⟩
  refine Ensures.mono (ensures_upsertUser wellFormedOld wellFormedNew phase published desired mode (Function.update_self _ _ _) upserts
    unstarted) ?_
  rintro (failure | value) w'' held
  · exact held
  · show Phase shoes old new authority w₀ (Function.update t tag (some ⟨config,some (upserted after ((done ++ [change]).map UserDelta.id)
      (retired before (inboundDelta ruleSets tag before after).removedUsers))⟩)) started w''
    rw [List.map_append,List.map_singleton,upserted,overlay_snoc,listed]
    rw [Function.update_idem] at held
    exact held

/-- The two loops over the users leave the users of the desired inbound. -/
theorem users_reached [DecidableEq V] {before after : NormalizedInbound V} {tag : String} {ruleSets : Bool} :
    upserted after ((inboundDelta ruleSets tag before after).upsertUsers.map UserDelta.id)
      (retired before (inboundDelta ruleSets tag before after).removedUsers) = fun id => after.users[id]? := by
  funext id
  by_cases touched : id ∈ (inboundDelta ruleSets tag before after).upsertUsers.map UserDelta.id
  · rw [upserted,overlay_inside touched]
  rw [upserted,overlay_outside touched]
  by_cases removed : id ∈ (inboundDelta ruleSets tag before after).removedUsers
  · rw [retired,overlay_inside removed,(mem_removedUsers.mp removed).2]
  rw [retired,overlay_outside removed]
  cases listed : after.users[id]? with
  | some newUser => exact untouched_user listed touched
  | none =>
    cases found : before.users[id]? with
    | none => rfl
    | some previous => exact absurd (mem_removedUsers.mpr ⟨by rw [found]; rfl,listed⟩) removed

include wellFormedOld wellFormedNew in
/-- A listener that stayed gets the users of the desired inbound. -/
theorem ensures_reconcile [DecidableEq V] {t : Table V} {started replaced : List String} {delta : InboundDelta}
    (member : delta ∈ (diffConfigs old new).changed) (stays : delta.tag ∉ replaced) (mode : delta.userModeChanged = false)
    (shown : t delta.tag = hotView old new delta.tag) (unstarted : delta.tag ∉ started)
    (phase : Phase shoes old new authority w₀ t started w) : Ensures (reconcileUsers shoes old new replaced delta) w
      (Stepped shoes old new authority w₀ (Function.update t delta.tag (tableOf new delta.tag)) started) := by
  obtain ⟨before,after,published,desired,made⟩ := changed_delta member
  have same_mode : before.dynamicUsers = after.dynamicUsers := by
    rw [made] at mode
    exact mode_kept mode
  have normal := wellFormedOld _ _ published
  have normal' := wellFormedNew _ _ desired
  have goal : tableOf new delta.tag = some (inboundView after) := by
    rw [tableOf,desired]
    rfl
  rw [hotView_eq published desired] at shown
  unfold reconcileUsers
  rw [if_neg stays,expectInbound_found published,expectInbound_found desired,goal]
  refine Ensures.pure_bind ?_
  refine Ensures.pure_bind ?_
  cases dynamic : before.dynamicUsers with
  | false =>
    -- Credentials that come from the config are not for the runtime to change.
    have view : (⟨after.compiled.spec.config,(inboundView before).users⟩ : View V) = inboundView after := by
      unfold inboundView
      rw [← same_mode,dynamic]
      rfl
    rw [made,removedUsers_classic normal dynamic,upsertUsers_classic normal' (same_mode ▸ dynamic)]
    refine Ensures.pure_bind (Ensures.pure ?_)
    show Phase shoes old new authority w₀ (Function.update t delta.tag (some (inboundView after))) started w
    rw [← view,← shown,Function.update_eq_self]
    exact phase
  | true =>
    have start : Function.update t delta.tag (some ⟨after.compiled.spec.config,some (retired before [])⟩) = t := by
      have users : (inboundView before).users = some (retired before []) := by
        rw [retired,overlay_nil,inboundView,dynamic]
        rfl
      rw [← users,← shown,Function.update_eq_self]
    rw [← start] at phase
    have removals := ensures_retireUsers wellFormedOld after (old.ruleSetDigest ≠ new.ruleSetDigest) published unstarted phase
    rw [← made] at removals
    refine Ensures.bind removals ?_ (fun _ _ failed => failed)
    intro _ w₁ phase₁
    change Phase shoes old new authority w₀ _ started w₁ at phase₁
    rw [made] at phase₁
    have upserts := ensures_upsertUsers wellFormedOld wellFormedNew published desired same_mode unstarted phase₁
    rw [users_reached,← made] at upserts
    refine Ensures.mono upserts ?_
    rintro (failure | value) w₂ held
    · exact held
    · have view : (⟨after.compiled.spec.config,some (fun id => after.users[id]?)⟩ : View V) = inboundView after := by
        unfold inboundView
        rw [← same_mode,dynamic]
        rfl
      rw [view] at held
      exact held

/-- The tags of these deltas that keep their listener. -/
def staying (deltas : List InboundDelta) (replaced : List String) : List String :=
  (deltas.map InboundDelta.tag).filter (· ∉ replaced)

theorem staying_replaced {done : List InboundDelta} {delta : InboundDelta} {replaced : List String} (gone : delta.tag ∈ replaced) :
    staying (done ++ [delta]) replaced = staying done replaced := by
  simp [staying,gone]

theorem staying_kept {done : List InboundDelta} {delta : InboundDelta} {replaced : List String} (stays : delta.tag ∉ replaced) :
    staying (done ++ [delta]) replaced = staying done replaced ++ [delta.tag] := by
  simp [staying,stays]

include wellFormedOld wellFormedNew in
theorem ensures_reconcileAll [DecidableEq V] {t : Table V} {replacements : List (Replacement V)} {kept : List String}
    (listed : Listed old new authority (diffConfigs old new).changed replacements kept)
    (shown : ∀ tag ∈ kept, t tag = hotView old new tag)
    (phase : Phase shoes old new authority w₀ t (replacements.map Replacement.tag) w) :
    Ensures (forEach (diffConfigs old new).changed (reconcileUsers shoes old new (replacements.map Replacement.tag))) w
      (Stepped shoes old new authority w₀ (reached new (staying (diffConfigs old new).changed (replacements.map Replacement.tag)) t)
        (replacements.map Replacement.tag)) := by
  refine Ensures.forEach (fun done w' => Phase shoes old new authority w₀
    (reached new (staying done (replacements.map Replacement.tag)) t) (replacements.map Replacement.tag) w') ?_ ?_ (fun _ done => done)
  · rw [staying,List.map_nil,List.filter_nil,reached,overlay_nil]
    exact phase
  intro done delta rest w' split phase
  have member : delta ∈ (diffConfigs old new).changed := by rw [split]; simp
  have once : ((diffConfigs old new).changed.map InboundDelta.tag).Nodup := nodup_changed
  have fresh : delta.tag ∉ done.map InboundDelta.tag := fresh_of_split once (by rw [split,List.map_append,List.map_cons])
  by_cases replaced : delta.tag ∈ replacements.map Replacement.tag
  · have skipped : reconcileUsers shoes old new (replacements.map Replacement.tag) delta = pure () := by
      unfold reconcileUsers
      exact if_pos replaced
    rw [skipped]
    refine Ensures.pure ?_
    show Phase shoes old new authority w₀ (reached new (staying (done ++ [delta]) (replacements.map Replacement.tag)) t) _ w'
    rw [staying_replaced replaced]
    exact phase
  · have stays : delta.tag ∈ kept ∧ delta.userModeChanged = false := (listed.all delta member).resolve_left replaced
    have shown' : reached new (staying done (replacements.map Replacement.tag)) t delta.tag = hotView old new delta.tag := by
      rw [reached,overlay_outside,shown delta.tag stays.1]
      intro again
      exact fresh (List.mem_filter.mp again).1
    refine Ensures.mono (ensures_reconcile wellFormedOld wellFormedNew member replaced stays.2 shown' replaced phase) ?_
    rintro (failure | value) w'' held
    · exact held
    · show Phase shoes old new authority w₀ (reached new (staying (done ++ [delta]) (replacements.map Replacement.tag)) t) _ w''
      rw [staying_kept replaced,reached,overlay_snoc]
      exact held

include wellFormedNew in
theorem ensures_additions [DecidableEq V] {t : Table V} {started : List String} (free : ∀ tag ∈ (diffConfigs old new).added, t tag = none)
    (unstarted : ∀ tag ∈ started, (old.inbounds[tag]?).isSome) (phase : Phase shoes old new authority w₀ t started w) :
    Ensures (forEach (diffConfigs old new).added (startAdded shoes new)) w
      (Stepped shoes old new authority w₀ (reached new (diffConfigs old new).added t) (started ++ (diffConfigs old new).added)) := by
  refine Ensures.forEach (fun done w' => Phase shoes old new authority w₀ (reached new done t) (started ++ done) w') ?_ ?_
    (fun _ done => done)
  · rw [reached,overlay_nil,List.append_nil]
    exact phase
  intro done tag rest w' split phase
  have member : tag ∈ (diffConfigs old new).added := by rw [split]; simp
  have fresh : tag ∉ done := fresh_of_split nodup_added split
  obtain ⟨present,absent⟩ := mem_added.mp member
  obtain ⟨inbound,desired⟩ := Option.isSome_iff_exists.mp present
  unfold startAdded
  rw [expectInbound_found desired]
  refine Ensures.pure_bind ?_
  refine Ensures.mono (ensures_bringUp wellFormedNew phase desired ?_ ?_ (wellFormedNew tag inbound desired).tag ?_ (starting_fresh ?_ w')
    (keeps_addInbound _)) ?_
  · rw [reached,overlay_outside fresh]
    exact free tag member
  · rw [List.mem_append,not_or]
    refine ⟨fun again => ?_,fresh⟩
    have known := unstarted tag again
    rw [absent] at known
    cases known
  · intro published found
    rw [absent] at found
    cases found
  · rw [(wellFormedNew tag inbound desired).tag]
    exact absent
  · rintro (failure | value) w'' held
    · exact held
    · show Phase shoes old new authority w₀ (reached new (done ++ [tag]) t) (started ++ (done ++ [tag])) w''
      rw [reached,overlay_snoc,tableOf,desired,← List.append_assoc]
      exact held

/-! ### The flush -/

theorem ensures_takeUserTraffic (w : World V) (tag id : String) : Ensures (callTakeUserTraffic tag id) w (fun _ w' => Same w w') := by
  have found := same_seen w
  refine Ensures.mono (ensures_call w) ?_
  rintro (error | receipt) w' held
  · rw [held.1]
    exact found
  · obtain ⟨e',taken,_,rfl⟩ := held
    obtain ⟨sameShapes,sameLineages⟩ := takeUserTraffic_shapes taken
    exact ⟨⟨found.state,found.closing,found.recoveryReplay,found.journal,found.calm⟩,sameShapes.trans found.shapes,
      sameLineages.trans found.lineages⟩

/-- An operation that changes no shape and keeps its promise to have changed nothing. -/
def Harmless (w : World V) : Except StepFailure Unit → World V → Prop :=
  Outcome (fun _ w' => Same w w') (fun failure w' => Same w w' ∧ failure.restored = true)

theorem ensures_flushUser (w : World V) (tag : String) (before : NormalizedInbound V) (id : String) :
    Ensures (flushUser tag before id) w (Harmless w) := by
  refine Ensures.bind (Ensures.orFail
    (R := Outcome (fun _ w' => Same w w') (fun (failure : StepFailure) w' => Same w w' ∧ failure.restored = true))
    (ensures_reserveTraffic w before id) (fun _ _ same => same) (fun _ _ same => ⟨same,rfl⟩)) ?_ (fun _ _ held => held)
  intro reservation w₁ same
  change Same w w₁ at same
  refine Ensures.attempt_bind (ensures_takeUserTraffic w₁ tag id) ?_
  rintro (error | receipt) w₂ same₁
  · refine Ensures.bind (ensures_dropReservation w₂ reservation) ?_ (fun _ _ no => no.elim)
    intro _ w₃ same₂
    exact Ensures.fail ⟨(same.trans same₁).trans same₂,rfl⟩
  · refine Ensures.mono (ensures_queueTraffic w₂ reservation before receipt) ?_
    rintro (failure | value) w₃ same₂
    · exact same₂.elim
    · exact (same.trans same₁).trans same₂

/-- A loop of harmless steps is harmless. -/
theorem ensures_harmless {α : Type} {xs : List α} {body : α → Op (World V) StepFailure Unit} (w : World V)
    (step : ∀ x w', Ensures (body x) w' (Harmless w')) : Ensures (forEach xs body) w (Harmless w) := by
  refine Ensures.forEach (fun _ w' => Same w w') (Same.refl w) ?_ (fun _ same => same)
  intro done x rest w' _ same
  refine Ensures.mono (step x w') ?_
  rintro (failure | value) w'' held
  · exact ⟨same.trans held.1,held.2⟩
  · exact same.trans held

theorem ensures_flush (w : World V) (replaced : List String) : Ensures (flushChangedTrafficMetadata old new replaced) w (Harmless w) := by
  refine ensures_harmless w ?_
  intro entry w'
  unfold flushInbound
  split
  · exact Ensures.pure (Same.refl w')
  split
  · exact Ensures.pure (Same.refl w')
  split
  · exact Ensures.pure (Same.refl w')
  refine Ensures.attempt_bind (ensures_ask w') ?_
  rintro (error | users) w'' ⟨same,_⟩
  · cases error with
    | unsupported msg => exact Ensures.pure same
    | _ => exact Ensures.fail ⟨same,rfl⟩
  · refine Ensures.mono (ensures_harmless w'' (fun id w₃ => ensures_flushUser w₃ entry.1 entry.2 id)) ?_
    rintro (failure | value) w₃ held
    · exact ⟨same.trans held.1,held.2⟩
    · exact same.trans held

/-! ### Both paths -/

/-- After all loops the table shows the desired config. -/
theorem table_reached [DecidableEq V] {replacements : List (Replacement V)} {kept : List String}
    (listed : Listed old new authority (diffConfigs old new).changed replacements kept) :
    reached new (diffConfigs old new).added (reached new (staying (diffConfigs old new).changed (replacements.map Replacement.tag))
      (reached new (replacements.map Replacement.tag) (cleared (replacements.map Replacement.tag)
        (updated old new kept (cleared (diffConfigs old new).removed (tableOf old)))))) = tableOf new := by
  funext tag
  by_cases added : tag ∈ (diffConfigs old new).added
  · rw [reached,overlay_inside added]
  rw [reached,overlay_outside added]
  by_cases stays : tag ∈ staying (diffConfigs old new).changed (replacements.map Replacement.tag)
  · rw [reached,overlay_inside stays]
  rw [reached,overlay_outside stays]
  by_cases replaced : tag ∈ replacements.map Replacement.tag
  · rw [reached,overlay_inside replaced]
  rw [reached,overlay_outside replaced,cleared,overlay_outside replaced]
  have untouched : tag ∉ (diffConfigs old new).changed.map InboundDelta.tag := by
    intro changed
    exact stays (List.mem_filter.mpr ⟨changed,by simpa using replaced⟩)
  rw [updated,overlay_outside (fun again => untouched (listed.stays tag again))]
  by_cases removed : tag ∈ (diffConfigs old new).removed
  · rw [cleared,overlay_inside removed,tableOf,(mem_removed.mp removed).2]
    rfl
  rw [cleared,overlay_outside removed]
  unfold tableOf
  cases published : old.inbounds[tag]? with
  | none =>
    cases desired : new.inbounds[tag]? with
    | none => rfl
    | some after => exact absurd (mem_added.mpr ⟨by rw [desired]; rfl,published⟩) added
  | some before =>
    cases desired : new.inbounds[tag]? with
    | none => exact absurd (mem_removed.mpr ⟨by rw [published]; rfl,desired⟩) removed
    | some after =>
      rw [Option.map_some,Option.map_some,untouched_inbound published desired untouched]

/-- An apply commits the desired config, or can be rolled back. -/
def Applied (shoes : Shoes V) (old new : NormalizedConfig V) (authority : String → Option Nat) (w₀ : World V) :
    Except StepFailure Unit → World V → Prop :=
  Outcome (fun _ w' => ∃ started, Phase shoes old new authority w₀ (tableOf new) started w')
    (fun failure w' => Going shoes old new authority failure.restored w₀ w')

include wellFormedOld wellFormedNew in
theorem ensures_incremental [DecidableEq V] (phase : Phase shoes old new authority w₀ (tableOf old) [] w) :
    Ensures (executeApply shoes old new false) w (Applied shoes old new authority w₀) := by
  unfold executeApply
  rw [if_neg (by simp)]
  refine Ensures.bind (ensures_removals wellFormedOld phase) ?_ (fun _ _ failed => failed)
  intro _ w₁ phase₁
  refine Ensures.bind (ensures_hotUpdates wellFormedNew phase₁) ?_ (fun _ _ failed => failed)
  rintro replacements w₂ ⟨kept,listed,phase₂⟩
  have running : ∀ r ∈ replacements,
      updated old new kept (cleared (diffConfigs old new).removed (tableOf old)) r.tag = some (inboundView r.old) := by
    intro r member
    obtain ⟨published,desired,_⟩ := listed.each r member
    have unkept : r.tag ∉ kept := fun again => listed.apart _ again (List.mem_map_of_mem member)
    have remains : r.tag ∉ (diffConfigs old new).removed := by
      intro removed
      rw [(mem_removed.mp removed).2] at desired
      cases desired
    rw [updated,overlay_outside unkept,cleared,overlay_outside remains,tableOf,published]
    rfl
  refine Ensures.bind (ensures_stopAll wellFormedOld listed running phase₂) ?_ (fun _ _ failed => failed)
  intro _ w₃ phase₃
  have free : ∀ r ∈ replacements, cleared (replacements.map Replacement.tag)
      (updated old new kept (cleared (diffConfigs old new).removed (tableOf old))) r.tag = none := by
    intro r member
    rw [cleared,overlay_inside (List.mem_map_of_mem member)]
  refine Ensures.bind (ensures_startAll wellFormedOld wellFormedNew listed free phase₃) ?_ (fun _ _ failed => failed)
  intro _ w₄ phase₄
  have hot : ∀ tag ∈ kept, reached new (replacements.map Replacement.tag) (cleared (replacements.map Replacement.tag)
      (updated old new kept (cleared (diffConfigs old new).removed (tableOf old)))) tag = hotView old new tag := by
    intro tag member
    rw [reached,overlay_outside (listed.apart tag member),cleared,overlay_outside (listed.apart tag member),updated,overlay_inside member]
  refine Ensures.bind (ensures_reconcileAll wellFormedOld wellFormedNew listed hot phase₄) ?_ (fun _ _ failed => failed)
  intro _ w₅ phase₅
  refine Ensures.bind (ensures_additions wellFormedNew ?_ ?_ phase₅) ?_ (fun _ _ failed => failed)
  · intro tag member
    obtain ⟨_,absent⟩ := mem_added.mp member
    have unchanged : tag ∉ (diffConfigs old new).changed.map InboundDelta.tag := by
      intro again
      obtain ⟨delta,changed,rfl⟩ := List.mem_map.mp again
      obtain ⟨_,_,published,_⟩ := changed_delta changed
      rw [absent] at published
      cases published
    have unremoved : tag ∉ (diffConfigs old new).removed := by
      intro removed
      have known := (mem_removed.mp removed).1
      rw [absent] at known
      cases known
    have unstaying : tag ∉ staying (diffConfigs old new).changed (replacements.map Replacement.tag) :=
      fun again => unchanged (List.mem_filter.mp again).1
    rw [reached,overlay_outside unstaying,reached,
      overlay_outside (fun again => unchanged (listed.replaced _ again)),cleared,
      overlay_outside (fun again => unchanged (listed.replaced _ again)),updated,
      overlay_outside (fun again => unchanged (listed.stays _ again)),cleared,overlay_outside unremoved,tableOf,absent]
    rfl
  · intro tag member
    obtain ⟨r,again,rfl⟩ := List.mem_map.mp member
    rw [(listed.each r again).1]
    rfl
  intro _ w₆ phase₆
  change Phase shoes old new authority w₀ _ _ w₆ at phase₆
  rw [table_reached listed] at phase₆
  refine Ensures.mono (ensures_flush w₆ _) ?_
  rintro (failure | value) w₇ held
  · exact (phase₆.going.same held.1).weaken _
  · exact ⟨_,phase₆.same held⟩

/-- The leases of a full reload are on the namespaces of the stopped listeners. -/
def Leased (authority : String → Option Nat) (tags : List String) (replays : Map String InboundReplayLease) : Prop :=
  (∀ (tag : String) (lease : InboundReplayLease), replays[tag]? = some lease → authority tag = some lease.lineage) ∧
    ∀ tag : String, (replays[tag]?).isSome ↔ tag ∈ tags

include wellFormedOld in
theorem ensures_stopForReload (phase : Phase shoes old new authority w₀ (tableOf old) [] w) :
    Ensures (foldEach (stopForReload shoes) ∅ old.inbounds.toList) w (Outcome
      (fun replays w' => Leased authority (old.inbounds.toList.map Prod.fst) replays ∧
        Phase shoes old new authority w₀ (cleared (old.inbounds.toList.map Prod.fst) (tableOf old)) [] w')
      (fun failure w' => Going shoes old new authority failure.restored w₀ w')) := by
  refine Ensures.foldEach (fun done replays w' => Leased authority (done.map Prod.fst) replays ∧
    Phase shoes old new authority w₀ (cleared (done.map Prod.fst) (tableOf old)) [] w') ?_ ?_ (fun _ _ done => done)
  · refine ⟨⟨by simp,by simp⟩,?_⟩
    rw [List.map_nil,cleared,overlay_nil]
    exact phase
  rintro done ⟨tag,inbound⟩ rest replays w₁ split ⟨leased,phase₁⟩
  have found : old.inbounds[tag]? = some inbound := (mem_toList old.inbounds).mp (by rw [split]; simp)
  have fresh : tag ∉ done.map Prod.fst :=
    fresh_of_split (nodup_toList_keys old.inbounds) (by rw [split,List.map_append,List.map_cons])
  refine Ensures.bind (ensures_preserveFor phase₁.going (show (old.inbounds[tag]?).isSome by rw [found]; rfl) _) ?_
    (fun failure w₂ held => (phase₁.going.same held.1).weaken _)
  rintro lease w₂ ⟨same,_,admits⟩
  have shown : cleared (done.map Prod.fst) (tableOf old) tag = some (inboundView inbound) := by
    rw [cleared,overlay_outside fresh,tableOf,found]
    rfl
  refine Ensures.bind (ensures_takeDown wellFormedOld (phase₁.same same) found shown List.not_mem_nil admits) ?_ (fun _ _ failed => failed)
  intro _ w₃ phase₃
  refine Ensures.pure ⟨⟨?_,?_⟩,?_⟩
  · intro other held known
    rw [lookup_insert] at known
    split at known
    · next same =>
      cases known
      rw [← same]
      exact admits
    · exact leased.1 other held known
  · intro other
    rw [lookup_insert,List.map_append,List.mem_append,List.map_singleton,List.mem_singleton,← leased.2 other]
    by_cases same : tag = other
    · simp [same]
    · simp [same,Ne.symm same]
  · rw [List.map_append,List.map_singleton,cleared,overlay_snoc]
    exact phase₃

include wellFormedOld wellFormedNew in
theorem ensures_reload [DecidableEq V] (phase : Phase shoes old new authority w₀ (tableOf old) [] w) :
    Ensures (executeApply shoes old new true) w (Applied shoes old new authority w₀) := by
  unfold executeApply
  rw [if_pos rfl]
  refine Ensures.bind (ensures_stopForReload wellFormedOld phase) ?_ (fun _ _ failed => failed)
  rintro replays w₁ ⟨leased,phase₁⟩
  have empty : cleared (old.inbounds.toList.map Prod.fst) (tableOf old) = fun _ => none := by
    funext tag
    by_cases member : tag ∈ old.inbounds.toList.map Prod.fst
    · rw [cleared,overlay_inside member]
    · rw [cleared,overlay_outside member,tableOf]
      cases found : old.inbounds[tag]? with
      | none => rfl
      | some inbound => exact absurd (List.mem_map.mpr ⟨(tag,inbound),(mem_toList old.inbounds).mpr found,rfl⟩) member
  rw [empty] at phase₁
  refine Ensures.mono (Q := Stepped shoes old new authority w₀ (reached new (new.inbounds.toList.map Prod.fst) (fun _ => none))
    (new.inbounds.toList.map Prod.fst)) ?_ ?_
  · refine Ensures.forEach (fun done w' => Phase shoes old new authority w₀ (reached new (done.map Prod.fst) (fun _ => none))
      (done.map Prod.fst) w') ?_ ?_ (fun _ done => done)
    · rw [List.map_nil,reached,overlay_nil]
      exact phase₁
    rintro done ⟨tag,inbound⟩ rest w₂ split phase₂
    have desired : new.inbounds[tag]? = some inbound := (mem_toList new.inbounds).mp (by rw [split]; simp)
    have fresh : tag ∉ done.map Prod.fst :=
      fresh_of_split (nodup_toList_keys new.inbounds) (by rw [split,List.map_append,List.map_cons])
    have starting : Starting old (addCandidate shoes replays (tag,inbound)) w₂ inbound := by
      unfold addCandidate
      split
      · exact starting_replay inbound _ w₂
      · next unleased =>
        refine starting_fresh ?_ w₂
        rw [(wellFormedNew tag inbound desired).tag]
        by_contra present
        obtain ⟨published,found⟩ := Option.ne_none_iff_exists'.mp present
        have member : tag ∈ old.inbounds.toList.map Prod.fst :=
          List.mem_map.mpr ⟨(tag,published),(mem_toList old.inbounds).mpr found,rfl⟩
        have known := (leased.2 tag).mpr member
        rw [unleased] at known
        cases known
    have keeps : Keeps (Sane shoes w₂.journal) (addCandidate shoes replays (tag,inbound)) := by
      unfold addCandidate
      split
      · exact keeps_addInboundWithReplay _ _
      · exact keeps_addInbound _
    refine Ensures.mono (ensures_bringUp wellFormedNew phase₂ desired ?_ fresh ?_ ?_ starting keeps) ?_
    · rw [reached,overlay_outside fresh]
    · unfold uncommittedAccountingOwner
      split
      · next published found => exact (wellFormedOld tag published found).tag
      · exact (wellFormedNew tag inbound desired).tag
    · intro published found
      unfold uncommittedAccountingOwner
      rw [found]
    · rintro (failure | value) w₃ held
      · exact held
      · show Phase shoes old new authority w₀ (reached new ((done ++ [(tag,inbound)]).map Prod.fst) (fun _ => none))
          ((done ++ [(tag,inbound)]).map Prod.fst) w₃
        rw [List.map_append,List.map_singleton,reached,overlay_snoc,tableOf,desired]
        exact held
  · rintro (failure | value) w₂ held
    · exact held
    · rw [reached_all] at held
      exact ⟨_,held⟩

include wellFormedOld wellFormedNew in
/-- Whatever fails, an apply commits the desired config or can be rolled back. -/
theorem ensures_executeApply [DecidableEq V] (phase : Phase shoes old new authority w₀ (tableOf old) [] w) (forceConfigReload : Bool) :
    Ensures (executeApply shoes old new forceConfigReload) w (Applied shoes old new authority w₀) := by
  cases forceConfigReload with
  | false => exact ensures_incremental wellFormedOld wellFormedNew phase
  | true => exact ensures_reload wellFormedOld wellFormedNew phase

end

end NodeAgent.Commit
