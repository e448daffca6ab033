import NodeAgent.Rollback

/-!
What the diff of two configs says. Its lists name every tag and every user once, and
whatever they leave out is the same in both configs.
-/
namespace NodeAgent.Differences
open NodeAgent.Api NodeAgent.FiniteMap NodeAgent.Rollback NodeAgent.Runtime
variable {V : Type} [DecidableEq V] {old new : NormalizedConfig V} {tag id : String} {before after : NormalizedInbound V}

theorem sameUser_iff {left right : UserSpec} : sameUser left right = true ↔ left = right := by
  unfold sameUser
  simp only [Bool.and_eq_true,decide_eq_true_eq]
  constructor
  · rintro ⟨⟨⟨⟨⟨⟨_,_⟩,_⟩,_⟩,_⟩,_⟩,_⟩
    cases left
    cases right
    simp_all
  · rintro rfl
    simp

/-! ### Tags -/

theorem mem_removed : tag ∈ (diffConfigs old new).removed ↔ (old.inbounds[tag]?).isSome ∧ new.inbounds[tag]? = none := by
  unfold diffConfigs
  rw [List.mem_filter,Std.ExtTreeMap.mem_keys,Std.ExtTreeMap.mem_iff_isSome_getElem?]
  simp

theorem mem_added : tag ∈ (diffConfigs old new).added ↔ (new.inbounds[tag]?).isSome ∧ old.inbounds[tag]? = none := by
  unfold diffConfigs
  rw [List.mem_filter,Std.ExtTreeMap.mem_keys,Std.ExtTreeMap.mem_iff_isSome_getElem?]
  simp

theorem nodup_removed : (diffConfigs old new).removed.Nodup := Std.ExtTreeMap.nodup_keys.filter _

theorem nodup_added : (diffConfigs old new).added.Nodup := Std.ExtTreeMap.nodup_keys.filter _

/-- A delta is about a tag of both configs. -/
theorem changed_delta {delta : InboundDelta} (member : delta ∈ (diffConfigs old new).changed) : ∃ before after,
    old.inbounds[delta.tag]? = some before ∧ new.inbounds[delta.tag]? = some after ∧
      delta = inboundDelta (old.ruleSetDigest ≠ new.ruleSetDigest) delta.tag before after := by
  unfold diffConfigs at member
  obtain ⟨⟨tag,before⟩,entry,made⟩ := List.mem_filterMap.mp member
  unfold changedDelta at made
  split at made
  · cases made
  next after desired =>
  dsimp only at made
  split at made
  · cases made
    exact ⟨before,after,(mem_toList old.inbounds).mp entry,desired,rfl⟩
  · cases made

/-- A list of entries whose images keep their key has each key once. -/
theorem nodup_filterMap {α β : Type} {f : String × α → Option β} {key : β → String} (keeps : ∀ entry made, f entry = some made → key made = entry.1)
    {entries : List (String × α)} (once : (entries.map Prod.fst).Nodup) : ((entries.filterMap f).map key).Nodup := by
  have sub : List.Sublist ((entries.filterMap f).map key) (entries.map Prod.fst) := by
    clear once
    induction entries with
    | nil => exact List.Sublist.slnil
    | cons entry rest ih =>
      cases made : f entry with
      | none => rw [List.filterMap_cons_none made]; exact List.Sublist.cons _ ih
      | some value =>
        rw [List.filterMap_cons_some made,List.map_cons,List.map_cons,keeps entry value made]
        exact List.Sublist.cons_cons _ ih
  exact sub.nodup once

theorem nodup_toList_keys {β : Type} (m : Map String β) : (m.toList.map Prod.fst).Nodup := by
  rw [Std.ExtTreeMap.map_fst_toList_eq_keys]
  exact Std.ExtTreeMap.nodup_keys

theorem nodup_changed : ((diffConfigs old new).changed.map InboundDelta.tag).Nodup := by
  refine nodup_filterMap ?_ (nodup_toList_keys old.inbounds)
  intro entry delta made
  unfold changedDelta at made
  split at made
  · cases made
  dsimp only at made
  split at made
  · cases made
    rfl
  · cases made

/-! ### Users -/

theorem mem_removedUsers {ruleSets : Bool} :
    id ∈ (inboundDelta ruleSets tag before after).removedUsers ↔ (before.users[id]?).isSome ∧ after.users[id]? = none := by
  unfold inboundDelta
  rw [List.mem_filter,Std.ExtTreeMap.mem_keys,Std.ExtTreeMap.mem_iff_isSome_getElem?]
  simp

theorem nodup_removedUsers {ruleSets : Bool} : (inboundDelta ruleSets tag before after).removedUsers.Nodup :=
  Std.ExtTreeMap.nodup_keys.filter _

/-- What an upsert of the diff is about. -/
theorem mem_upsertUsers {ruleSets : Bool} {change : UserDelta} (member : change ∈ (inboundDelta ruleSets tag before after).upsertUsers) :
    ∃ newUser, after.users[change.id]? = some newUser ∧ ((change.added = true ∧ before.users[change.id]? = none) ∨
      (change.added = false ∧ ∃ previous, before.users[change.id]? = some previous)) := by
  unfold inboundDelta at member
  obtain ⟨⟨id,newUser⟩,entry,made⟩ := List.mem_filterMap.mp member
  unfold userDelta at made
  have listed := (mem_toList after.users).mp entry
  split at made
  · next absent =>
    cases made
    exact ⟨newUser,listed,.inl ⟨rfl,absent⟩⟩
  · next previous found =>
    split at made
    · cases made
    · cases made
      exact ⟨newUser,listed,.inr ⟨rfl,previous,found⟩⟩

theorem nodup_upsertUsers {ruleSets : Bool} : ((inboundDelta ruleSets tag before after).upsertUsers.map UserDelta.id).Nodup := by
  refine nodup_filterMap ?_ (nodup_toList_keys after.users)
  intro entry change made
  unfold userDelta at made
  split at made
  · cases made
    rfl
  · split at made
    · cases made
    · cases made
      rfl

/-- A desired user that the diff does not touch was there before. -/
theorem untouched_user {ruleSets : Bool} {newUser : UserSpec} (listed : after.users[id]? = some newUser)
    (untouched : id ∉ (inboundDelta ruleSets tag before after).upsertUsers.map UserDelta.id) : before.users[id]? = some newUser := by
  by_contra differs
  apply untouched
  have touched : ∃ change, userDelta before.users (id,newUser) = some change ∧ change.id = id := by
    unfold userDelta
    dsimp only
    cases found : before.users[id]? with
    | none => exact ⟨_,rfl,rfl⟩
    | some previous =>
      dsimp only
      rw [if_neg]
      · exact ⟨_,rfl,rfl⟩
      · intro same
        rw [sameUser_iff] at same
        rw [found,same] at differs
        exact differs rfl
  obtain ⟨change,made,own⟩ := touched
  refine List.mem_map.mpr ⟨change,?_,own⟩
  exact List.mem_filterMap.mpr ⟨(id,newUser),(mem_toList after.users).mpr listed,made⟩

/-! ### What stays -/

theorem config_kept {ruleSets : Bool} (kept : (inboundDelta ruleSets tag before after).configChanged = false) :
    before.compiled.spec.config = after.compiled.spec.config := by
  unfold inboundDelta at kept
  simpa using (Bool.or_eq_false_iff.mp kept).2

theorem mode_kept {ruleSets : Bool} (kept : (inboundDelta ruleSets tag before after).userModeChanged = false) :
    before.dynamicUsers = after.dynamicUsers := by
  simpa [inboundDelta] using kept

/-- A tag of both configs that has no delta shows the same in both. -/
theorem untouched_inbound (published : old.inbounds[tag]? = some before) (desired : new.inbounds[tag]? = some after)
    (untouched : tag ∉ (diffConfigs old new).changed.map InboundDelta.tag) : inboundView before = inboundView after := by
  let delta := inboundDelta (old.ruleSetDigest ≠ new.ruleSetDigest) tag before after
  have irrelevant : delta.relevant = false := by
    by_contra relevant
    rw [Bool.not_eq_false] at relevant
    apply untouched
    refine List.mem_map.mpr ⟨delta,?_,rfl⟩
    refine List.mem_filterMap.mpr ⟨(tag,before),(mem_toList old.inbounds).mpr published,?_⟩
    unfold changedDelta
    rw [desired]
    exact if_pos relevant
  unfold InboundDelta.relevant at irrelevant
  simp only [Bool.or_eq_false_iff,Bool.not_eq_false',List.isEmpty_iff] at irrelevant
  obtain ⟨⟨⟨config,mode⟩,removed⟩,upserts⟩ := irrelevant
  have users : (fun id : String => before.users[id]?) = (fun id : String => after.users[id]?) := by
    funext id
    cases listed : after.users[id]? with
    | some newUser =>
      have nothing : id ∉ delta.upsertUsers.map UserDelta.id := by
        rw [upserts]
        exact List.not_mem_nil
      exact untouched_user listed nothing
    | none =>
      cases found : before.users[id]? with
      | none => rfl
      | some previous =>
        have member : id ∈ delta.removedUsers := mem_removedUsers.mpr ⟨by rw [found]; rfl,listed⟩
        rw [removed] at member
        cases member
  unfold inboundView
  rw [config_kept config,mode_kept mode,users]

end NodeAgent.Differences
