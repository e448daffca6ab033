import NodeAgent.RuntimeCalls

/-!
Stopping and replacing one listener. A stop removes every live user first and puts them
back when it cannot go on: it takes the listener down, or leaves its tag with no more
users than before, and with exactly what was there when it says so.
-/
namespace NodeAgent.Listeners
open NodeAgent.Api NodeAgent.EngineTable NodeAgent.Fallible NodeAgent.FiniteMap NodeAgent.Runtime NodeAgent.RuntimeCalls NodeAgent.Shapes
variable {V : Type} {shoes : Shoes V} {w w' : World V} {S S' : String → Option (Shape V)} {tag id : String}

/-- Every user of a normalized inbound lies under its own id. -/
def Keyed (inbound : NormalizedInbound V) : Prop :=
  ∀ (id : String) (spec : UserSpec), inbound.users[id]? = some spec → spec.resolvedId = some id

/-! ### Adding users -/

def Added (tag : String) (spec : UserSpec) (S S' : String → Option (Shape V)) : Prop :=
  ∃ id shape users, spec.resolvedId = some id ∧ HasUsers S tag shape users ∧ users.tombstones id = none ∧
    S' = withUsers S tag shape (users.add id spec)

theorem ensures_callAddUser (w : World V) (tag : String) (spec : UserSpec) : Ensures (callAddUser shoes tag spec) w (Outcome
    (fun _ w' => Quiet w w' ∧ lineages w'.engine = lineages w.engine ∧ Added tag spec (shapes w.engine) (shapes w'.engine))
    (fun error w' => Same w w' ∧ (Calm w → ∃ e, shapes e = shapes w.engine ∧ addUser shoes e tag spec = .error error))) := by
  refine Ensures.mono (ensures_tell (fun e e' => addUser shoes e tag spec = .ok e') (fun _ _ _ done => done) w) ?_
  rintro (error | a) w' held
  · exact ⟨held.1,fun calm => by obtain ⟨_,e,shapes,_,refused⟩ := held.2 calm; exact ⟨e,shapes,refused⟩⟩
  · obtain ⟨quiet,e,sameShapes,sameLineages,added⟩ := held
    obtain ⟨lineage,id,shape,users,resolved,has,collected,after⟩ := addUser_shapes added
    refine ⟨quiet,by rw [lineage,sameLineages],id,shape,users,resolved,?_,collected,?_⟩
    · rw [← sameShapes]; exact has
    · rw [after,sameShapes]

theorem apart_add {users : UsersShape} {shape : Shape V} {spec : UserSpec} (apart : Apart S) (has : HasUsers S tag shape users)
    (collected : users.tombstones id = none) : Apart (withUsers S tag shape (users.add id spec)) := by
  refine apart_withUsers apart ?_
  intro other registered
  by_cases same : other = id
  · subst same; exact collected
  · simp only [UsersShape.add,Function.update_of_ne same] at registered ⊢
    exact apart tag shape users other has registered

/-- The users after some of the listed ones came back. -/
structure PartlyRestored (users : UsersShape) (specs : List UserSpec) (users' : UsersShape) : Prop where
  kinds : users'.kinds = users.kinds
  tombstones : users'.tombstones = users.tombstones
  each : ∀ id, users'.specs id = users.specs id ∨ ∃ spec ∈ specs, spec.resolvedId = some id ∧ users'.specs id = some spec ∧
    users.tombstones id = none

/-- Every listed user is there. -/
def Restored (specs : List UserSpec) (users' : UsersShape) : Prop :=
  ∀ spec ∈ specs, ∀ id, spec.resolvedId = some id → (users'.specs id).isSome

theorem ensures_restoreUsers {ε : Type} (w : World V) {shape : Shape V} {users : UsersShape} (has : HasUsers (shapes w.engine) tag shape users)
    (specs : List UserSpec) : Ensures (@restoreUsers V shoes ε tag specs) w (Outcome
      (fun errors w' => Quiet w w' ∧ lineages w'.engine = lineages w.engine ∧ ∃ users',
        shapes w'.engine = withUsers (shapes w.engine) tag shape users' ∧ PartlyRestored users specs users' ∧
        (errors = [] → Restored specs users'))
      (fun _ _ => False)) := by
  refine Ensures.foldEach (fun done errors w' => Quiet w w' ∧ lineages w'.engine = lineages w.engine ∧ ∃ users',
    shapes w'.engine = withUsers (shapes w.engine) tag shape users' ∧ PartlyRestored users done users' ∧
    (errors = [] → Restored done users')) ?_ ?_ ?_
  · refine ⟨Quiet.refl w,rfl,users,(withUsers_self has).symm,⟨rfl,rfl,fun _ => .inl rfl⟩,?_⟩
    intro _ spec member
    cases member
  · rintro done spec rest errors w₁ _ ⟨quiet,lineage,users₁,after,partly,whole⟩
    refine Ensures.attempt_bind (ensures_callAddUser w₁ tag spec) ?_
    have has₁ : HasUsers (shapes w₁.engine) tag { shape with users := some users₁ } users₁ := by
      rw [after]; exact hasUsers_withUsers
    have wider {id : String} (earlier : users₁.specs id = users.specs id ∨ ∃ spec ∈ done, spec.resolvedId = some id ∧
        users₁.specs id = some spec ∧ users.tombstones id = none) : users₁.specs id = users.specs id ∨ ∃ spec' ∈ done ++ [spec],
        spec'.resolvedId = some id ∧ users₁.specs id = some spec' ∧ users.tombstones id = none := by
      rcases earlier with kept | ⟨old,member,rest⟩
      · exact .inl kept
      · exact .inr ⟨old,List.mem_append_left _ member,rest⟩
    rintro (error | a) w₂ held
    · obtain ⟨same,_⟩ := held
      refine Ensures.pure ⟨quiet.trans same.toQuiet,by rw [same.lineages,lineage],users₁,by rw [same.shapes,after],
        ⟨partly.kinds,partly.tombstones,fun id => wider (partly.each id)⟩,?_⟩
      intro empty
      simp at empty
    · obtain ⟨quiet',lineage',id,shape₂,users₂,resolved,has₂,collected,after'⟩ := held
      obtain ⟨rfl,rfl⟩ := HasUsers.unique has₁ has₂
      rw [after,withUsers_withUsers] at after'
      refine Ensures.pure ⟨quiet.trans quiet',by rw [lineage',lineage],users₂.add id spec,after',⟨partly.kinds,partly.tombstones,?_⟩,?_⟩
      · intro other
        by_cases same : other = id
        · subst same
          rw [partly.tombstones] at collected
          exact .inr ⟨spec,by simp,resolved,by simp [UsersShape.add],collected⟩
        · rw [UsersShape.add]
          simp only [Function.update_of_ne same]
          exact wider (partly.each other)
      · intro empty restored member other found
        by_cases same : other = id
        · subst same; simp [UsersShape.add]
        · rw [UsersShape.add]
          simp only [Function.update_of_ne same]
          rcases List.mem_append.mp member with old | new
          · exact whole empty restored old other found
          · rw [List.mem_singleton.mp new,resolved,Option.some.injEq] at found
            exact absurd found.symm same
  · rintro errors w' ⟨quiet,lineage,users',after,partly,whole⟩
    refine ⟨quiet,lineage,users',after,⟨partly.kinds,partly.tombstones,?_⟩,?_⟩
    · intro id
      rcases partly.each id with kept | ⟨spec,member,rest⟩
      · exact .inl kept
      · exact .inr ⟨spec,List.mem_reverse.mp member,rest⟩
    · intro empty spec member
      exact whole empty spec (List.mem_reverse.mpr member)

/-! ### Stopping -/

/-- What a stop has done to the users so far: each is as before, or gone or stranded. -/
structure Retired (registry : NormalizedInbound V) (users users' : UsersShape) (removed : List UserSpec) : Prop where
  kinds : users'.kinds = users.kinds
  specs : ∀ id, users'.specs id = users.specs id ∨ (users'.specs id = none ∧ (users.specs id).isSome)
  tombstones : ∀ id, users'.tombstones id = users.tombstones id ∨ (users.specs id).isSome
  apart : ∀ id, (users'.specs id).isSome → users'.tombstones id = none
  removed : ∀ spec ∈ removed, ∃ id : String, registry.users[id]? = some spec ∧ (users.specs id).isSome

/-- Putting the removed users back gives what was there. -/
structure Reversible (registry : NormalizedInbound V) (users users' : UsersShape) (removed : List UserSpec) : Prop where
  tombstones : users'.tombstones = users.tombstones
  specs : ∀ id : String, users'.specs id = users.specs id ∨ ∃ spec ∈ removed, registry.users[id]? = some spec

/-- The registry that a stop restores from knows every live user as it is. -/
def Agrees (registry : NormalizedInbound V) (users : UsersShape) : Prop :=
  ∀ (id : String) (spec : UserSpec), users.specs id = some spec → registry.users[id]? = some spec

/-- The tag has no more users than before, live or waiting for their collection. -/
def Shrunk (registry : NormalizedInbound V) (tag : String) (S S' : String → Option (Shape V)) : Prop :=
  S' = S ∨ ∃ shape users users', HasUsers S tag shape users ∧ S' = withUsers S tag shape users' ∧ users'.kinds = users.kinds ∧
    (∀ id, Present users' id → Present users id) ∧
    (∀ (id : String) (spec : UserSpec), users'.specs id = some spec → users.specs id = some spec ∨ registry.users[id]? = some spec) ∧
    ∀ id, (users'.specs id).isSome → users'.tombstones id = none

/-- How a stop that fails leaves the table. -/
def StopFailed (registry : NormalizedInbound V) (tag : String) (S S' : String → Option (Shape V)) (failure : StepFailure) : Prop :=
  Shrunk registry tag S S' ∧
    (failure.restored = true → (∀ shape users, HasUsers S tag shape users → Agrees registry users) → S' = S)

theorem shrunk_of_restored {registry : NormalizedInbound V} {shape : Shape V} {users users₁ users₂ : UsersShape} {removed : List UserSpec}
    (keyed : Keyed registry) (has : HasUsers S tag shape users) (retired : Retired registry users users₁ removed)
    (partly : PartlyRestored users₁ removed users₂) : Shrunk registry tag S (withUsers S tag shape users₂) := by
  have back {id : String} {spec : UserSpec} (member : spec ∈ removed) (resolved : spec.resolvedId = some id) :
      registry.users[id]? = some spec ∧ (users.specs id).isSome := by
    obtain ⟨other,known,live⟩ := retired.removed spec member
    have own := keyed other spec known
    rw [resolved,Option.some.injEq] at own
    subst own
    exact ⟨known,live⟩
  refine .inr ⟨shape,users,users₂,has,rfl,partly.kinds.trans retired.kinds,?_,?_,?_⟩
  · intro id present
    rcases present with live | waiting
    · rcases partly.each id with kept | ⟨spec,member,resolved,_⟩
      · rw [kept] at live
        rcases retired.specs id with same | ⟨gone,before⟩
        · rw [same] at live; exact .inl live
        · exact .inl before
      · exact .inl (back member resolved).2
    · rw [partly.tombstones] at waiting
      rcases retired.tombstones id with same | live
      · rw [same] at waiting; exact .inr waiting
      · exact .inl live
  · intro id spec live
    rcases partly.each id with kept | ⟨restored,member,resolved,there,_⟩
    · rw [kept] at live
      rcases retired.specs id with same | ⟨gone,_⟩
      · rw [same] at live; exact .inl live
      · rw [gone] at live; cases live
    · rw [there,Option.some.injEq] at live
      subst live
      exact .inr (back member resolved).1
  · intro id live
    rw [partly.tombstones]
    rcases partly.each id with kept | ⟨_,_,_,_,collected⟩
    · rw [kept] at live; exact retired.apart id live
    · exact collected

theorem restored_exactly {registry : NormalizedInbound V} {users users₁ users₂ : UsersShape} {removed : List UserSpec}
    (keyed : Keyed registry) (agrees : Agrees registry users) (retired : Retired registry users users₁ removed)
    (reversible : Reversible registry users users₁ removed) (partly : PartlyRestored users₁ removed users₂)
    (whole : Restored removed users₂) : users₂ = users := by
  have back {id : String} {spec : UserSpec} (member : spec ∈ removed) (resolved : spec.resolvedId = some id) :
      users.specs id = some spec := by
    obtain ⟨other,known,live⟩ := retired.removed spec member
    have own := keyed other spec known
    rw [resolved,Option.some.injEq] at own
    subst own
    obtain ⟨before,there⟩ := Option.isSome_iff_exists.mp live
    have same := agrees id before there
    rw [known,Option.some.injEq] at same
    rw [there,same]
  have specs : users₂.specs = users.specs := by
    funext id
    rcases partly.each id with kept | ⟨spec,member,resolved,there,_⟩
    · rw [kept]
      rcases reversible.specs id with same | ⟨spec,member,known⟩
      · exact same
      · -- A removed user is back, so it was never gone.
        have present := whole spec member id (keyed id spec known)
        rw [kept] at present
        rcases retired.specs id with same | ⟨gone,_⟩
        · exact same
        · rw [gone] at present; cases present
    · rw [there,back member resolved]
  cases users₂
  cases users
  simp only at specs
  simp only [UsersShape.mk.injEq]
  exact ⟨partly.kinds.trans retired.kinds,specs,partly.tombstones.trans reversible.tombstones⟩

/-- The users come back, as far as they can, and the stop fails. -/
theorem ensures_stopFailure {registry : NormalizedInbound V} (keyed : Keyed registry) {shape : Shape V} {users users₁ : UsersShape}
    {removed : List UserSpec} (w w₁ : World V) (has : HasUsers (shapes w.engine) tag shape users) (quiet : Quiet w w₁)
    (lineage : lineages w₁.engine = lineages w.engine) (after : shapes w₁.engine = withUsers (shapes w.engine) tag shape users₁)
    (retired : Retired registry users users₁ removed) (operation : String) (changed : Bool)
    (reversible : changed = false → Reversible registry users users₁ removed) :
    Ensures (stopFailure shoes tag removed operation changed) w₁ (Outcome (fun _ _ => False)
      (fun failure w' => Quiet w w' ∧ lineages w'.engine = lineages w.engine ∧
        StopFailed registry tag (shapes w.engine) (shapes w'.engine) failure)) := by
  have has₁ : HasUsers (shapes w₁.engine) tag { shape with users := some users₁ } users₁ := by
    rw [after]; exact hasUsers_withUsers
  refine Ensures.bind (ensures_restoreUsers w₁ has₁ removed) ?_ (fun _ _ no => no.elim)
  rintro rollback w₂ ⟨quiet',lineage',users₂,after',partly,whole⟩
  rw [after,withUsers_withUsers] at after'
  refine Ensures.fail ⟨quiet.trans quiet',lineage'.trans lineage,?_,?_⟩
  · rw [after']
    exact shrunk_of_restored keyed has retired partly
  · intro restored agrees
    simp only [Bool.and_eq_true,Bool.not_eq_true',List.isEmpty_iff] at restored
    obtain ⟨unchanged,empty⟩ := restored
    rw [after',restored_exactly keyed (agrees shape users has) retired (reversible unchanged) partly (whole empty),
      withUsers_self has]

theorem listUsers_ok {e : Engine V} {ids : List String} (listed : listUsers e tag = .ok ids) :
    ∃ shape users, HasUsers (shapes e) tag shape users ∧ ids.Nodup ∧ ∀ id, id ∈ ids ↔ (users.specs id).isSome := by
  unfold listUsers at listed
  split at listed
  · cases listed
  next slot t found =>
  cases listed
  refine ⟨_,usersShape t,hasUsers_of_registry found,Std.ExtTreeMap.nodup_keys,?_⟩
  intro id
  rw [Std.ExtTreeMap.mem_keys,Std.ExtTreeMap.mem_iff_isSome_getElem?]
  simp [usersShape]

/-- Where the loop over the live users stands: those done are gone and can come back. -/
structure Progress (w : World V) (tag : String) (registry : NormalizedInbound V) (shape : Shape V) (users : UsersShape)
    (done : List String) (removed : List UserSpec) (w₁ : World V) (users₁ : UsersShape) : Prop where
  quiet : Quiet w w₁
  lineage : lineages w₁.engine = lineages w.engine
  after : shapes w₁.engine = withUsers (shapes w.engine) tag shape users₁
  retired : Retired registry users users₁ removed
  reversible : Reversible registry users users₁ removed
  gone : ∀ id ∈ done, users₁.specs id = none
  left : ∀ id, id ∉ done → users₁.specs id = users.specs id

theorem progress_start (w : World V) (registry : NormalizedInbound V) {shape : Shape V} {users : UsersShape}
    (apart : Apart (shapes w.engine)) (has : HasUsers (shapes w.engine) tag shape users) :
    Progress w tag registry shape users [] [] w users where
  quiet := Quiet.refl w
  lineage := rfl
  after := (withUsers_self has).symm
  retired := ⟨rfl,fun _ => .inl rfl,fun _ => .inl rfl,fun id live => apart tag shape users id has live,fun _ member => by cases member⟩
  reversible := ⟨rfl,fun _ => .inl rfl⟩
  gone := fun _ member => by cases member
  left := fun _ _ => rfl

theorem progress_apart {registry : NormalizedInbound V} {shape : Shape V} {users users₁ : UsersShape} {done : List String}
    {removed : List UserSpec} {w₁ : World V} (apart : Apart (shapes w.engine))
    (progress : Progress w tag registry shape users done removed w₁ users₁) : Apart (shapes w₁.engine) := by
  rw [progress.after]
  exact apart_withUsers apart progress.retired.apart

theorem dropUser_specs (users : UsersShape) (id other : String) :
    (dropUser users id).specs other = if other = id then none else users.specs other := by
  simp [dropUser,UsersShape.collect,UsersShape.remove,Function.update_apply]

theorem dropUser_tombstones (users : UsersShape) (id other : String) :
    (dropUser users id).tombstones other = if other = id then none else users.tombstones other := by
  simp [dropUser,UsersShape.collect,UsersShape.remove,Function.update_apply]

/-- One more user is gone. -/
theorem progress_step {registry : NormalizedInbound V} {shape : Shape V} {users users₁ : UsersShape} {done : List String}
    {removed : List UserSpec} {w₁ w₂ : World V} {spec : UserSpec} (apart : Apart (shapes w.engine))
    (has : HasUsers (shapes w.engine) tag shape users) (progress : Progress w tag registry shape users done removed w₁ users₁)
    (known : registry.users[id]? = some spec) (live : (users.specs id).isSome)
    (quiet : Quiet w₁ w₂) (lineage : lineages w₂.engine = lineages w₁.engine)
    (dropped : Dropped tag id (shapes w₁.engine) (shapes w₂.engine)) :
    ∃ users₂, Progress w tag registry shape users (done ++ [id]) (removed ++ [spec]) w₂ users₂ := by
  obtain ⟨shape',users',has',_,after⟩ := dropped
  rw [progress.after] at has' after
  obtain ⟨rfl,rfl⟩ := HasUsers.unique hasUsers_withUsers has'
  rw [withUsers_withUsers] at after
  have collected : users.tombstones id = none := apart tag shape users id has live
  have retired := progress.retired
  have reversible := progress.reversible
  refine ⟨dropUser users' id,progress.quiet.trans quiet,lineage.trans progress.lineage,after,?_,?_,?_,?_⟩
  · refine ⟨retired.kinds,?_,?_,?_,?_⟩
    · intro other
      rw [dropUser_specs]
      split
      · next same => rw [same]; exact .inr ⟨rfl,live⟩
      · exact retired.specs other
    · intro other
      rw [dropUser_tombstones]
      split
      · next same => rw [same]; exact .inr live
      · exact retired.tombstones other
    · intro other still
      rw [dropUser_tombstones]
      split
      · rfl
      · next different =>
        rw [dropUser_specs,if_neg different] at still
        exact retired.apart other still
    · intro old member
      rcases List.mem_append.mp member with before | new
      · exact retired.removed old before
      · rw [List.mem_singleton.mp new]; exact ⟨id,known,live⟩
  · refine ⟨?_,?_⟩
    · funext other
      rw [dropUser_tombstones,reversible.tombstones]
      split
      · next same => rw [same,collected]
      · rfl
    · intro other
      rw [dropUser_specs]
      split
      · next same => rw [same]; exact .inr ⟨spec,by simp,known⟩
      · rcases reversible.specs other with same | ⟨old,member,there⟩
        · exact .inl same
        · exact .inr ⟨old,List.mem_append_left _ member,there⟩
  · intro other member
    rw [dropUser_specs]
    split
    · rfl
    · next different =>
      rcases List.mem_append.mp member with before | new
      · exact progress.gone other before
      · exact absurd (List.mem_singleton.mp new) different
  · intro other outside
    rw [List.mem_append,not_or,List.mem_singleton] at outside
    rw [dropUser_specs,if_neg outside.2]
    exact progress.left other outside.1

/-- A user that is stranded instead of removed. -/
theorem retired_strand {registry : NormalizedInbound V} {users users₁ : UsersShape} {removed : List UserSpec} {counters : Counters}
    (retired : Retired registry users users₁ removed) (live : (users.specs id).isSome) :
    Retired registry users (users₁.strand id counters) removed := by
  have specs (other : String) : (users₁.strand id counters).specs other = if other = id then none else users₁.specs other := by
    simp [UsersShape.strand,UsersShape.remove,Function.update_apply]
  have tombstones (other : String) : (users₁.strand id counters).tombstones other =
      if other = id then some counters else users₁.tombstones other := by
    simp [UsersShape.strand,Function.update_apply]
  refine ⟨retired.kinds,?_,?_,?_,retired.removed⟩
  · intro other
    rw [specs]
    split
    · next same => rw [same]; exact .inr ⟨rfl,live⟩
    · exact retired.specs other
  · intro other
    rw [tombstones]
    split
    · next same => rw [same]; exact .inr live
    · exact retired.tombstones other
  · intro other still
    rw [specs] at still
    rw [tombstones]
    split
    · next same => rw [if_pos same] at still; cases still
    · next different => rw [if_neg different] at still; exact retired.apart other still

theorem ensures_retireLiveUser {registry accounting : NormalizedInbound V} (keyed : Keyed registry) {shape : Shape V}
    {users users₁ : UsersShape} {done : List String} {removed : List UserSpec} {w₁ : World V} (apart : Apart (shapes w.engine))
    (has : HasUsers (shapes w.engine) tag shape users) (progress : Progress w tag registry shape users done removed w₁ users₁)
    (live : (users.specs id).isSome) : Ensures (retireLiveUser shoes tag registry accounting removed id) w₁ (Outcome
      (fun removed' w' => ∃ users', Progress w tag registry shape users (done ++ [id]) removed' w' users')
      (fun failure w' => Quiet w w' ∧ lineages w'.engine = lineages w.engine ∧
        StopFailed registry tag (shapes w.engine) (shapes w'.engine) failure)) := by
  have failed (w₂ : World V) (users₂ : UsersShape) (quiet : Quiet w w₂) (lineage : lineages w₂.engine = lineages w.engine)
      (after : shapes w₂.engine = withUsers (shapes w.engine) tag shape users₂) (retired : Retired registry users users₂ removed)
      (operation : String) (changed : Bool) (reversible : changed = false → Reversible registry users users₂ removed) :
      Ensures (stopFailure shoes tag removed operation changed) w₂ (Outcome
        (fun removed' w' => ∃ users', Progress w tag registry shape users (done ++ [id]) removed' w' users')
        (fun failure w' => Quiet w w' ∧ lineages w'.engine = lineages w.engine ∧
          StopFailed registry tag (shapes w.engine) (shapes w'.engine) failure)) := by
    refine Ensures.mono (ensures_stopFailure keyed w w₂ has quiet lineage after retired operation changed reversible) ?_
    rintro (failure | value) w' held
    · exact held
    · exact held.elim
  unfold retireLiveUser
  split
  · exact failed w₁ users₁ progress.quiet progress.lineage progress.after progress.retired _ false (fun _ => progress.reversible)
  next spec known =>
  refine Ensures.attempt_bind (ensures_collectUser w₁ (progress_apart apart progress) tag accounting id) ?_
  rintro (failure | value) w₂ ⟨quiet,lineage,held⟩
  · have quiet' := progress.quiet.trans quiet
    have lineage' := lineage.trans progress.lineage
    cases failure with
    | reserve error =>
      change shapes w₂.engine = shapes w₁.engine at held
      exact failed w₂ users₁ quiet' lineage' (held.trans progress.after) progress.retired _ false (fun _ => progress.reversible)
    | remove failure =>
      rcases held with ⟨changed,_,_,stranded⟩ | ⟨unchanged,same,_⟩
      · obtain ⟨shape',users',counters,has',_,after⟩ := stranded
        rw [progress.after] at has' after
        obtain ⟨rfl,rfl⟩ := HasUsers.unique hasUsers_withUsers has'
        rw [withUsers_withUsers] at after
        refine failed w₂ _ quiet' lineage' after (retired_strand progress.retired live) _ failure.changed ?_
        intro unchanged
        rw [changed] at unchanged
        cases unchanged
      · exact failed w₂ users₁ quiet' lineage' (same.trans progress.after) progress.retired _ failure.changed
          (fun _ => progress.reversible)
  · exact progress_step apart has progress known live quiet lineage held

theorem ensures_callRemoveInboundHard (w : World V) (tag : String) : Ensures (callRemoveInboundHard tag) w (Outcome
    (fun _ w' => Quiet w w' ∧ lineages w'.engine = lineages w.engine ∧ (shapes w.engine tag).isSome ∧
      shapes w'.engine = Function.update (shapes w.engine) tag none)
    (fun _ w' => Same w w' ∧ (Calm w → shapes w.engine tag = none))) := by
  refine Ensures.mono (ensures_tell (fun e e' => removeInboundHard e tag = .ok e') (fun _ _ _ done => done) w) ?_
  rintro (error | value) w' held
  · refine ⟨held.1,fun calm => ?_⟩
    obtain ⟨_,e,sameShapes,_,refused⟩ := held.2 calm
    rw [← sameShapes]
    unfold removeInboundHard at refused
    split at refused
    · next absent => simp [shapes,absent]
    · cases refused
  · obtain ⟨quiet,e,sameShapes,sameLineages,removed⟩ := held
    obtain ⟨lineage,present,after⟩ := removeInboundHard_shapes removed
    rw [sameShapes] at present after
    exact ⟨quiet,lineage.trans sameLineages,present,after⟩

/-- What a stop does once the users of the listener are listed. -/
theorem ensures_takeDown (shoes : Shoes V) (registry : NormalizedInbound V) (removed : List UserSpec) {w₁ : World V} (operation : EngineError → String)
    (quiet : Quiet w w₁) (lineage : lineages w₁.engine = lineages w.engine)
    (down : ∀ S', S' = Function.update (shapes w₁.engine) tag none → S' = Function.update (shapes w.engine) tag none)
    (present : (shapes w₁.engine tag).isSome → (shapes w.engine tag).isSome)
    (back : ∀ w₂ operation, Same w₁ w₂ → Ensures (stopFailure shoes tag removed operation false) w₂ (Outcome (fun _ _ => False)
      (fun failure w' => Quiet w w' ∧ lineages w'.engine = lineages w.engine ∧
        StopFailed registry tag (shapes w.engine) (shapes w'.engine) failure))) :
    Ensures (do
      match ← attempt (callRemoveInboundHard tag) with
      | .ok _ => return ()
      | .error error => do
        let _ ← stopFailure shoes tag removed (operation error) false
        return ()) w₁ (Outcome
      (fun _ w' => Quiet w w' ∧ lineages w'.engine = lineages w.engine ∧ (shapes w.engine tag).isSome ∧
        shapes w'.engine = Function.update (shapes w.engine) tag none)
      (fun failure w' => Quiet w w' ∧ lineages w'.engine = lineages w.engine ∧
        StopFailed registry tag (shapes w.engine) (shapes w'.engine) failure)) := by
  refine Ensures.attempt_bind (ensures_callRemoveInboundHard w₁ tag) ?_
  rintro (error | value) w₂ held
  · refine Ensures.bind (back w₂ (operation error) held.1) (fun _ _ no => no.elim) ?_
    intro failure w' failed
    exact failed
  · obtain ⟨quiet',lineage',there,after⟩ := held
    exact Ensures.pure ⟨quiet.trans quiet',lineage'.trans lineage,present there,down _ after⟩

/-- A stop takes the listener down or fails as it says. -/
theorem ensures_stop (w : World V) (apart : Apart (shapes w.engine)) (listener registry accounting : NormalizedInbound V)
    (keyed : Keyed registry) : Ensures (stopInboundWithOwners shoes listener registry accounting) w (Outcome
      (fun _ w' => Quiet w w' ∧ lineages w'.engine = lineages w.engine ∧ (shapes w.engine listener.compiled.spec.tag).isSome ∧
        shapes w'.engine = Function.update (shapes w.engine) listener.compiled.spec.tag none)
      (fun failure w' => Quiet w w' ∧ lineages w'.engine = lineages w.engine ∧
        StopFailed registry listener.compiled.spec.tag (shapes w.engine) (shapes w'.engine) failure)) := by
  have unchanged {w' : World V} (same : Same w w') (failure : StepFailure) : Quiet w w' ∧
      lineages w'.engine = lineages w.engine ∧
      StopFailed registry listener.compiled.spec.tag (shapes w.engine) (shapes w'.engine) failure :=
    ⟨same.toQuiet,same.lineages,.inl same.shapes,fun _ _ => same.shapes⟩
  -- With no user to remove there is nothing to put back either.
  have empty {w₁ : World V} (same : Same w w₁) := ensures_takeDown shoes registry []
    (fun error => "remove inbound " ++ listener.compiled.spec.tag ++ ": " ++ error.display) same.toQuiet same.lineages
    (fun S' after => by rw [after,same.shapes]) (fun there => by rw [← same.shapes]; exact there)
    (fun w₂ operation same' => Ensures.bind (Ensures.pure (R := fun r w' => r = .ok [] ∧ w' = w₂) ⟨rfl,rfl⟩)
      (fun errors w' both => by
        obtain ⟨_,rfl⟩ := both
        exact Ensures.fail (unchanged (same.trans same') _))
      (fun e w' both => by cases both.1))
  unfold stopInboundWithOwners listForStop
  refine Ensures.bind (Q := Outcome (fun live w' => Same w w' ∧ (live = [] ∨ listUsers w'.engine listener.compiled.spec.tag = .ok live))
    (fun _ w' => Same w w')) ?_ ?_ ?_
  · refine Ensures.attempt_bind (ensures_ask w) ?_
    rintro (error | users) w₁ ⟨same,why⟩
    · cases error with
      | unsupported msg => exact Ensures.pure ⟨same,.inl rfl⟩
      | _ => exact Ensures.fail same
    · exact Ensures.pure ⟨same,.inr why⟩
  · rintro live w₁ ⟨same,listed⟩
    rcases listed with rfl | listed
    · refine Ensures.bind (Ensures.pure (R := fun r w' => r = .ok [] ∧ w' = w₁) ⟨rfl,rfl⟩) ?_ (fun e w' both => by cases both.1)
      rintro removed w' both
      obtain ⟨shape,rfl⟩ := both
      cases shape
      exact empty same
    obtain ⟨shape,users,has,_,ids⟩ := listUsers_ok listed
    rw [same.shapes] at has
    have apart₁ : Apart (shapes w₁.engine) := by rw [same.shapes]; exact apart
    refine Ensures.bind (Q := Outcome
      (fun removed w' => ∃ users', Progress w listener.compiled.spec.tag registry shape users live removed w' users')
      (fun failure w' => Quiet w w' ∧ lineages w'.engine = lineages w.engine ∧
        StopFailed registry listener.compiled.spec.tag (shapes w.engine) (shapes w'.engine) failure)) ?_ ?_ (fun _ _ failed => failed)
    · refine Ensures.foldEach (fun done removed w' => ∃ users',
        Progress w listener.compiled.spec.tag registry shape users done removed w' users') ?_ ?_ (fun _ _ done => done)
      · have start := progress_start w registry apart has
        exact ⟨users,same.toQuiet,same.lineages,same.shapes.trans start.after,start.retired,start.reversible,start.gone,start.left⟩
      · rintro done id rest removed w₂ split ⟨users₂,progress⟩
        have live : (users.specs id).isSome := (ids id).mp (by rw [split]; simp)
        exact ensures_retireLiveUser keyed apart has progress live
    · rintro removed w₂ ⟨users₂,progress⟩
      refine ensures_takeDown shoes registry removed _ progress.quiet progress.lineage ?_ ?_ ?_
      · intro S' after
        rw [after,progress.after]
        simp [withUsers]
      · intro _
        rw [has.1]
        rfl
      · intro w₃ operation same'
        exact ensures_stopFailure keyed w w₃ has (progress.quiet.trans same'.toQuiet) (same'.lineages.trans progress.lineage)
          (same'.shapes.trans progress.after) progress.retired operation false (fun _ => progress.reversible)
  · intro failure w' same
    exact unchanged same failure

/-! ### Starting and replacing -/

theorem ensures_callAddInboundWithReplay (w : World V) (spec : InboundSpec V) (lease : InboundReplayLease) :
    Ensures (callAddInboundWithReplay shoes spec lease) w (Outcome
      (fun _ w' => Quiet w w' ∧ lineages w'.engine = lineages w.engine ∧ shapes w.engine spec.tag = none ∧
        lineages w.engine spec.tag = some lease.lineage ∧ ∃ kinds,
          shapes w'.engine = Function.update (shapes w.engine) spec.tag (some (addedShape spec lease.lineage kinds)))
      (fun error w' => Same w w' ∧ (Calm w → ∃ e, shapes e = shapes w.engine ∧ lineages e = lineages w.engine ∧
        addInboundWithReplay shoes e spec lease = .error error))) := by
  refine Ensures.mono (ensures_tell (fun e e' => addInboundWithReplay shoes e spec lease = .ok e') (fun _ _ _ done => done) w) ?_
  rintro (error | value) w' held
  · exact ⟨held.1,fun calm => by obtain ⟨_,e,found⟩ := held.2 calm; exact ⟨e,found⟩⟩
  · obtain ⟨quiet,e,sameShapes,sameLineages,added⟩ := held
    obtain ⟨absent,admitted,lineage,kinds,after⟩ := addInboundWithReplay_shapes added
    rw [sameShapes] at absent after
    rw [sameLineages] at admitted lineage
    exact ⟨quiet,lineage,absent,admitted,kinds,after⟩

theorem ensures_callAddInbound (w : World V) (spec : InboundSpec V) : Ensures (callAddInbound shoes spec) w (Outcome
    (fun _ w' => Quiet w w' ∧ shapes w.engine spec.tag = none ∧ ∃ lineage kinds,
      lineages w'.engine = Function.update (lineages w.engine) spec.tag (some lineage) ∧
      shapes w'.engine = Function.update (shapes w.engine) spec.tag (some (addedShape spec lineage kinds)))
    (fun error w' => Same w w' ∧ (Calm w → ∃ alive e, shapes e = shapes w.engine ∧ lineages e = lineages w.engine ∧
      addInbound shoes e spec alive = .error error))) := by
  refine Ensures.mono (ensures_tell (fun e e' => ∃ alive, addInbound shoes e spec alive = .ok e') (fun m _ _ done => ⟨m.scopeAlive,done⟩) w) ?_
  rintro (error | value) w' held
  · exact ⟨held.1,fun calm => by obtain ⟨m,e,found⟩ := held.2 calm; exact ⟨m.scopeAlive,e,found⟩⟩
  · obtain ⟨quiet,e,sameShapes,sameLineages,alive,added⟩ := held
    obtain ⟨absent,lineage,kinds,after,published,_⟩ := addInboundInner_shapes added
    rw [sameShapes] at absent after
    rw [sameLineages] at published
    exact ⟨quiet,absent,lineage,kinds,published,after⟩

theorem ensures_callUpdateInbound (w : World V) (inbound : NormalizedInbound V) : Ensures (callUpdateInbound shoes inbound) w (Outcome
    (fun _ w' => Quiet w w' ∧ lineages w'.engine = lineages w.engine ∧ ∃ shape,
      shapes w.engine inbound.compiled.spec.tag = some shape ∧ shapes w'.engine =
        Function.update (shapes w.engine) inbound.compiled.spec.tag (some { shape with config := inbound.compiled.spec.config }))
    (fun error w' => Same w w' ∧ (Calm w → ∃ e, shapes e = shapes w.engine ∧
      updateInbound shoes e inbound.compiled.spec.tag inbound.compiled.spec.config = .error error))) := by
  refine Ensures.mono (ensures_tell (fun e e' => updateInbound shoes e inbound.compiled.spec.tag inbound.compiled.spec.config = .ok e')
    (fun _ _ _ done => done) w) ?_
  rintro (error | value) w' held
  · exact ⟨held.1,fun calm => by obtain ⟨_,e,sameShapes,_,refused⟩ := held.2 calm; exact ⟨e,sameShapes,refused⟩⟩
  · obtain ⟨quiet,e,sameShapes,sameLineages,updated⟩ := held
    obtain ⟨lineage,shape,there,after⟩ := updateInbound_shapes updated
    rw [sameShapes] at there after
    exact ⟨quiet,lineage.trans sameLineages,shape,there,after⟩

/-- How a replacement that fails leaves its tag: with what the stop left, without a
    listener, or with the old listener started again. -/
def ReplaceFailed (current registry : NormalizedInbound V) (lineage : Nat) (S S' : String → Option (Shape V)) : Prop :=
  Shrunk registry current.compiled.spec.tag S S' ∨
    ((S current.compiled.spec.tag).isSome ∧ S' = Function.update S current.compiled.spec.tag none) ∨
    ((S current.compiled.spec.tag).isSome ∧ ∃ kinds,
      S' = Function.update S current.compiled.spec.tag (some (addedShape current.compiled.spec lineage kinds)))

theorem ensures_replace (w : World V) (apart : Apart (shapes w.engine)) (current registry accounting new : NormalizedInbound V)
    (replay : InboundReplayLease) (keyed : Keyed registry) (sameTag : new.compiled.spec.tag = current.compiled.spec.tag) :
    Ensures (replaceInboundWithReplayOwners shoes current registry accounting new replay) w (Outcome
      (fun _ w' => Quiet w w' ∧ lineages w'.engine = lineages w.engine ∧ (shapes w.engine current.compiled.spec.tag).isSome ∧ ∃ kinds,
        shapes w'.engine = Function.update (shapes w.engine) current.compiled.spec.tag
          (some (addedShape new.compiled.spec replay.lineage kinds)))
      (fun _ w' => Quiet w w' ∧ lineages w'.engine = lineages w.engine ∧
        ReplaceFailed current registry replay.lineage (shapes w.engine) (shapes w'.engine))) := by
  refine Ensures.bind (ensures_stop w apart current registry accounting keyed) ?_
    (fun failure w' failed => ⟨failed.1,failed.2.1,.inl failed.2.2.1⟩)
  rintro _ w₁ ⟨quiet,lineage,there,down⟩
  refine Ensures.attempt_bind (ensures_callAddInboundWithReplay w₁ new.compiled.spec replay) ?_
  rintro (operation | value) w₂ held
  · obtain ⟨same,_⟩ := held
    have quiet₂ := quiet.trans same.toQuiet
    have lineage₂ := same.lineages.trans lineage
    have down₂ := same.shapes.trans down
    refine Ensures.attempt_bind (ensures_callAddInboundWithReplay w₂ current.compiled.spec replay) ?_
    rintro (rollback | value) w₃ held
    · obtain ⟨same',_⟩ := held
      exact Ensures.fail ⟨quiet₂.trans same'.toQuiet,same'.lineages.trans lineage₂,.inr (.inl ⟨there,same'.shapes.trans down₂⟩)⟩
    · obtain ⟨quiet₃,lineage₃,_,_,kinds,after⟩ := held
      refine Ensures.fail ⟨quiet₂.trans quiet₃,lineage₃.trans lineage₂,.inr (.inr ⟨there,kinds,?_⟩)⟩
      rw [after,down₂,Function.update_idem]
  · obtain ⟨quiet₂,lineage₂,_,_,kinds,after⟩ := held
    refine Ensures.pure ⟨quiet.trans quiet₂,lineage₂.trans lineage,there,kinds,?_⟩
    rw [after,down,sameTag,Function.update_idem]

end NodeAgent.Listeners
