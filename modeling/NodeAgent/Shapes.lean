import NodeAgent.EngineTable

/-!
What an engine call does to the table of inbounds, with counters left out. A shape is a
slot without the counters of its live users, so metering is invisible; every call
changes the shape of at most one tag, and the lemmas here say how.
-/
namespace NodeAgent.Shapes
open NodeAgent.Api NodeAgent.Credential NodeAgent.EngineTable NodeAgent.FiniteMap
variable {V : Type} {shoes : Shoes V} {e e' : Engine V} {tag id : String}

structure UsersShape where
  kinds : CredentialKinds
  specs : String → Option UserSpec
  tombstones : String → Option Counters

structure Shape (V : Type) where
  config : V
  lineage : Nat
  users : Option UsersShape

def usersShape (t : UserTable) : UsersShape :=
  ⟨t.kinds,fun id => (t.users[id]?).map EngineUser.spec,fun id => t.tombstones[id]?⟩

def slotShape (slot : Slot V) : Shape V := ⟨slot.config,slot.lineage,slot.registry.map usersShape⟩

def shapes (e : Engine V) (tag : String) : Option (Shape V) := (e.inbounds[tag]?).map slotShape

/-- The replay authority last published for each tag. -/
def lineages (e : Engine V) (tag : String) : Option Nat := e.published[tag]?

theorem shapes_insert (inbounds : Map String (Slot V)) (published : Map String Nat) (nextLineage : Nat) (tag : String)
    (slot : Slot V) : shapes ⟨inbounds.insert tag slot,published,nextLineage⟩ =
      Function.update (fun other => (inbounds[other]?).map slotShape) tag (some (slotShape slot)) := by
  funext other
  show ((inbounds.insert tag slot)[other]?).map slotShape = _
  rw [lookup_insert]
  by_cases same : tag = other
  · subst same; simp
  · rw [if_neg same,Function.update_of_ne (Ne.symm same)]

theorem shapes_setRegistry (e : Engine V) (tag : String) (slot : Slot V) (t : UserTable) :
    shapes (setRegistry e tag slot t) =
      Function.update (shapes e) tag (some ⟨slot.config,slot.lineage,some (usersShape t)⟩) :=
  shapes_insert e.inbounds e.published e.nextLineage tag { slot with registry := some t }

/-- A registry that answers belongs to a registered inbound. -/
theorem registryFor_ok {slot : Slot V} {t : UserTable} (found : registryFor e tag = .ok (slot,t)) :
    e.inbounds[tag]? = some slot ∧ slot.registry = some t := by
  unfold registryFor at found
  split at found
  · cases found
  · next present =>
    split at found
    · cases found
    · next answers => cases found; exact ⟨present,answers⟩

theorem shape_of_registry {slot : Slot V} {t : UserTable} (found : registryFor e tag = .ok (slot,t)) :
    shapes e tag = some ⟨slot.config,slot.lineage,some (usersShape t)⟩ := by
  obtain ⟨present,answers⟩ := registryFor_ok found
  unfold shapes slotShape
  rw [present,Option.map_some,answers]
  rfl

/-- A registry that changes nothing but counters keeps every shape. -/
theorem shapes_of_counters {slot : Slot V} {t t' : UserTable} (found : registryFor e tag = .ok (slot,t))
    (same : usersShape t' = usersShape t) : shapes (setRegistry e tag slot t') = shapes e := by
  rw [shapes_setRegistry,same,← shape_of_registry found,Function.update_eq_self]

theorem usersShape_counters {t : UserTable} {user : EngineUser} (held : t.users[id]? = some user) (counters : Counters) :
    usersShape { t with users := t.users.insert id { user with counters := counters } } = usersShape t := by
  unfold usersShape
  congr 1
  funext other
  rw [lookup_insert]
  by_cases same : id = other
  · subst same; rw [if_pos rfl,held]; rfl
  · rw [if_neg same]

theorem meter_shapes {traffic : Meter} (metered : meter e traffic = some e') :
    shapes e' = shapes e ∧ lineages e' = lineages e := by
  unfold meter at metered
  split at metered
  · cases metered
  · next found =>
    split at metered
    · cases metered
    · next held => cases metered; exact ⟨shapes_of_counters found (usersShape_counters held _),rfl⟩

theorem takeUserTraffic_shapes {receipt : Receipt} (taken : takeUserTraffic e tag id = .ok (receipt,e')) :
    shapes e' = shapes e ∧ lineages e' = lineages e := by
  unfold takeUserTraffic at taken
  split at taken
  · cases taken
  · next found =>
    split at taken
    · cases taken
    · next held => cases taken; exact ⟨shapes_of_counters found (usersShape_counters held _),rfl⟩

theorem takeNonzero_shapes {receipts : List Receipt} (taken : takeNonzeroInboundTraffic e tag = .ok (receipts,e')) :
    shapes e' = shapes e ∧ lineages e' = lineages e := by
  unfold takeNonzeroInboundTraffic at taken
  split at taken
  · cases taken
  · next slot t found =>
    cases taken
    refine ⟨shapes_of_counters found ?_,rfl⟩
    unfold usersShape
    congr 1
    funext other
    rw [Std.ExtTreeMap.getElem?_map,Option.map_map]
    rfl

/-! ### Users -/

/-- The users of a tag, with the shape they are part of. -/
def HasUsers (S : String → Option (Shape V)) (tag : String) (shape : Shape V) (users : UsersShape) : Prop :=
  S tag = some shape ∧ shape.users = some users

/-- The table with other users on one tag. -/
def withUsers (S : String → Option (Shape V)) (tag : String) (shape : Shape V) (users : UsersShape) : String → Option (Shape V) :=
  Function.update S tag (some { shape with users := some users })

theorem withUsers_apply (S : String → Option (Shape V)) (tag : String) (shape : Shape V) (users : UsersShape) (other : String) :
    withUsers S tag shape users other = if other = tag then some { shape with users := some users } else S other := by
  unfold withUsers
  rw [Function.update_apply]

theorem hasUsers_of_registry {slot : Slot V} {t : UserTable} (found : registryFor e tag = .ok (slot,t)) :
    HasUsers (shapes e) tag ⟨slot.config,slot.lineage,some (usersShape t)⟩ (usersShape t) := ⟨shape_of_registry found,rfl⟩

def UsersShape.add (users : UsersShape) (id : String) (spec : UserSpec) : UsersShape :=
  { users with specs := Function.update users.specs id (some spec) }

def UsersShape.remove (users : UsersShape) (id : String) : UsersShape :=
  { users with specs := Function.update users.specs id none }

def UsersShape.collect (users : UsersShape) (id : String) : UsersShape :=
  { users with tombstones := Function.update users.tombstones id none }

def UsersShape.strand (users : UsersShape) (id : String) (counters : Counters) : UsersShape :=
  { users.remove id with tombstones := Function.update users.tombstones id (some counters) }

theorem upsert_ok {d : Derivations} {t t' : UserTable} {spec : UserSpec} (upserted : upsert d t spec = .ok t') :
    ∃ id, spec.resolvedId = some id ∧ blank id = false ∧ t.tombstones[id]? = none ∧
      t' = { t with users := t.users.insert id (registered t id spec) } := by
  unfold upsert at upserted
  split at upserted
  · cases upserted
  next id resolved =>
  split at upserted
  · cases upserted
  next filled =>
  split at upserted
  · cases upserted
  next collected =>
  split at upserted
  · cases upserted
  split at upserted
  · cases upserted
  · cases upserted
    exact ⟨id,resolved,by simpa using filled,by simpa using collected,rfl⟩

theorem usersShape_insert (t : UserTable) (id : String) (user : EngineUser) :
    usersShape { t with users := t.users.insert id user } = (usersShape t).add id user.spec := by
  unfold usersShape UsersShape.add
  congr 1
  funext other
  rw [lookup_insert]
  by_cases same : id = other
  · subst same; simp
  · rw [if_neg same,Function.update_of_ne (Ne.symm same)]

theorem usersShape_erase (t : UserTable) (id : String) :
    usersShape { t with users := t.users.erase id } = (usersShape t).remove id := by
  unfold usersShape UsersShape.remove
  congr 1
  funext other
  rw [lookup_erase]
  by_cases same : id = other
  · subst same; simp
  · rw [if_neg same,Function.update_of_ne (Ne.symm same)]

theorem usersShape_collect (t : UserTable) (id : String) :
    usersShape { t with tombstones := t.tombstones.erase id } = (usersShape t).collect id := by
  unfold usersShape UsersShape.collect
  congr 1
  funext other
  rw [lookup_erase]
  by_cases same : id = other
  · subst same; simp
  · rw [if_neg same,Function.update_of_ne (Ne.symm same)]

theorem usersShape_strand (t : UserTable) (id : String) (counters : Counters) :
    usersShape { t with users := t.users.erase id, tombstones := t.tombstones.insert id counters } =
      (usersShape t).strand id counters := by
  have users := congrArg UsersShape.specs (usersShape_erase t id)
  unfold usersShape UsersShape.strand UsersShape.remove
  congr 1
  funext other
  rw [lookup_insert]
  by_cases same : id = other
  · subst same; simp
  · rw [if_neg same,Function.update_of_ne (Ne.symm same)]

/-- What an accepted upsert does. -/
theorem addUser_shapes {spec : UserSpec} (added : addUser shoes e tag spec = .ok e') :
    lineages e' = lineages e ∧ ∃ id shape users, spec.resolvedId = some id ∧ HasUsers (shapes e) tag shape users ∧
      users.tombstones id = none ∧ shapes e' = withUsers (shapes e) tag shape (users.add id spec) := by
  unfold addUser at added
  split at added
  · cases added
  next slot t found =>
  split at added
  · cases added
  next t' upserted =>
  cases added
  obtain ⟨id,resolved,_,collected,rfl⟩ := upsert_ok upserted
  refine ⟨rfl,id,_,usersShape t,resolved,hasUsers_of_registry found,collected,?_⟩
  rw [shapes_setRegistry,usersShape_insert]
  rfl

/-- What a removal that delivers its receipt does: the user goes, or its tombstone. -/
theorem removeUser_shapes {receipt : Receipt} (removed : removeUser e tag id = .ok (receipt,e')) :
    lineages e' = lineages e ∧ ∃ shape users, HasUsers (shapes e) tag shape users ∧
      (((users.specs id).isSome ∧ shapes e' = withUsers (shapes e) tag shape (users.remove id)) ∨
        (users.specs id = none ∧ (users.tombstones id).isSome ∧ shapes e' = withUsers (shapes e) tag shape (users.collect id))) := by
  unfold removeUser at removed
  split at removed
  · cases removed
  next slot t found =>
  split at removed
  · next user held =>
    cases removed
    refine ⟨rfl,_,usersShape t,hasUsers_of_registry found,.inl ⟨by simp [usersShape,held],?_⟩⟩
    rw [shapes_setRegistry,usersShape_erase]
    rfl
  · next absent =>
    split at removed
    · next counters waiting =>
      cases removed
      refine ⟨rfl,_,usersShape t,hasUsers_of_registry found,.inr ⟨by simp [usersShape,absent],by simp [usersShape,waiting],?_⟩⟩
      rw [shapes_setRegistry,usersShape_collect]
      rfl
    · cases removed

/-- What a removal whose finalizer fails does to a user that is there to remove. -/
theorem strandUser_shapes {receipt : Receipt} (removable : removeUser e tag id = .ok (receipt,e')) :
    lineages (strandUser e tag id) = lineages e ∧ ∃ shape users, HasUsers (shapes e) tag shape users ∧
      (((users.specs id).isSome ∧ ∃ counters, shapes (strandUser e tag id) = withUsers (shapes e) tag shape (users.strand id counters)) ∨
        (users.specs id = none ∧ (users.tombstones id).isSome ∧ shapes (strandUser e tag id) = shapes e)) := by
  unfold removeUser at removable
  split at removable
  · cases removable
  next slot t found =>
  split at removable
  · next user held =>
    have stranded : strandUser e tag id = setRegistry e tag slot
        { t with users := t.users.erase id, tombstones := t.tombstones.insert id user.counters } := by
      simp only [strandUser,found,held]
    rw [stranded]
    refine ⟨rfl,_,usersShape t,hasUsers_of_registry found,.inl ⟨by simp [usersShape,held],user.counters,?_⟩⟩
    rw [shapes_setRegistry,usersShape_strand]
    rfl
  · next absent =>
    have stranded : strandUser e tag id = e := by simp only [strandUser,found,absent]
    rw [stranded]
    split at removable
    · next waiting =>
      exact ⟨rfl,_,usersShape t,hasUsers_of_registry found,.inr ⟨by simp [usersShape,absent],by simp [usersShape,waiting],rfl⟩⟩
    · cases removable

/-! ### Inbounds -/

theorem removeInboundHard_shapes (removed : removeInboundHard e tag = .ok e') :
    lineages e' = lineages e ∧ (shapes e tag).isSome ∧ shapes e' = Function.update (shapes e) tag none := by
  unfold removeInboundHard at removed
  split at removed
  · cases removed
  next slot present =>
  cases removed
  refine ⟨rfl,by simp [shapes,present],?_⟩
  funext other
  show ((e.inbounds.erase tag)[other]?).map slotShape = _
  rw [lookup_erase]
  by_cases same : tag = other
  · subst same; simp
  · rw [if_neg same,Function.update_of_ne (Ne.symm same)]
    rfl

theorem updateInbound_shapes {config : V} (updated : updateInbound shoes e tag config = .ok e') :
    lineages e' = lineages e ∧ ∃ shape, shapes e tag = some shape ∧
      shapes e' = Function.update (shapes e) tag (some { shape with config := config }) := by
  unfold updateInbound at updated
  split at updated
  · cases updated
  next slot present =>
  split at updated
  · cases updated
  split at updated
  · cases updated
  split at updated
  · cases updated
  cases updated
  refine ⟨rfl,slotShape slot,by simp [shapes,present],?_⟩
  exact shapes_insert e.inbounds e.published e.nextLineage tag { slot with config := config }

/-- The specs of a list of users, the first of an id first. -/
def listSpecs (users : List UserSpec) (id : String) : Option UserSpec := users.find? (fun user => user.resolvedId = some id)

theorem insertUsers_shape {d : Derivations} {users : List UserSpec} {t t' : UserTable} (inserted : insertUsers d t users = .ok t') :
    (∀ id, (usersShape t').specs id = ((usersShape t).specs id).or (listSpecs users id)) ∧
      (usersShape t').tombstones = (usersShape t).tombstones ∧ t'.kinds = t.kinds := by
  induction users generalizing t with
  | nil =>
    cases inserted
    exact ⟨fun id => by simp [listSpecs],rfl,rfl⟩
  | cons user rest ih =>
    unfold insertUsers at inserted
    split at inserted
    · cases inserted
    next id resolved =>
    split at inserted
    · cases inserted
    next fresh =>
    split at inserted
    · cases inserted
    next middle upserted =>
    obtain ⟨other,again,_,_,rfl⟩ := upsert_ok upserted
    rw [resolved,Option.some.injEq] at again
    subst again
    obtain ⟨specs,tombstones,kinds⟩ := ih inserted
    rw [usersShape_insert] at specs tombstones
    refine ⟨?_,tombstones,kinds⟩
    intro found
    rw [specs found]
    have absent : (usersShape t).specs id = none := by simpa [usersShape] using fresh
    by_cases same : found = id
    · subst same
      simp [UsersShape.add,registered,absent,listSpecs,resolved]
    · have apart : ¬ user.resolvedId = some found := by
        rw [resolved,Option.some.injEq]
        exact Ne.symm same
      simp [UsersShape.add,Function.update_of_ne same,listSpecs,apart]

/-- Users come into a registry with nothing on their counters. -/
theorem insertUsers_zero {d : Derivations} {users : List UserSpec} {t t' : UserTable} (inserted : insertUsers d t users = .ok t')
    (zero : ∀ (id : String) (user : EngineUser), t.users[id]? = some user → user.counters = Counters.zero) :
    ∀ (id : String) (user : EngineUser), t'.users[id]? = some user → user.counters = Counters.zero := by
  induction users generalizing t with
  | nil => cases inserted; exact zero
  | cons first rest ih =>
    unfold insertUsers at inserted
    split at inserted
    · cases inserted
    next id resolved =>
    split at inserted
    · cases inserted
    next fresh =>
    split at inserted
    · cases inserted
    next middle upserted =>
    obtain ⟨other,again,_,_,rfl⟩ := upsert_ok upserted
    rw [resolved,Option.some.injEq] at again
    subst again
    refine ih inserted ?_
    intro found user held
    rw [lookup_insert] at held
    split at held
    · cases held
      have absent : t.users[id]? = none := by simpa using fresh
      simp [registered,absent]
    · exact zero found user held

/-- What a built registry holds: the listed users, no tombstone, and no bytes. -/
theorem buildUserRegistry_ok {config : V} {users : Option (List UserSpec)} {registry : Option UserTable}
    (built : buildUserRegistry shoes config users = .ok registry) :
    registry.isSome = users.isSome ∧ ∀ t, registry = some t → shoes.registryKinds config = .ok t.kinds ∧
      (usersShape t).specs = listSpecs (users.getD []) ∧ (usersShape t).tombstones = (fun _ => none) ∧
      ∀ (id : String) (user : EngineUser), t.users[id]? = some user → user.counters = Counters.zero := by
  unfold buildUserRegistry at built
  split at built
  · cases built
    exact ⟨rfl,fun t same => by cases same⟩
  next users =>
  split at built
  · cases built
  next kinds asked =>
  split at built
  · cases built
  next t filled =>
  cases built
  refine ⟨rfl,?_⟩
  intro t' same
  cases same
  obtain ⟨specs,tombstones,sameKinds⟩ := insertUsers_shape filled
  refine ⟨by rw [sameKinds]; exact asked,?_,?_,insertUsers_zero filled (by intro id user held; simp at held)⟩
  · funext id
    rw [specs id]
    simp [usersShape]
  · rw [tombstones]
    funext id
    simp [usersShape]

/-- The shape of an inbound that was just added. -/
def addedShape (spec : InboundSpec V) (lineage : Nat) (kinds : CredentialKinds) : Shape V :=
  ⟨spec.config,lineage,spec.users.map (fun users => ⟨kinds,listSpecs users,fun _ => none⟩)⟩

/-- What an add that succeeds does. -/
theorem addInboundInner_shapes {spec : InboundSpec V} {admission : Admission}
    (added : addInboundInner shoes e spec admission = .ok e') :
    shapes e spec.tag = none ∧ ∃ lineage kinds, shapes e' = Function.update (shapes e) spec.tag (some (addedShape spec lineage kinds)) ∧
      lineages e' = Function.update (lineages e) spec.tag (some lineage) ∧
      (∀ lease, admission = .preserved lease → lineages e spec.tag = some lease.lineage ∧ lineage = lease.lineage) ∧
      (spec.users.isSome → shoes.registryKinds spec.config = .ok kinds) := by
  unfold addInboundInner at added
  split at added
  · cases added
  split at added
  · cases added
  split at added
  · cases added
  next registry built =>
  split at added
  · cases added
  next absent =>
  split at added
  · cases added
  next lineage nextLineage prepared =>
  split at added
  · cases added
  cases added
  obtain ⟨presence,contents⟩ := buildUserRegistry_ok built
  have none_there : e.inbounds[spec.tag]? = none := by simpa using absent
  have shape : ∃ kinds, slotShape ⟨spec.config,registry,lineage⟩ = addedShape spec lineage kinds ∧
      (spec.users.isSome → shoes.registryKinds spec.config = .ok kinds) := by
    cases registry with
    | none =>
      have classic : spec.users = none := by
        cases listed : spec.users with
        | none => rfl
        | some users => rw [listed] at presence; cases presence
      exact ⟨⟨false,false,false,.none,false,false,false⟩,by simp [slotShape,addedShape,classic],by simp [classic]⟩
    | some t =>
      obtain ⟨asked,specs,tombstones,_⟩ := contents t rfl
      obtain ⟨users,listed⟩ : ∃ users, spec.users = some users := by
        cases listed : spec.users with
        | none => rw [listed] at presence; cases presence
        | some users => exact ⟨users,rfl⟩
      refine ⟨t.kinds,?_,fun _ => asked⟩
      rw [listed] at specs
      have whole : usersShape t = ⟨t.kinds,listSpecs users,fun _ => none⟩ := by
        have specs' : (usersShape t).specs = listSpecs users := specs
        rw [← specs',← tombstones]
        rfl
      simp [slotShape,addedShape,listed,whole]
  obtain ⟨kinds,shape,asked⟩ := shape
  refine ⟨by simp [shapes,none_there],lineage,kinds,?_,?_,?_,asked⟩
  · rw [← shape]
    exact shapes_insert e.inbounds _ _ spec.tag ⟨spec.config,registry,lineage⟩
  · funext other
    show (e.published.insert spec.tag lineage)[other]? = _
    rw [lookup_insert]
    by_cases same : spec.tag = other
    · subst same; simp
    · rw [if_neg same,Function.update_of_ne (Ne.symm same)]
      rfl
  · rintro lease rfl
    simp only [prepare] at prepared
    split at prepared
    · next published => cases prepared; exact ⟨published,rfl⟩
    · cases prepared

theorem addInboundWithReplay_shapes {spec : InboundSpec V} {lease : InboundReplayLease}
    (added : addInboundWithReplay shoes e spec lease = .ok e') :
    shapes e spec.tag = none ∧ lineages e spec.tag = some lease.lineage ∧ lineages e' = lineages e ∧
      ∃ kinds, shapes e' = Function.update (shapes e) spec.tag (some (addedShape spec lease.lineage kinds)) := by
  unfold addInboundWithReplay at added
  split at added
  · cases added
  obtain ⟨absent,lineage,kinds,shape,published,preserved,_⟩ := addInboundInner_shapes added
  obtain ⟨admitted,rfl⟩ := preserved lease rfl
  refine ⟨absent,admitted,?_,kinds,shape⟩
  rw [published,← admitted,Function.update_eq_self]

end NodeAgent.Shapes
