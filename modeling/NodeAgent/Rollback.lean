import NodeAgent.Listeners
import NodeAgent.Transaction

/-!
What a journal undoes. Popping every inverse of a journal, each with success, turns the
table back into the one the transaction started from (`undoAll`); a pop that fails leaves
behind a generation that the runtime keeps track of, so that every inbound that is still
live has a known owner for all its users (`Rolling`).
-/
namespace NodeAgent.Rollback
open NodeAgent.Api NodeAgent.EngineTable NodeAgent.Fallible NodeAgent.FiniteMap NodeAgent.Listeners NodeAgent.Runtime NodeAgent.RuntimeCalls
  NodeAgent.Shapes NodeAgent.Transaction
variable {V : Type} {shoes : Shoes V}

/-! ### Tables -/

/-- What an inbound is configured to be: its config, and its users if it has a registry. -/
@[ext] structure View (V : Type) where
  config : V
  users : Option (String → Option UserSpec)

abbrev Table (V : Type) := String → Option (View V)

def viewOf (shape : Shape V) : View V := ⟨shape.config,shape.users.map UsersShape.specs⟩

def table (S : String → Option (Shape V)) : Table V := fun tag => (S tag).map viewOf

def inboundView (inbound : NormalizedInbound V) : View V :=
  ⟨inbound.compiled.spec.config,if inbound.dynamicUsers then some (fun id => inbound.users[id]?) else none⟩

/-- The table that a config describes. -/
def tableOf (config : NormalizedConfig V) : Table V := fun tag => (config.inbounds[tag]?).map inboundView

theorem table_update (S : String → Option (Shape V)) (tag : String) (shape : Option (Shape V)) :
    table (Function.update S tag shape) = Function.update (table S) tag (shape.map viewOf) := by
  funext other
  unfold table
  by_cases same : other = tag
  · subst same; simp
  · rw [Function.update_of_ne same,Function.update_of_ne same]

/-- The table with another entry for one user, on a tag that has users. -/
def setUser (t : Table V) (tag id : String) (spec : Option UserSpec) : Table V :=
  match t tag with
  | some ⟨config,some specs⟩ => Function.update t tag (some ⟨config,some (Function.update specs id spec)⟩)
  | _ => t

theorem table_withUsers {S : String → Option (Shape V)} {tag : String} {shape : Shape V} {users users' : UsersShape} {id : String}
    {spec : Option UserSpec} (has : HasUsers S tag shape users) (specs : users'.specs = Function.update users.specs id spec) :
    table (withUsers S tag shape users') = setUser (table S) tag id spec := by
  have view : table S tag = some ⟨shape.config,some users.specs⟩ := by simp [table,has.1,viewOf,has.2]
  have defined : setUser (table S) tag id spec =
      Function.update (table S) tag (some ⟨shape.config,some (Function.update users.specs id spec)⟩) := by
    unfold setUser
    rw [view]
  rw [defined,← specs,withUsers,table_update]
  rfl

/-! ### Normal configs -/

/-- What normalization promises of an inbound: its key is its tag, and its users are
    those of its spec, by id. -/
structure Normal (tag : String) (inbound : NormalizedInbound V) : Prop where
  tag : inbound.compiled.spec.tag = tag
  users : ∀ id, inbound.users[id]? = listSpecs (inbound.compiled.spec.users.getD []) id
  dynamic : inbound.dynamicUsers = inbound.compiled.spec.users.isSome

def WellFormed (config : NormalizedConfig V) : Prop :=
  ∀ (tag : String) (inbound : NormalizedInbound V), config.inbounds[tag]? = some inbound → Normal tag inbound

theorem Normal.keyed {tag : String} {inbound : NormalizedInbound V} (normal : Normal tag inbound) : Keyed inbound := by
  intro id spec held
  rw [normal.users id] at held
  simpa using List.find?_some held

theorem Normal.classic {tag : String} {inbound : NormalizedInbound V} (normal : Normal tag inbound) (classic : inbound.dynamicUsers = false)
    (id : String) : inbound.users[id]? = none := by
  rw [normal.dynamic] at classic
  have none_listed : inbound.compiled.spec.users = none := by simpa using classic
  rw [normal.users,none_listed]
  rfl

/-- A started inbound shows what it is configured to be. -/
theorem Normal.view {tag : String} {inbound : NormalizedInbound V} (normal : Normal tag inbound) (lineage : Nat)
    (kinds : Credential.CredentialKinds) : viewOf (addedShape inbound.compiled.spec lineage kinds) = inboundView inbound := by
  unfold viewOf addedShape inboundView
  rw [normal.dynamic]
  cases listed : inbound.compiled.spec.users with
  | none => simp
  | some users =>
    have same : (fun id => inbound.users[id]?) = listSpecs users := by
      funext id
      rw [normal.users id,listed]
      rfl
    simp [same]

/-! ### Inverses -/

def undoTag : Undo V → String
  | .addInbound inbound _ => inbound.compiled.spec.tag
  | .removeInbound live _ => live.compiled.spec.tag
  | .restoreHotConfig current _ _ => current.compiled.spec.tag
  | .addUser inbound _ => inbound.compiled.spec.tag
  | .removeUser live _ _ => live.compiled.spec.tag
  | .restoreUser inbound _ _ => inbound.compiled.spec.tag

/-- What an inverse does to the table when it succeeds. -/
def undoTable (t : Table V) : Undo V → Table V
  | .addInbound inbound _ => Function.update t inbound.compiled.spec.tag (some (inboundView inbound))
  | .removeInbound live _ => Function.update t live.compiled.spec.tag none
  | .restoreHotConfig current previous _ => Function.update t current.compiled.spec.tag (some (inboundView previous))
  | .addUser inbound user => setUser t inbound.compiled.spec.tag (user.resolvedId.getD "<unknown>") (some user)
  | .removeUser live _ userId => setUser t live.compiled.spec.tag userId none
  | .restoreUser inbound user _ => setUser t inbound.compiled.spec.tag (user.resolvedId.getD "<unknown>") (some user)

/-- The table after a whole journal, the latest inverse first. -/
def undoAll (journal : List (Undo V)) (t : Table V) : Table V := journal.foldl undoTable t

/-- Nobody waits for a collection. -/
def NoTombstones (S : String → Option (Shape V)) : Prop :=
  ∀ tag shape users id, HasUsers S tag shape users → users.tombstones id = none

/-- The journal leads back to the published config, and nothing else is left to do. -/
def Exact (old : NormalizedConfig V) (journal : List (Undo V)) (S : String → Option (Shape V)) : Prop :=
  undoAll journal (table S) = tableOf old ∧ NoTombstones S

/-- An inverse belongs to a transaction from one config to another, with these replay
    authorities. -/
def Consistent (old new : NormalizedConfig V) (authority : String → Option Nat) : Undo V → Prop
  | .addInbound inbound lease => old.inbounds[inbound.compiled.spec.tag]? = some inbound ∧
      authority inbound.compiled.spec.tag = some lease.lineage
  | .removeInbound live accounting => new.inbounds[live.compiled.spec.tag]? = some live ∧
      accounting.compiled.spec.tag = live.compiled.spec.tag ∧
      ∀ inbound, old.inbounds[live.compiled.spec.tag]? = some inbound → accounting = inbound
  | .restoreHotConfig current previous lease => new.inbounds[current.compiled.spec.tag]? = some current ∧
      old.inbounds[current.compiled.spec.tag]? = some previous ∧ current.dynamicUsers = previous.dynamicUsers ∧
      authority current.compiled.spec.tag = some lease.lineage
  | .addUser inbound user => old.inbounds[inbound.compiled.spec.tag]? = some inbound ∧ ∃ id : String, inbound.users[id]? = some user
  | .removeUser live accounting userId => new.inbounds[live.compiled.spec.tag]? = some live ∧
      old.inbounds[live.compiled.spec.tag]? = some accounting ∧ live.dynamicUsers = accounting.dynamicUsers ∧
      (live.users[userId]?).isSome
  | .restoreUser inbound user _ => old.inbounds[inbound.compiled.spec.tag]? = some inbound ∧ ∃ id : String, inbound.users[id]? = some user

/-- A candidate was started under the tag and its stop is still to come. -/
def Starts (journal : List (Undo V)) (tag : String) : Prop :=
  ∃ live accounting, .removeInbound live accounting ∈ journal ∧ live.compiled.spec.tag = tag

/-- Nothing is journalled for a tag after its candidate was started. -/
def Ordered : List (Undo V) → Prop
  | [] => True
  | undo :: rest => ¬ Starts rest (undoTag undo) ∧ Ordered rest

/-! ### Owners of what is live -/

/-- Everybody on the inbound is a user of this config. -/
structure Covers (inbound : NormalizedInbound V) (shape : Shape V) : Prop where
  mode : shape.users.isSome = inbound.dynamicUsers
  ids : ∀ users id, shape.users = some users → Present users id → (inbound.users[id]?).isSome

/-- Everybody on the inbound is a user of the live or of the accounting generation. -/
structure CoversRetiring (retiring : RetiringInbound V) (shape : Shape V) : Prop where
  mode : shape.users.isSome = retiring.live.dynamicUsers
  ids : ∀ users id, shape.users = some users → Present users id →
    (retiring.live.users[id]?).isSome ∨ (retiring.accounting.users[id]?).isSome

/-- Everybody on the inbound is a user of the published config, or the journal is going
    to remove him. -/
structure Scheduled (old : NormalizedConfig V) (journal : List (Undo V)) (tag : String) (inbound : NormalizedInbound V) (shape : Shape V) :
    Prop where
  published : old.inbounds[tag]? = some inbound
  mode : shape.users.isSome = inbound.dynamicUsers
  ids : ∀ users id, shape.users = some users → Present users id → (inbound.users[id]?).isSome ∨
    ∃ live accounting, .removeUser live accounting id ∈ journal ∧ live.compiled.spec.tag = tag

/-- A live inbound is a candidate that the journal stops, or one of the published config. -/
def Owned (old : NormalizedConfig V) (journal : List (Undo V)) (tag : String) (shape : Shape V) : Prop :=
  (∃ live accounting, .removeInbound live accounting ∈ journal ∧ live.compiled.spec.tag = tag ∧ Covers live shape) ∨
    (¬ Starts journal tag ∧ ∃ inbound, Scheduled old journal tag inbound shape)

/-- An entry for a generation that an undo failed to take back. -/
structure Candidate (old new : NormalizedConfig V) (tag : String) (retiring : RetiringInbound V) : Prop where
  live : new.inbounds[tag]? = some retiring.live
  own : retiring.accounting.compiled.spec.tag = tag
  accounting : ∀ inbound, old.inbounds[tag]? = some inbound → retiring.accounting = inbound

/-- An entry for a generation of the published config. -/
def Published (old : NormalizedConfig V) (tag : String) (retiring : RetiringInbound V) : Prop :=
  old.inbounds[tag]? = some retiring.live ∧ retiring.accounting = retiring.live

/-- What is known of a live inbound while the journal is rolled back. -/
def Known (old new : NormalizedConfig V) (journal : List (Undo V)) (live : Map String (RetiringInbound V)) (tag : String) (shape : Shape V) :
    Prop :=
  (¬ Starts journal tag ∧ ∃ retiring, live[tag]? = some retiring ∧ Candidate old new tag retiring ∧ CoversRetiring retiring shape) ∨
    ((∀ retiring, live[tag]? = some retiring → Published old tag retiring) ∧ Owned old journal tag shape)

/-- The state of a rollback: what is left of the journal, what survived so far, and
    whether any inverse has failed. -/
structure Rolling (old new : NormalizedConfig V) (authority : String → Option Nat) (restored : Bool) (journal : List (Undo V))
    (errors : List String) (live : Map String (RetiringInbound V)) (e : Engine V) : Prop where
  apart : Apart (shapes e)
  authorities : ∀ tag, (old.inbounds[tag]?).isSome → lineages e tag = authority tag
  consistent : ∀ undo ∈ journal, Consistent old new authority undo
  ordered : Ordered journal
  known : ∀ tag shape, shapes e tag = some shape → Known old new journal live tag shape
  exact : restored = true → errors = [] → Exact old journal (shapes e)
  clean : errors = [] → ∀ (tag : String) (retiring : RetiringInbound V), live[tag]? = some retiring → Published old tag retiring

/-! ### What an inverse does -/

/-- The table after an inverse that succeeded. -/
def Undone (S S' : String → Option (Shape V)) : Undo V → Prop
  | .addInbound inbound replay => ∃ kinds,
      S' = Function.update S inbound.compiled.spec.tag (some (addedShape inbound.compiled.spec replay.lineage kinds))
  | .removeInbound live _ => S' = Function.update S live.compiled.spec.tag none
  | .restoreHotConfig current previous replay => ∃ kinds,
      S' = Function.update S current.compiled.spec.tag (some (addedShape previous.compiled.spec replay.lineage kinds))
  | .addUser inbound user => Added inbound.compiled.spec.tag user S S'
  | .removeUser live _ userId => Dropped live.compiled.spec.tag userId S S'
  | .restoreUser inbound user _ => Added inbound.compiled.spec.tag user S S'

/-- The table after an inverse that failed. -/
def UndoFailed (S S' : String → Option (Shape V)) : Undo V → Prop
  | .addInbound _ _ => S' = S
  | .removeInbound live _ => Shrunk live live.compiled.spec.tag S S'
  | .restoreHotConfig current previous replay => ReplaceFailed current previous replay.lineage S S'
  | .addUser _ _ => S' = S
  | .removeUser live _ userId => S' = S ∨ Stranded live.compiled.spec.tag userId S S'
  | .restoreUser inbound user _ => S' = S ∨ Added inbound.compiled.spec.tag user S S'

variable {old new : NormalizedConfig V} {authority : String → Option Nat}

/-- The configs that an inverse names are normal. -/
theorem Consistent.normal {undo : Undo V} (wellFormedOld : WellFormed old) (wellFormedNew : WellFormed new)
    (consistent : Consistent old new authority undo) : match undo with
      | .addInbound inbound _ => Keyed inbound
      | .removeInbound live _ => Keyed live
      | .restoreHotConfig current previous _ => Keyed previous ∧ previous.compiled.spec.tag = current.compiled.spec.tag
      | _ => True := by
  cases undo with
  | addInbound inbound replay => exact (wellFormedOld _ _ consistent.1).keyed
  | removeInbound live accounting => exact (wellFormedNew _ _ consistent.1).keyed
  | restoreHotConfig current previous replay =>
    have normal := wellFormedOld _ _ consistent.2.1
    exact ⟨normal.keyed,normal.tag⟩
  | addUser _ _ => trivial
  | removeUser _ _ _ => trivial
  | restoreUser _ _ _ => trivial

theorem ensures_performUndo {w : World V} {undo : Undo V} (apart : Apart (shapes w.engine)) (wellFormedOld : WellFormed old)
    (wellFormedNew : WellFormed new) (consistent : Consistent old new authority undo) :
    Ensures (performUndo shoes undo) w (Outcome
      (fun _ w' => Quiet w w' ∧ lineages w'.engine = lineages w.engine ∧ Undone (shapes w.engine) (shapes w'.engine) undo)
      (fun _ w' => Quiet w w' ∧ lineages w'.engine = lineages w.engine ∧ UndoFailed (shapes w.engine) (shapes w'.engine) undo)) := by
  have normal := consistent.normal wellFormedOld wellFormedNew
  cases undo with
  | addInbound inbound replay =>
    refine Ensures.orFail (ensures_callAddInboundWithReplay w inbound.compiled.spec replay) ?_ ?_
    · rintro _ w' ⟨quiet,lineage,_,_,after⟩
      exact ⟨quiet,lineage,after⟩
    · rintro error w' ⟨same,_⟩
      exact ⟨same.toQuiet,same.lineages,same.shapes⟩
  | removeInbound live accounting =>
    refine Ensures.orFail (ensures_stop w apart live live accounting normal) ?_ ?_
    · rintro _ w' ⟨quiet,lineage,_,down⟩
      exact ⟨quiet,lineage,down⟩
    · rintro failure w' ⟨quiet,lineage,shrunk,_⟩
      exact ⟨quiet,lineage,shrunk⟩
  | restoreHotConfig current previous replay =>
    refine Ensures.orFail (ensures_replace w apart current previous previous previous replay normal.1 normal.2) ?_ ?_
    · rintro _ w' ⟨quiet,lineage,_,after⟩
      exact ⟨quiet,lineage,after⟩
    · rintro failure w' failed
      exact failed
  | addUser inbound user =>
    refine Ensures.orFail (ensures_callAddUser w inbound.compiled.spec.tag user) ?_ ?_
    · rintro _ w' added
      exact added
    · rintro error w' ⟨same,_⟩
      exact ⟨same.toQuiet,same.lineages,same.shapes⟩
  | removeUser live accounting userId =>
    refine Ensures.orFail (ensures_collectUser w apart live.compiled.spec.tag accounting userId) ?_ ?_
    · rintro _ w' dropped
      exact dropped
    · rintro failure w' ⟨quiet,lineage,failed⟩
      refine ⟨quiet,lineage,?_⟩
      cases failure with
      | reserve error => exact .inl failed
      | remove failure =>
        rcases failed with ⟨_,_,_,stranded⟩ | ⟨_,same,_⟩
        · exact .inr stranded
        · exact .inl same
  | restoreUser inbound user kick =>
    refine Ensures.bind (Ensures.orFail (R := Outcome
      (fun _ w' => Quiet w w' ∧ lineages w'.engine = lineages w.engine ∧
        Added inbound.compiled.spec.tag user (shapes w.engine) (shapes w'.engine))
      (fun _ w' => Same w w')) (ensures_callAddUser w inbound.compiled.spec.tag user) ?_ ?_) ?_ ?_
    · rintro _ w' added
      exact added
    · rintro error w' ⟨same,_⟩
      exact same
    · rintro _ w₁ ⟨quiet,lineage,added⟩
      cases kick with
      | false => exact Ensures.pure ⟨quiet,lineage,added⟩
      | true =>
        refine Ensures.orFail (ensures_ask w₁) ?_ ?_
        · rintro _ w₂ ⟨same,_⟩
          exact ⟨quiet.trans same.toQuiet,same.lineages.trans lineage,by rw [same.shapes]; exact added⟩
        · rintro error w₂ ⟨same,_⟩
          exact ⟨quiet.trans same.toQuiet,same.lineages.trans lineage,.inr (by rw [same.shapes]; exact added)⟩
    · rintro error w' same
      exact ⟨same.toQuiet,same.lineages,.inl same.shapes⟩

/-! ### Tables after an inverse -/

variable {S S' : String → Option (Shape V)} {tag : String} {undo : Undo V}

theorem hasUsers_update {slot : Option (Shape V)} {other : String} {shape : Shape V} {users : UsersShape}
    (has : HasUsers (Function.update S tag slot) other shape users) :
    (slot = some shape ∧ shape.users = some users) ∨ HasUsers S other shape users := by
  obtain ⟨there,registry⟩ := has
  by_cases same : other = tag
  · rw [same,Function.update_self] at there
    exact .inl ⟨there,registry⟩
  · rw [Function.update_of_ne same] at there
    exact .inr ⟨there,registry⟩

theorem addedShape_tombstones {spec : InboundSpec V} {lineage : Nat} {kinds : Credential.CredentialKinds} {users : UsersShape}
    (registry : (addedShape spec lineage kinds).users = some users) (id : String) : users.tombstones id = none := by
  unfold addedShape at registry
  simp only [Option.map_eq_some_iff] at registry
  obtain ⟨listed,_,rfl⟩ := registry
  rfl

theorem apart_removed (apart : Apart S) : Apart (Function.update S tag none) := by
  intro other shape users id has registered
  rcases hasUsers_update has with ⟨gone,_⟩ | before
  · cases gone
  · exact apart other shape users id before registered

theorem apart_started {spec : InboundSpec V} {lineage : Nat} {kinds : Credential.CredentialKinds} (apart : Apart S) :
    Apart (Function.update S tag (some (addedShape spec lineage kinds))) := by
  intro other shape users id has registered
  rcases hasUsers_update has with ⟨started,registry⟩ | before
  · cases started
    exact addedShape_tombstones registry id
  · exact apart other shape users id before registered

theorem apart_config {shape : Shape V} {config : V} (apart : Apart S) (there : S tag = some shape) :
    Apart (Function.update S tag (some { shape with config := config })) := by
  intro other shape' users id has registered
  rcases hasUsers_update has with ⟨same,registry⟩ | before
  · cases same
    exact apart tag shape users id ⟨there,registry⟩ registered
  · exact apart other shape' users id before registered

theorem apart_added {spec : UserSpec} (apart : Apart S) (added : Added tag spec S S') : Apart S' := by
  obtain ⟨id,shape,users,_,has,collected,rfl⟩ := added
  exact apart_add apart has collected

theorem apart_shrunk {registry : NormalizedInbound V} (apart : Apart S) (shrunk : Shrunk registry tag S S') : Apart S' := by
  rcases shrunk with rfl | ⟨shape,users,users',_,rfl,_,_,_,own⟩
  · exact apart
  · exact apart_withUsers apart own

theorem apart_undone (apart : Apart S) (undone : Undone S S' undo) : Apart S' := by
  cases undo with
  | addInbound inbound replay => obtain ⟨kinds,rfl⟩ := undone; exact apart_started apart
  | removeInbound live accounting => cases undone; exact apart_removed apart
  | restoreHotConfig current previous replay => obtain ⟨kinds,rfl⟩ := undone; exact apart_started apart
  | addUser inbound user => exact apart_added apart undone
  | removeUser live accounting userId => exact apart_dropped apart undone
  | restoreUser inbound user kick => exact apart_added apart undone

theorem apart_undoFailed (apart : Apart S) (failed : UndoFailed S S' undo) : Apart S' := by
  cases undo with
  | addInbound inbound replay => cases failed; exact apart
  | removeInbound live accounting => exact apart_shrunk apart failed
  | restoreHotConfig current previous replay =>
    rcases failed with shrunk | ⟨_,rfl⟩ | ⟨_,kinds,rfl⟩
    · exact apart_shrunk apart shrunk
    · exact apart_removed apart
    · exact apart_started apart
  | addUser inbound user => cases failed; exact apart
  | removeUser live accounting userId =>
    rcases failed with rfl | stranded
    · exact apart
    · exact apart_stranded apart stranded
  | restoreUser inbound user kick =>
    rcases failed with rfl | added
    · exact apart
    · exact apart_added apart added

theorem noTombstones_started {spec : InboundSpec V} {lineage : Nat} {kinds : Credential.CredentialKinds} (collected : NoTombstones S) :
    NoTombstones (Function.update S tag (some (addedShape spec lineage kinds))) := by
  intro other shape users id has
  rcases hasUsers_update has with ⟨started,registry⟩ | before
  · cases started
    exact addedShape_tombstones registry id
  · exact collected other shape users id before

theorem noTombstones_config {shape : Shape V} {config : V} (collected : NoTombstones S) (there : S tag = some shape) :
    NoTombstones (Function.update S tag (some { shape with config := config })) := by
  intro other shape' users id has
  rcases hasUsers_update has with ⟨same,registry⟩ | before
  · cases same
    exact collected tag shape users id ⟨there,registry⟩
  · exact collected other shape' users id before

theorem noTombstones_removed (collected : NoTombstones S) : NoTombstones (Function.update S tag none) := by
  intro other shape users id has
  rcases hasUsers_update has with ⟨gone,_⟩ | before
  · cases gone
  · exact collected other shape users id before

theorem noTombstones_withUsers {shape : Shape V} {users : UsersShape} (collected : NoTombstones S)
    (own : ∀ id, users.tombstones id = none) : NoTombstones (withUsers S tag shape users) := by
  intro other shape' users' id has
  rcases hasUsers_update has with ⟨there,registry⟩ | before
  · cases there
    cases registry
    exact own id
  · exact collected other shape' users' id before

theorem noTombstones_added {spec : UserSpec} (collected : NoTombstones S) (added : Added tag spec S S') : NoTombstones S' := by
  obtain ⟨id,shape,users,_,has,_,rfl⟩ := added
  exact noTombstones_withUsers collected (fun other => collected tag shape users other has)

theorem noTombstones_dropped {id : String} (collected : NoTombstones S) (dropped : Dropped tag id S S') : NoTombstones S' := by
  obtain ⟨shape,users,has,_,rfl⟩ := dropped
  refine noTombstones_withUsers collected (fun other => ?_)
  rw [dropUser_tombstones]
  split
  · rfl
  · exact collected tag shape users other has

theorem noTombstones_undone (collected : NoTombstones S) (undone : Undone S S' undo) : NoTombstones S' := by
  cases undo with
  | addInbound inbound replay => obtain ⟨kinds,rfl⟩ := undone; exact noTombstones_started collected
  | removeInbound live accounting => cases undone; exact noTombstones_removed collected
  | restoreHotConfig current previous replay => obtain ⟨kinds,rfl⟩ := undone; exact noTombstones_started collected
  | addUser inbound user => exact noTombstones_added collected undone
  | removeUser live accounting userId => exact noTombstones_dropped collected undone
  | restoreUser inbound user kick => exact noTombstones_added collected undone

theorem table_added {spec : UserSpec} (added : Added tag spec S S') :
    table S' = setUser (table S) tag (spec.resolvedId.getD "<unknown>") (some spec) := by
  obtain ⟨id,shape,users,resolved,has,_,rfl⟩ := added
  rw [resolved]
  exact table_withUsers has rfl

theorem table_dropped {id : String} (dropped : Dropped tag id S S') : table S' = setUser (table S) tag id none := by
  obtain ⟨shape,users,has,_,rfl⟩ := dropped
  exact table_withUsers has rfl

/-- A successful inverse turns the table back as it promises. -/
theorem table_undone (wellFormed : WellFormed old) (consistent : Consistent old new authority undo) (undone : Undone S S' undo) :
    table S' = undoTable (table S) undo := by
  cases undo with
  | addInbound inbound replay =>
    obtain ⟨kinds,rfl⟩ := undone
    rw [table_update,Option.map_some,(wellFormed _ _ consistent.1).view]
    rfl
  | removeInbound live accounting =>
    cases undone
    rw [table_update]
    rfl
  | restoreHotConfig current previous replay =>
    obtain ⟨kinds,rfl⟩ := undone
    rw [table_update,Option.map_some,(wellFormed _ _ consistent.2.1).view]
    rfl
  | addUser inbound user => exact table_added undone
  | removeUser live accounting userId => exact table_dropped undone
  | restoreUser inbound user kick => exact table_added undone

theorem exact_undone {rest : List (Undo V)} (wellFormed : WellFormed old) (consistent : Consistent old new authority undo)
    (undone : Undone S S' undo) (exact : Exact old (undo :: rest) S) : Exact old rest S' := by
  refine ⟨?_,noTombstones_undone exact.2 undone⟩
  rw [table_undone wellFormed consistent undone]
  exact exact.1

/-! ### Owners after an inverse -/

/-- The inbound has no users that it did not have before. -/
structure Fewer (shape shape' : Shape V) : Prop where
  mode : shape'.users.isSome = shape.users.isSome
  ids : ∀ users' id, shape'.users = some users' → Present users' id → ∃ users, shape.users = some users ∧ Present users id

variable {shape shape' : Shape V} {rest journal : List (Undo V)} {live live' : Map String (RetiringInbound V)}

theorem Fewer.refl (shape : Shape V) : Fewer shape shape := ⟨rfl,fun users _ registry present => ⟨users,registry,present⟩⟩

theorem Fewer.trans {first second third : Shape V} (fewer : Fewer first second) (fewer' : Fewer second third) : Fewer first third := by
  refine ⟨fewer'.mode.trans fewer.mode,?_⟩
  intro users id registry present
  obtain ⟨users₁,registry₁,present₁⟩ := fewer'.ids users id registry present
  exact fewer.ids users₁ id registry₁ present₁

theorem Covers.fewer {inbound : NormalizedInbound V} (covers : Covers inbound shape) (fewer : Fewer shape shape') :
    Covers inbound shape' := by
  refine ⟨fewer.mode.trans covers.mode,?_⟩
  intro users' id registry present
  obtain ⟨users,before,was⟩ := fewer.ids users' id registry present
  exact covers.ids users id before was

theorem CoversRetiring.fewer {retiring : RetiringInbound V} (covers : CoversRetiring retiring shape) (fewer : Fewer shape shape') :
    CoversRetiring retiring shape' := by
  refine ⟨fewer.mode.trans covers.mode,?_⟩
  intro users' id registry present
  obtain ⟨users,before,was⟩ := fewer.ids users' id registry present
  exact covers.ids users id before was

theorem Covers.retiring {inbound accounting : NormalizedInbound V} (covers : Covers inbound shape) :
    CoversRetiring ⟨inbound,accounting⟩ shape :=
  ⟨covers.mode,fun users id registry present => .inl (covers.ids users id registry present)⟩

theorem fewer_shrunk {registry : NormalizedInbound V} (shrunk : Shrunk registry tag S S') (there : S' tag = some shape') :
    ∃ shape, S tag = some shape ∧ Fewer shape shape' := by
  rcases shrunk with rfl | ⟨shape,users,users',has,rfl,_,ids,_,_⟩
  · exact ⟨shape',there,Fewer.refl shape'⟩
  · rw [withUsers_apply,if_pos rfl,Option.some.injEq] at there
    subst there
    refine ⟨shape,has.1,by simp [has.2],?_⟩
    rintro other id registry present
    cases registry
    exact ⟨users,has.2,ids id present⟩

theorem fewer_dropped {id : String} (dropped : Dropped tag id S S') (there : S' tag = some shape') :
    ∃ shape, S tag = some shape ∧ Fewer shape shape' ∧ ∀ users', shape'.users = some users' → ¬ Present users' id := by
  obtain ⟨shape,users,has,_,rfl⟩ := dropped
  rw [withUsers_apply,if_pos rfl,Option.some.injEq] at there
  subst there
  refine ⟨shape,has.1,⟨by simp [has.2],?_⟩,?_⟩
  · rintro users' other registry present
    cases registry
    refine ⟨users,has.2,?_⟩
    unfold Present at present ⊢
    rw [dropUser_specs,dropUser_tombstones] at present
    split at present
    · rcases present with no | no <;> cases no
    · exact present
  · rintro users' registry present
    cases registry
    unfold Present at present
    rw [dropUser_specs,dropUser_tombstones,if_pos rfl,if_pos rfl] at present
    rcases present with no | no <;> cases no

theorem fewer_stranded {id : String} (stranded : Stranded tag id S S') (there : S' tag = some shape') :
    ∃ shape, S tag = some shape ∧ Fewer shape shape' := by
  obtain ⟨shape,users,counters,has,was,rfl⟩ := stranded
  rw [withUsers_apply,if_pos rfl,Option.some.injEq] at there
  subst there
  refine ⟨shape,has.1,by simp [has.2],?_⟩
  rintro users' other registry present
  cases registry
  refine ⟨users,has.2,?_⟩
  by_cases same : other = id
  · rw [same]; exact was
  · unfold Present at present ⊢
    simpa [UsersShape.strand,UsersShape.remove,Function.update_of_ne same] using present

/-- A started inbound has the users of its config. -/
theorem Normal.covers {inbound : NormalizedInbound V} (normal : Normal tag inbound) (lineage : Nat)
    (kinds : Credential.CredentialKinds) : Covers inbound (addedShape inbound.compiled.spec lineage kinds) := by
  refine ⟨?_,?_⟩
  · rw [normal.dynamic]
    simp [addedShape]
  · intro users id registry present
    rw [normal.users]
    have collected := addedShape_tombstones registry id
    unfold addedShape at registry
    simp only [Option.map_eq_some_iff] at registry
    obtain ⟨listed,found,rfl⟩ := registry
    rw [found]
    rcases present with registered | waiting
    · exact registered
    · rw [collected] at waiting; cases waiting

theorem elsewhere_withUsers {users : UsersShape} {other : String} (different : other ≠ tag) : withUsers S tag shape users other = S other := by
  rw [withUsers_apply,if_neg different]

/-- An inverse leaves the other tags alone. -/
theorem elsewhere_undone {other : String} (different : other ≠ undoTag undo) (undone : Undone S S' undo) : S' other = S other := by
  cases undo with
  | addInbound inbound replay => obtain ⟨kinds,rfl⟩ := undone; exact Function.update_of_ne different _ _
  | removeInbound live accounting => cases undone; exact Function.update_of_ne different _ _
  | restoreHotConfig current previous replay => obtain ⟨kinds,rfl⟩ := undone; exact Function.update_of_ne different _ _
  | addUser inbound user => obtain ⟨id,shape,users,_,_,_,rfl⟩ := undone; exact elsewhere_withUsers different
  | removeUser live accounting userId => obtain ⟨shape,users,_,_,rfl⟩ := undone; exact elsewhere_withUsers different
  | restoreUser inbound user kick => obtain ⟨id,shape,users,_,_,_,rfl⟩ := undone; exact elsewhere_withUsers different

theorem elsewhere_shrunk {registry : NormalizedInbound V} {other : String} (different : other ≠ tag) (shrunk : Shrunk registry tag S S') :
    S' other = S other := by
  rcases shrunk with rfl | ⟨shape,users,users',_,rfl,_⟩
  · rfl
  · exact elsewhere_withUsers different

theorem elsewhere_undoFailed {other : String} (different : other ≠ undoTag undo) (failed : UndoFailed S S' undo) : S' other = S other := by
  cases undo with
  | addInbound inbound replay => cases failed; rfl
  | removeInbound live accounting => exact elsewhere_shrunk different failed
  | restoreHotConfig current previous replay =>
    rcases failed with shrunk | ⟨_,rfl⟩ | ⟨_,kinds,rfl⟩
    · exact elsewhere_shrunk different shrunk
    · exact Function.update_of_ne different _ _
    · exact Function.update_of_ne different _ _
  | addUser inbound user => cases failed; rfl
  | removeUser live accounting userId =>
    rcases failed with rfl | ⟨shape,users,counters,_,_,rfl⟩
    · rfl
    · exact elsewhere_withUsers different
  | restoreUser inbound user kick =>
    rcases failed with rfl | ⟨id,shape,users,_,_,_,rfl⟩
    · rfl
    · exact elsewhere_withUsers different

/-- The inverse neither stops a candidate of the tag nor removes one of its users. -/
structure Silent (undo : Undo V) (tag : String) : Prop where
  inbound : ∀ live accounting, undo = .removeInbound live accounting → live.compiled.spec.tag ≠ tag
  user : ∀ live accounting id, undo = .removeUser live accounting id → live.compiled.spec.tag ≠ tag

theorem silent_elsewhere (different : tag ≠ undoTag undo) : Silent undo tag := by
  constructor
  · rintro live accounting rfl same; exact different same.symm
  · rintro live accounting id rfl same; exact different same.symm

theorem starts_rest (silent : Silent undo tag) : Starts (undo :: rest) tag ↔ Starts rest tag := by
  constructor
  · rintro ⟨live,accounting,member,own⟩
    rcases List.mem_cons.mp member with head | later
    · exact absurd own (silent.inbound live accounting head.symm)
    · exact ⟨live,accounting,later,own⟩
  · rintro ⟨live,accounting,member,own⟩
    exact ⟨live,accounting,List.mem_cons_of_mem _ member,own⟩

theorem Scheduled.pop {inbound : NormalizedInbound V} (silent : Silent undo tag)
    (scheduled : Scheduled old (undo :: rest) tag inbound shape) : Scheduled old rest tag inbound shape := by
  refine ⟨scheduled.published,scheduled.mode,?_⟩
  intro users id registry present
  rcases scheduled.ids users id registry present with known | ⟨live,accounting,member,own⟩
  · exact .inl known
  · rcases List.mem_cons.mp member with head | later
    · exact absurd own (silent.user live accounting id head.symm)
    · exact .inr ⟨live,accounting,later,own⟩

theorem Owned.pop (silent : Silent undo tag) (owned : Owned old (undo :: rest) tag shape) : Owned old rest tag shape := by
  rcases owned with ⟨live,accounting,member,own,covers⟩ | ⟨unstarted,inbound,scheduled⟩
  · rcases List.mem_cons.mp member with head | later
    · exact absurd own (silent.inbound live accounting head.symm)
    · exact .inl ⟨live,accounting,later,own,covers⟩
  · rw [starts_rest silent] at unstarted
    exact .inr ⟨unstarted,inbound,scheduled.pop silent⟩

theorem Known.pop (silent : Silent undo tag) (same : live'[tag]? = live[tag]?) (known : Known old new (undo :: rest) live tag shape) :
    Known old new rest live' tag shape := by
  unfold Known at known ⊢
  rw [same]
  rcases known with ⟨unstarted,candidate⟩ | ⟨published,owned⟩
  · rw [starts_rest silent] at unstarted
    exact .inl ⟨unstarted,candidate⟩
  · exact .inr ⟨published,owned.pop silent⟩

/-- What is known of an inbound that no candidate has taken the place of. -/
theorem Known.unstarted (unstarted : ¬ Starts journal tag) (known : Known old new journal live tag shape) :
    (∃ retiring, live[tag]? = some retiring ∧ Candidate old new tag retiring ∧ CoversRetiring retiring shape) ∨
      ((∀ retiring, live[tag]? = some retiring → Published old tag retiring) ∧ ∃ inbound, Scheduled old journal tag inbound shape) := by
  rcases known with ⟨_,candidate⟩ | ⟨published,owned⟩
  · exact .inl candidate
  · rcases owned with ⟨candidate,accounting,member,own,_⟩ | ⟨_,scheduled⟩
    · exact absurd ⟨candidate,accounting,member,own⟩ unstarted
    · exact .inr ⟨published,scheduled⟩

/-- Both generations together own whoever is on an inbound that changed in place. -/
theorem Known.covers {current previous : NormalizedInbound V} (unstarted : ¬ Starts journal tag)
    (known : Known old new journal live tag shape) (consistent : ∀ undo ∈ journal, Consistent old new authority undo)
    (desired : new.inbounds[tag]? = some current) (published : old.inbounds[tag]? = some previous)
    (mode : current.dynamicUsers = previous.dynamicUsers) : CoversRetiring ⟨current,previous⟩ shape := by
  rcases known.unstarted unstarted with ⟨retiring,_,candidate,covers⟩ | ⟨_,inbound,scheduled⟩
  · have live_same := candidate.live
    rw [desired,Option.some.injEq] at live_same
    obtain ⟨generation,accounting⟩ := retiring
    cases live_same
    cases candidate.accounting previous published
    exact covers
  · have same := scheduled.published
    rw [published,Option.some.injEq] at same
    subst same
    refine ⟨scheduled.mode.trans mode.symm,?_⟩
    intro users id registry present
    rcases scheduled.ids users id registry present with owner | ⟨candidate,accounting,member,own⟩
    · exact .inr owner
    · obtain ⟨same,_,_,registered⟩ := consistent _ member
      rw [own,desired,Option.some.injEq] at same
      subst same
      exact .inl registered

theorem candidate_survives {retiring : RetiringInbound V} (unstarted : ¬ Starts rest tag) (candidate : Candidate old new tag retiring)
    (covers : CoversRetiring retiring shape) (entry : live'[tag]? = some retiring) : Known old new rest live' tag shape :=
  .inl ⟨unstarted,retiring,entry,candidate,covers⟩

/-- A published inbound that was started again. -/
theorem published_restarted {inbound : NormalizedInbound V} (wellFormed : WellFormed old) (unstarted : ¬ Starts rest tag)
    (published : old.inbounds[tag]? = some inbound) (entry : live'[tag]? = some ⟨inbound,inbound⟩) (lineage : Nat)
    (kinds : Credential.CredentialKinds) : Known old new rest live' tag (addedShape inbound.compiled.spec lineage kinds) := by
  have covers := (wellFormed tag inbound published).covers lineage kinds
  refine .inr ⟨?_,.inr ⟨unstarted,inbound,published,covers.mode,?_⟩⟩
  · intro retiring found
    rw [entry,Option.some.injEq] at found
    subst found
    exact ⟨published,rfl⟩
  · intro users id registry present
    exact .inl (covers.ids users id registry present)

/-- A user of the published config came back. -/
theorem known_added {inbound : NormalizedInbound V} {spec : UserSpec} (silent : Silent undo tag) (unstarted : ¬ Starts rest tag)
    (wellFormed : WellFormed old) (published : old.inbounds[tag]? = some inbound) (listed : ∃ id : String, inbound.users[id]? = some spec)
    (known : ∀ shape, S tag = some shape → Known old new (undo :: rest) live tag shape) (added : Added tag spec S S')
    (there : S' tag = some shape') : Known old new rest live tag shape' := by
  obtain ⟨id,shape,users,resolved,has,_,rfl⟩ := added
  obtain ⟨other,held⟩ := listed
  have own := (wellFormed tag inbound published).keyed other spec held
  rw [resolved,Option.some.injEq] at own
  subst own
  rw [withUsers_apply,if_pos rfl,Option.some.injEq] at there
  subst there
  have more (present : String) (there : Present (users.add id spec) present) : present = id ∨ Present users present := by
    by_cases same : present = id
    · exact .inl same
    · refine .inr ?_
      unfold Present at there ⊢
      simpa [UsersShape.add,Function.update_of_ne same] using there
  have before := (known shape has.1).pop silent (Eq.refl live[tag]?)
  rcases before.unstarted unstarted with ⟨retiring,entry,candidate,covers⟩ | ⟨entries,old_inbound,scheduled⟩
  · refine candidate_survives unstarted candidate ⟨?_,?_⟩ entry
    · rw [← covers.mode,has.2]
      rfl
    · rintro users' present registry someone
      cases registry
      rcases more present someone with rfl | earlier
      · rw [candidate.accounting inbound published,held]
        exact .inr rfl
      · exact covers.ids users present has.2 earlier
  · have same := scheduled.published
    rw [published,Option.some.injEq] at same
    subst same
    refine .inr ⟨entries,.inr ⟨unstarted,inbound,published,?_,?_⟩⟩
    · rw [← scheduled.mode,has.2]
      rfl
    · rintro users' present registry someone
      cases registry
      rcases more present someone with rfl | earlier
      · rw [held]
        exact .inl rfl
      · exact scheduled.ids users present has.2 earlier

theorem undone_elsewhere {other : String} (wellFormed : WellFormed old) (consistent : Consistent old new authority undo)
    (different : other ≠ undoTag undo) : (undone live undo)[other]? = live[other]? := by
  cases undo with
  | addInbound inbound replay => rw [undone,lookup_insert]; exact if_neg (Ne.symm different)
  | removeInbound candidate accounting => rw [undone,lookup_erase]; exact if_neg (Ne.symm different)
  | restoreHotConfig current previous replay =>
    rw [undone,lookup_insert,(wellFormed _ _ consistent.2.1).tag]
    exact if_neg (Ne.symm different)
  | addUser inbound user => rfl
  | removeUser candidate accounting userId => rfl
  | restoreUser inbound user kick => rfl

theorem survived_elsewhere {e : Engine V} {other : String} (different : other ≠ undoTag undo) :
    (survived e live undo)[other]? = live[other]? := by
  unfold survived
  split
  · next retiring generation =>
    have own : retiring.live.compiled.spec.tag = undoTag undo := by
      cases undo <;> simp only [survivor,Option.some.injEq,reduceCtorEq] at generation <;> subst generation <;> rfl
    split
    · rw [lookup_insert,own,if_neg (Ne.symm different)]
    · rfl
  · rfl

/-- What an inverse that succeeded leaves is known. -/
theorem known_undone (wellFormed : WellFormed old) (consistent : ∀ undo' ∈ undo :: rest, Consistent old new authority undo')
    (ordered : Ordered (undo :: rest)) (known : ∀ tag shape, S tag = some shape → Known old new (undo :: rest) live tag shape)
    (done : Undone S S' undo) (tag : String) (shape' : Shape V) (there : S' tag = some shape') :
    Known old new rest (undone live undo) tag shape' := by
  have own := consistent undo List.mem_cons_self
  have unstarted := ordered.1
  by_cases elsewhere : tag ≠ undoTag undo
  · rw [elsewhere_undone elsewhere done] at there
    exact (known tag shape' there).pop (silent_elsewhere elsewhere) (undone_elsewhere wellFormed own elsewhere)
  rw [not_not] at elsewhere
  subst elsewhere
  cases undo with
  | addInbound inbound replay =>
    obtain ⟨kinds,rfl⟩ := done
    rw [undoTag,Function.update_self,Option.some.injEq] at there
    subst there
    exact published_restarted wellFormed unstarted own.1 (by simp [undone,undoTag]) _ _
  | removeInbound candidate accounting =>
    cases done
    rw [undoTag,Function.update_self] at there
    cases there
  | restoreHotConfig current previous replay =>
    obtain ⟨kinds,rfl⟩ := done
    rw [undoTag,Function.update_self,Option.some.injEq] at there
    subst there
    refine published_restarted wellFormed unstarted own.2.1 ?_ _ _
    rw [undone,lookup_insert,(wellFormed _ _ own.2.1).tag]
    exact if_pos rfl
  | addUser inbound user =>
    exact known_added ⟨(by intro _ _ no; cases no),(by intro _ _ _ no; cases no)⟩ unstarted wellFormed own.1 own.2
      (fun shape found => known _ shape found) done there
  | restoreUser inbound user kick =>
    exact known_added ⟨(by intro _ _ no; cases no),(by intro _ _ _ no; cases no)⟩ unstarted wellFormed own.1 own.2
      (fun shape found => known _ shape found) done there
  | removeUser candidate accounting userId =>
    obtain ⟨shape,before,fewer,gone⟩ := fewer_dropped done there
    have unstarted' : ¬ Starts (.removeUser candidate accounting userId :: rest) candidate.compiled.spec.tag := by
      rintro ⟨live,other,member,same⟩
      rcases List.mem_cons.mp member with head | later
      · cases head
      · exact unstarted ⟨live,other,later,same⟩
    rcases (known _ shape before).unstarted unstarted' with ⟨retiring,entry,owner,covers⟩ | ⟨entries,inbound,scheduled⟩
    · exact candidate_survives unstarted owner (covers.fewer fewer) entry
    · refine .inr ⟨entries,.inr ⟨unstarted,inbound,scheduled.published,fewer.mode.trans scheduled.mode,?_⟩⟩
      intro users' id registry present
      obtain ⟨users,was,earlier⟩ := fewer.ids users' id registry present
      rcases scheduled.ids users id was earlier with owner | ⟨live,other,member,same⟩
      · exact .inl owner
      · rcases List.mem_cons.mp member with head | later
        · cases head
          exact absurd present (gone users' registry)
        · exact .inr ⟨live,other,later,same⟩

theorem survived_entry {e : Engine V} {retiring : RetiringInbound V} (generation : survivor undo = some retiring)
    (own : retiring.live.compiled.spec.tag = tag) (there : shapes e tag = some shape) : (survived e live undo)[tag]? = some retiring := by
  have present : (e.inbounds[tag]?).isSome := by
    unfold shapes at there
    obtain ⟨slot,held,_⟩ := Option.map_eq_some_iff.mp there
    rw [held]
    rfl
  unfold survived
  rw [generation]
  dsimp only
  rw [own,if_pos present,lookup_insert,if_pos rfl]

/-- What an inverse that failed leaves is known too. -/
theorem known_undoFailed {e : Engine V} (wellFormedOld : WellFormed old) (wellFormedNew : WellFormed new)
    (consistent : ∀ undo' ∈ undo :: rest, Consistent old new authority undo') (ordered : Ordered (undo :: rest))
    (known : ∀ tag shape, S tag = some shape → Known old new (undo :: rest) live tag shape) (failed : UndoFailed S (shapes e) undo)
    (tag : String) (shape' : Shape V) (there : shapes e tag = some shape') :
    Known old new rest (survived e live undo) tag shape' := by
  have own := consistent undo List.mem_cons_self
  have unstarted := ordered.1
  by_cases elsewhere : tag ≠ undoTag undo
  · rw [elsewhere_undoFailed elsewhere failed] at there
    exact (known tag shape' there).pop (silent_elsewhere elsewhere) (survived_elsewhere elsewhere)
  rw [not_not] at elsewhere
  subst elsewhere
  have same_user {inbound : NormalizedInbound V} {user : UserSpec} (silent : Silent undo (undoTag undo))
      (kept : survived e live undo = live) (published : old.inbounds[undoTag undo]? = some inbound)
      (listed : ∃ id : String, inbound.users[id]? = some user) (after : shapes e = S ∨ Added (undoTag undo) user S (shapes e)) :
      Known old new rest (survived e live undo) (undoTag undo) shape' := by
    rw [kept]
    rcases after with same | added
    · rw [same] at there
      exact (known _ shape' there).pop silent rfl
    · exact known_added silent unstarted wellFormedOld published listed (fun shape found => known _ shape found) added there
  cases undo with
  | addInbound inbound replay =>
    rw [show shapes e = S from failed] at there
    exact (known _ shape' there).pop ⟨(by intro _ _ no; cases no),(by intro _ _ _ no; cases no)⟩ rfl
  | addUser inbound user =>
    exact same_user ⟨(by intro _ _ no; cases no),(by intro _ _ _ no; cases no)⟩ rfl own.1 own.2 (.inl failed)
  | restoreUser inbound user kick =>
    exact same_user ⟨(by intro _ _ no; cases no),(by intro _ _ _ no; cases no)⟩ rfl own.1 own.2 failed
  | removeInbound candidate accounting =>
    have owner : Candidate old new candidate.compiled.spec.tag ⟨candidate,accounting⟩ := ⟨own.1,own.2.1,own.2.2⟩
    refine candidate_survives unstarted owner ?_ (survived_entry rfl rfl there)
    obtain ⟨shape,before,fewer⟩ := fewer_shrunk failed there
    have starts : Starts (.removeInbound candidate accounting :: rest) candidate.compiled.spec.tag :=
      ⟨candidate,accounting,List.mem_cons_self,rfl⟩
    rcases known _ shape before with ⟨no,_⟩ | ⟨_,⟨live,other,member,same,covers⟩ | ⟨no,_⟩⟩
    · exact absurd starts no
    · have desired := (consistent _ member).1
      rw [same,own.1,Option.some.injEq] at desired
      subst desired
      exact covers.retiring.fewer fewer
    · exact absurd starts no
  | restoreHotConfig current previous replay =>
    obtain ⟨desired,published,mode,_⟩ := own
    have owner : Candidate old new current.compiled.spec.tag ⟨current,previous⟩ := by
      refine ⟨desired,(wellFormedOld _ _ published).tag,fun inbound found => ?_⟩
      rw [published,Option.some.injEq] at found
      exact found
    refine candidate_survives unstarted owner ?_ (survived_entry rfl rfl there)
    rcases failed with shrunk | ⟨_,down⟩ | ⟨_,kinds,again⟩
    · obtain ⟨shape,before,fewer⟩ := fewer_shrunk shrunk there
      refine CoversRetiring.fewer ?_ fewer
      refine (known _ shape before).covers ?_ consistent desired published mode
      rintro ⟨live,other,member,same⟩
      rcases List.mem_cons.mp member with head | later
      · cases head
      · exact unstarted ⟨live,other,later,same⟩
    · rw [down,undoTag,Function.update_self] at there
      cases there
    · rw [again,undoTag,Function.update_self,Option.some.injEq] at there
      subst there
      exact ((wellFormedNew _ _ desired).covers _ _).retiring
  | removeUser candidate accounting userId =>
    obtain ⟨desired,published,mode,_⟩ := own
    have owner : Candidate old new candidate.compiled.spec.tag ⟨candidate,accounting⟩ := by
      refine ⟨desired,(wellFormedOld _ _ published).tag,fun inbound found => ?_⟩
      rw [published,Option.some.injEq] at found
      exact found
    refine candidate_survives unstarted owner ?_ (survived_entry rfl rfl there)
    have before : ∃ shape, S candidate.compiled.spec.tag = some shape ∧ Fewer shape shape' := by
      rcases failed with same | stranded
      · rw [same] at there
        exact ⟨shape',there,Fewer.refl shape'⟩
      · exact fewer_stranded stranded there
    obtain ⟨shape,before,fewer⟩ := before
    refine CoversRetiring.fewer ?_ fewer
    refine (known _ shape before).covers ?_ consistent desired published mode
    rintro ⟨live,other,member,same⟩
    rcases List.mem_cons.mp member with head | later
    · cases head
    · exact unstarted ⟨live,other,later,same⟩

/-! ### The rollback -/

theorem clean_undone (wellFormed : WellFormed old) (consistent : Consistent old new authority undo)
    (clean : ∀ (tag : String) (retiring : RetiringInbound V), live[tag]? = some retiring → Published old tag retiring) (tag : String)
    (retiring : RetiringInbound V) (entry : (undone live undo)[tag]? = some retiring) : Published old tag retiring := by
  have restored {inbound : NormalizedInbound V} (published : old.inbounds[inbound.compiled.spec.tag]? = some inbound)
      (entry : (live.insert inbound.compiled.spec.tag ⟨inbound,inbound⟩)[tag]? = some retiring) : Published old tag retiring := by
    rw [lookup_insert] at entry
    split at entry
    · next same =>
      cases entry
      subst same
      exact ⟨published,rfl⟩
    · exact clean tag retiring entry
  cases undo with
  | addInbound inbound replay => exact restored consistent.1 entry
  | removeInbound candidate accounting =>
    rw [undone,lookup_erase] at entry
    split at entry
    · cases entry
    · exact clean tag retiring entry
  | restoreHotConfig current previous replay =>
    have published := consistent.2.1
    rw [← (wellFormed _ _ published).tag] at published
    exact restored published entry
  | addUser inbound user => exact clean tag retiring entry
  | removeUser candidate accounting userId => exact clean tag retiring entry
  | restoreUser inbound user kick => exact clean tag retiring entry

/-- One inverse keeps the state of the rollback. -/
theorem ensures_undoOne {ε : Type} {w : World V} {restored : Bool} {errors : List String} (wellFormedOld : WellFormed old)
    (wellFormedNew : WellFormed new) (rolling : Rolling old new authority restored (undo :: rest) errors live w.engine) :
    Ensures (@undoOne V shoes ε (errors,live) undo) w (Outcome
      (fun progress w' => Quiet w w' ∧ Rolling old new authority restored rest progress.1 progress.2 w'.engine) (fun _ _ => False)) := by
  have own := rolling.consistent undo List.mem_cons_self
  have consistent (undo' : Undo V) (member : undo' ∈ rest) := rolling.consistent undo' (List.mem_cons_of_mem _ member)
  refine Ensures.attempt_bind (ensures_performUndo rolling.apart wellFormedOld wellFormedNew own) ?_
  rintro (error | value) w' ⟨quiet,lineage,after⟩
  · refine Ensures.look_bind ?_
    refine Ensures.pure ⟨quiet,⟨apart_undoFailed rolling.apart after,?_,consistent,rolling.ordered.2,
      known_undoFailed wellFormedOld wellFormedNew rolling.consistent rolling.ordered rolling.known after,?_,?_⟩⟩
    · intro tag published
      rw [lineage]
      exact rolling.authorities tag published
    · intro _ none_failed
      simp at none_failed
    · intro none_failed
      simp at none_failed
  · refine Ensures.pure ⟨quiet,⟨apart_undone rolling.apart after,?_,consistent,rolling.ordered.2,
      known_undone wellFormedOld rolling.consistent rolling.ordered rolling.known after,?_,?_⟩⟩
    · intro tag published
      rw [lineage]
      exact rolling.authorities tag published
    · intro exactly none_failed
      exact exact_undone wellFormedOld own after (rolling.exact exactly none_failed)
    · intro none_failed
      exact clean_undone wellFormedOld own (rolling.clean none_failed)

/-- A rollback pops the whole journal. -/
theorem ensures_rollback {ε : Type} {w : World V} {restored : Bool} (wellFormedOld : WellFormed old) (wellFormedNew : WellFormed new)
    (start : Rolling old new authority restored w.journal [] ∅ w.engine) :
    Ensures (@rollbackJournal V shoes ε) w (Outcome
      (fun result w' => ∃ live, Quiet { w with journal := [] } w' ∧ Rolling old new authority restored [] result.1 live w'.engine ∧
        result.2 = if result.1.isEmpty then ∅ else live) (fun _ _ => False)) := by
  refine Ensures.look_bind ?_
  refine Ensures.change_bind ?_
  refine Ensures.bind (Q := Outcome (fun progress w' => Quiet { w with journal := [] } w' ∧
    Rolling old new authority restored [] progress.1 progress.2 w'.engine) (fun _ _ => False)) ?_ ?_ (fun _ _ no => no.elim)
  · refine Ensures.foldEach (fun done progress w' => Quiet { w with journal := [] } w' ∧
      ∀ rest, w.journal = done ++ rest → Rolling old new authority restored rest progress.1 progress.2 w'.engine) ?_ ?_ ?_
    · refine ⟨Quiet.refl _,?_⟩
      rintro rest split
      rw [List.nil_append] at split
      rw [← split]
      exact start
    · rintro done undo rest ⟨errors,live⟩ w₁ split ⟨quiet,rolling⟩
      refine Ensures.mono (ensures_undoOne wellFormedOld wellFormedNew (rolling (undo :: rest) split)) ?_
      rintro (no | progress) w₂ held
      · exact held.elim
      · refine ⟨quiet.trans held.1,?_⟩
        intro rest' split'
        have same : rest' = rest := by
          rw [split,List.append_assoc] at split'
          exact (List.cons.inj (List.append_cancel_left split')).2.symm
        rw [same]
        exact held.2
    · rintro progress w₁ ⟨quiet,rolling⟩
      exact ⟨quiet,rolling [] (List.append_nil _).symm⟩
  · rintro ⟨errors,live⟩ w₁ ⟨quiet,rolling⟩
    exact Ensures.pure ⟨live,quiet,rolling,rfl⟩

end NodeAgent.Rollback
