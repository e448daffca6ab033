import NodeAgent.Runtime
import NodeAgent.Shapes

/-!
What the runtime's engine calls do to the table of inbounds. Metering and failed calls
leave every shape alone; a successful call has the effect that `Shapes` gives. The rest
of the runtime's state is out of reach of all of them (`Quiet`).
-/
namespace NodeAgent.RuntimeCalls
open NodeAgent.Api NodeAgent.EngineTable NodeAgent.Fallible NodeAgent.FiniteMap NodeAgent.Receipts NodeAgent.Runtime NodeAgent.Shapes
variable {V : Type} {shoes : Shoes V} {w w' w'' : World V}

/-- No call of the script fails by itself. -/
def Calm (w : World V) : Prop := ∀ m ∈ w.script, m.fault = none

/-- Nothing changes but the engine and the pending traffic. -/
structure Quiet (w w' : World V) : Prop where
  state : w'.state = w.state
  closing : w'.closing = w.closing
  recoveryReplay : w'.recoveryReplay = w.recoveryReplay
  journal : w'.journal = w.journal
  calm : Calm w → Calm w'

theorem Quiet.refl (w : World V) : Quiet w w := ⟨rfl,rfl,rfl,rfl,id⟩

theorem Quiet.trans (first : Quiet w w') (second : Quiet w' w'') : Quiet w w'' :=
  ⟨second.state.trans first.state,second.closing.trans first.closing,second.recoveryReplay.trans first.recoveryReplay,
    second.journal.trans first.journal,fun calm => second.calm (first.calm calm)⟩

/-- No shape changes either. -/
structure Same (w w' : World V) : Prop extends Quiet w w' where
  shapes : shapes w'.engine = shapes w.engine
  lineages : lineages w'.engine = lineages w.engine

theorem Same.refl (w : World V) : Same w w := ⟨Quiet.refl w,rfl,rfl⟩

theorem Same.trans (first : Same w w') (second : Same w' w'') : Same w w'' :=
  ⟨first.toQuiet.trans second.toQuiet,second.shapes.trans first.shapes,second.lineages.trans first.lineages⟩

theorem same_meterTraffic (w : World V) (traffic : Meter) : Same w (meterTraffic w traffic) := by
  unfold meterTraffic
  split
  · exact Same.refl w
  · next metered =>
    obtain ⟨shapes,lineages⟩ := meter_shapes metered
    exact ⟨⟨rfl,rfl,rfl,rfl,id⟩,shapes,lineages⟩

theorem same_meters (w : World V) (meters : List Meter) : Same w (meters.foldl meterTraffic w) := by
  induction meters generalizing w with
  | nil => exact Same.refl w
  | cons first rest ih => exact (same_meterTraffic w first).trans (ih _)

/-- The moment that the next call reads. -/
def now (w : World V) : Moment := w.script.headD Moment.quiet

/-- The world that the next call finds. -/
def seen (w : World V) : World V := { (now w).meters.foldl meterTraffic w with script := w.script.tail }

theorem same_seen (w : World V) : Same w (seen w) := by
  have metered := same_meters w (now w).meters
  refine ⟨⟨metered.state,metered.closing,metered.recoveryReplay,metered.journal,?_⟩,metered.shapes,metered.lineages⟩
  intro calm m member
  exact calm m (List.mem_of_mem_tail member)

theorem now_calm (calm : Calm w) : (now w).fault = none := by
  unfold now
  cases script : w.script with
  | nil => rfl
  | cons first rest => exact calm first (by rw [script]; exact List.mem_cons_self)

theorem moment_bind {ε β : Type} {f : Moment → Op (World V) ε β} {post : Except ε β → World V → Prop}
    (next : Ensures (f (now w)) (seen w) post) : Ensures (moment >>= f) w post := next

variable {α : Type} {effect : Moment → Engine V → Except EngineError (α × Engine V)}

/-- A call takes effect on the engine that it finds, or changes nothing. -/
theorem ensures_call (w : World V) : Ensures (call effect) w (Outcome
    (fun a w' => ∃ e', effect (now w) (seen w).engine = .ok (a,e') ∧ (now w).fault = none ∧ w' = { seen w with engine := e' })
    (fun error w' => w' = seen w ∧
      (effect (now w) (seen w).engine = .error error ∨ ∃ fault, (now w).fault = some fault ∧ error = fault.error))) := by
  refine moment_bind ?_
  refine Ensures.look_bind ?_
  dsimp only
  cases decided : effect (now w) (seen w).engine with
  | error error => exact ⟨rfl,.inl rfl⟩
  | ok answer =>
    obtain ⟨result,engine⟩ := answer
    cases faulty : (now w).fault with
    | some fault => exact ⟨rfl,.inr ⟨fault,rfl,rfl⟩⟩
    | none => exact ⟨engine,rfl,rfl,rfl⟩

/-- A write in terms of shapes: a success has an effect on the engine that the call found,
    which differs from the one before in counters only. -/
theorem ensures_tell {effect : Moment → Engine V → Except EngineError (Engine V)} (changed : Engine V → Engine V → Prop)
    (does : ∀ m e e', effect m e = .ok e' → changed e e') (w : World V) : Ensures (tell effect) w (Outcome
    (fun _ w' => Quiet w w' ∧ ∃ e, shapes e = shapes w.engine ∧ lineages e = lineages w.engine ∧ changed e w'.engine)
    (fun error w' => Same w w' ∧ (Calm w → ∃ m e, shapes e = shapes w.engine ∧ lineages e = lineages w.engine ∧
      effect m e = .error error))) := by
  refine Ensures.mono (ensures_call w) ?_
  have found := same_seen w
  rintro (error | a) w' held
  · obtain ⟨rfl,why⟩ := held
    refine ⟨found,fun calm => ?_⟩
    rcases why with refused | ⟨fault,faulty,_⟩
    · refine ⟨now w,(seen w).engine,found.shapes,found.lineages,?_⟩
      cases decided : effect (now w) (seen w).engine with
      | error other => rw [decided] at refused; cases refused; rfl
      | ok e' => rw [decided] at refused; cases refused
    · rw [now_calm calm] at faulty; cases faulty
  · obtain ⟨e',decided,_,rfl⟩ := held
    refine ⟨⟨found.state,found.closing,found.recoveryReplay,found.journal,found.calm⟩,
      (seen w).engine,found.shapes,found.lineages,?_⟩
    cases success : effect (now w) (seen w).engine with
    | error other => rw [success] at decided; cases decided
    | ok result => rw [success] at decided; cases decided; exact does _ _ _ success

theorem ensures_ask {answer : Engine V → Except EngineError α} (w : World V) : Ensures (ask answer) w (Outcome
    (fun a w' => Same w w' ∧ answer w'.engine = .ok a)
    (fun error w' => Same w w' ∧ (Calm w → answer w'.engine = .error error))) := by
  refine Ensures.mono (ensures_call w) ?_
  have found := same_seen w
  rintro (error | a) w' held
  · obtain ⟨rfl,why⟩ := held
    refine ⟨found,fun calm => ?_⟩
    rcases why with refused | ⟨fault,faulty,_⟩
    · cases decided : answer (seen w).engine with
      | error other => rw [decided] at refused; cases refused; rfl
      | ok e' => rw [decided] at refused; cases refused
    · rw [now_calm calm] at faulty; cases faulty
  · obtain ⟨e',decided,_,rfl⟩ := held
    cases success : answer (seen w).engine with
    | error other => rw [success] at decided; cases decided
    | ok result => rw [success] at decided; cases decided; exact ⟨found,success⟩

/-! ### Removing a user -/

/-- A removed user whose final counters are collected leaves nothing behind. -/
def dropUser (users : UsersShape) (id : String) : UsersShape := (users.remove id).collect id

/-- No id is registered and waiting for its collection at once. -/
def Apart (S : String → Option (Shape V)) : Prop :=
  ∀ tag shape users id, HasUsers S tag shape users → (users.specs id).isSome → users.tombstones id = none

variable {S : String → Option (Shape V)} {tag id : String} {shape : Shape V} {users users' : UsersShape}

theorem withUsers_self (has : HasUsers S tag shape users) : withUsers S tag shape users = S := by
  unfold withUsers
  rw [← has.2,← has.1,Function.update_eq_self]

theorem hasUsers_withUsers : HasUsers (withUsers S tag shape users) tag { shape with users := some users } users :=
  ⟨by simp [withUsers],rfl⟩

theorem withUsers_withUsers :
    withUsers (withUsers S tag shape users) tag { shape with users := some users } users' = withUsers S tag shape users' := by
  simp [withUsers]

theorem HasUsers.unique {shape' : Shape V} (has : HasUsers S tag shape users) (again : HasUsers S tag shape' users') :
    shape' = shape ∧ users' = users := by
  have shapes := again.1
  rw [has.1,Option.some.injEq] at shapes
  subst shapes
  have both := again.2
  rw [has.2,Option.some.injEq] at both
  exact ⟨rfl,both.symm⟩

theorem apart_withUsers (apart : Apart S) (own : ∀ id, (users.specs id).isSome → users.tombstones id = none) :
    Apart (withUsers S tag shape users) := by
  intro other shape' users' id has registered
  by_cases same : other = tag
  · subst same
    obtain ⟨_,rfl⟩ := HasUsers.unique hasUsers_withUsers has
    exact own id registered
  · refine apart other shape' users' id ⟨?_,has.2⟩ registered
    rw [← has.1,withUsers_apply,if_neg same]

theorem remove_eq_drop (collected : users.tombstones id = none) : users.remove id = dropUser users id := by
  unfold dropUser UsersShape.collect
  rw [← collected]
  show _ = { users.remove id with tombstones := Function.update (users.remove id).tombstones id ((users.remove id).tombstones id) }
  rw [Function.update_eq_self]

theorem collect_eq_drop (absent : users.specs id = none) : users.collect id = dropUser users id := by
  have nothing : users.remove id = users := by
    unfold UsersShape.remove
    rw [← absent,Function.update_eq_self]
  rw [dropUser,nothing]

theorem strand_drop (counters : Counters) : dropUser (users.strand id counters) id = dropUser users id := by
  simp [dropUser,UsersShape.strand,UsersShape.remove,UsersShape.collect]

theorem strand_self {counters : Counters} (absent : users.specs id = none) (waiting : users.tombstones id = some counters) :
    users.strand id counters = users := by
  unfold UsersShape.strand UsersShape.remove
  rw [← absent,← waiting,Function.update_eq_self,Function.update_eq_self]

/-- The user is registered or waits for its collection. -/
def Present (users : UsersShape) (id : String) : Prop := (users.specs id).isSome ∨ (users.tombstones id).isSome

/-- What a removal that succeeds does to the table. -/
def Dropped (tag id : String) (S S' : String → Option (Shape V)) : Prop :=
  ∃ shape users, HasUsers S tag shape users ∧ Present users id ∧ S' = withUsers S tag shape (dropUser users id)

/-- What a removal that fails after its first step does to the table. -/
def Stranded (tag id : String) (S S' : String → Option (Shape V)) : Prop :=
  ∃ shape users counters, HasUsers S tag shape users ∧ Present users id ∧ S' = withUsers S tag shape (users.strand id counters)

theorem dropped_of_removeUser {e e' : Engine V} {receipt : Receipt} (apart : Apart (shapes e))
    (removed : removeUser e tag id = .ok (receipt,e')) : Dropped tag id (shapes e) (shapes e') := by
  obtain ⟨_,shape,users,has,live | ⟨absent,waiting,after⟩⟩ := removeUser_shapes removed
  · obtain ⟨registered,after⟩ := live
    refine ⟨shape,users,has,.inl registered,?_⟩
    rw [after,remove_eq_drop (apart tag shape users id has registered)]
  · refine ⟨shape,users,has,.inr waiting,?_⟩
    rw [after,collect_eq_drop absent]

theorem stranded_of_strandUser {e e' : Engine V} {receipt : Receipt} (removable : removeUser e tag id = .ok (receipt,e')) :
    Stranded tag id (shapes e) (shapes (strandUser e tag id)) := by
  obtain ⟨_,shape,users,has,live | ⟨absent,waiting,after⟩⟩ := strandUser_shapes removable
  · obtain ⟨registered,counters,after⟩ := live
    exact ⟨shape,users,counters,has,.inl registered,after⟩
  · obtain ⟨counters,waits⟩ := Option.isSome_iff_exists.mp waiting
    refine ⟨shape,users,counters,has,.inr waiting,?_⟩
    rw [after,strand_self absent waits,withUsers_self has]

/-- A user call that the engine refuses finds no such inbound, registry or user. -/
theorem removeUser_error {e : Engine V} {error : EngineError} (refused : removeUser e tag id = .error error) :
    (∀ msg, error ≠ .io msg) ∧ ∀ shape users, HasUsers (shapes e) tag shape users →
      EngineError.isUnknownUser error = true ∧ ¬ Present users id := by
  unfold removeUser at refused
  split at refused
  · next other found =>
    cases refused
    unfold registryFor at found
    split at found
    · next absent =>
      cases found
      refine ⟨(by intro msg same; cases same),fun shape users has => ?_⟩
      have none_there := has.1
      simp [shapes,absent] at none_there
    · next slot present =>
      split at found
      · next classic =>
        cases found
        refine ⟨(by intro msg same; cases same),fun shape users has => ?_⟩
        obtain ⟨there,registry⟩ := has
        simp only [shapes,present,Option.map_some,Option.some.injEq] at there
        subst there
        simp [slotShape,classic] at registry
      · cases found
  · next slot t found =>
    split at refused
    · cases refused
    next absent =>
    split at refused
    · cases refused
    next collected =>
    cases refused
    refine ⟨(by intro msg same; cases same),fun shape users has => ⟨rfl,?_⟩⟩
    obtain ⟨_,rfl⟩ := HasUsers.unique (hasUsers_of_registry found) has
    rintro (registered | waiting)
    · simp [usersShape,absent] at registered
    · simp [usersShape,collected] at waiting

theorem ensures_callRemoveUser (w : World V) (apart : Apart (shapes w.engine)) (tag id : String) :
    Ensures (callRemoveUser tag id) w (Outcome
      (fun _ w' => Quiet w w' ∧ lineages w'.engine = lineages w.engine ∧ Dropped tag id (shapes w.engine) (shapes w'.engine))
      (fun error w' => Quiet w w' ∧ lineages w'.engine = lineages w.engine ∧
        (((∃ msg, error = .io msg) ∧ ¬ Calm w ∧ Stranded tag id (shapes w.engine) (shapes w'.engine)) ∨
          ((∀ msg, error ≠ .io msg) ∧ shapes w'.engine = shapes w.engine ∧
            (EngineError.isUnknownUser error = true ∨ Calm w → ∀ shape users, HasUsers (shapes w.engine) tag shape users →
              EngineError.isUnknownUser error = true ∧ ¬ Present users id))))) := by
  have found := same_seen w
  have apart' : Apart (shapes (seen w).engine) := by rw [found.shapes]; exact apart
  refine moment_bind ?_
  refine Ensures.look_bind ?_
  rw [← found.shapes,← found.lineages]
  cases decided : removeUser (seen w).engine tag id with
  | error error =>
    obtain ⟨decides,missing⟩ := removeUser_error decided
    exact ⟨found.toQuiet,rfl,.inr ⟨decides,rfl,fun _ => missing⟩⟩
  | ok answer =>
    obtain ⟨receipt,e'⟩ := answer
    cases faulty : (now w).fault with
    | none =>
      refine ⟨⟨found.state,found.closing,found.recoveryReplay,found.journal,found.calm⟩,?_,dropped_of_removeUser apart' decided⟩
      exact (removeUser_shapes decided).1
    | some fault =>
      have rough : ¬ Calm w := fun calm => by rw [now_calm calm] at faulty; cases faulty
      cases fault with
      | io msg =>
        exact ⟨⟨found.state,found.closing,found.recoveryReplay,found.journal,found.calm⟩,(strandUser_shapes decided).1,
          .inl ⟨⟨msg,rfl⟩,rough,stranded_of_strandUser decided⟩⟩
      | invalidConfig msg =>
        refine ⟨found.toQuiet,rfl,.inr ⟨(by intro other same; cases same),rfl,?_⟩⟩
        rintro (unknown | calm)
        · cases unknown
        · exact absurd calm rough

theorem strand_strand (counters counters' : Counters) : (users.strand id counters).strand id counters' = users.strand id counters' := by
  simp [UsersShape.strand,UsersShape.remove]

theorem apart_dropped {S' : String → Option (Shape V)} (apart : Apart S) (dropped : Dropped tag id S S') : Apart S' := by
  obtain ⟨shape,users,has,_,rfl⟩ := dropped
  refine apart_withUsers apart ?_
  intro other registered
  by_cases same : other = id
  · subst same
    simp [dropUser,UsersShape.collect,UsersShape.remove] at registered
  · simp only [dropUser,UsersShape.collect,UsersShape.remove,Function.update_of_ne same] at registered ⊢
    exact apart tag shape users other has registered

theorem apart_stranded {S' : String → Option (Shape V)} (apart : Apart S) (stranded : Stranded tag id S S') : Apart S' := by
  obtain ⟨shape,users,counters,has,_,rfl⟩ := stranded
  refine apart_withUsers apart ?_
  intro other registered
  by_cases same : other = id
  · subst same
    simp [UsersShape.strand,UsersShape.remove] at registered
  · simp only [UsersShape.strand,UsersShape.remove,Function.update_of_ne same] at registered ⊢
    exact apart tag shape users other has registered

/-- A stranded user can still be dropped, as if nothing had failed. -/
theorem dropped_of_stranded {S' S'' : String → Option (Shape V)} (stranded : Stranded tag id S S') (dropped : Dropped tag id S' S'') :
    Dropped tag id S S'' := by
  obtain ⟨shape,users,counters,has,present,rfl⟩ := stranded
  obtain ⟨shape',users',has',_,rfl⟩ := dropped
  obtain ⟨rfl,rfl⟩ := HasUsers.unique hasUsers_withUsers has'
  exact ⟨shape,users,has,present,by rw [withUsers_withUsers,strand_drop]⟩

theorem stranded_again {S' S'' : String → Option (Shape V)} (stranded : Stranded tag id S S') (again : Stranded tag id S' S'') :
    Stranded tag id S S'' := by
  obtain ⟨shape,users,counters,has,present,rfl⟩ := stranded
  obtain ⟨shape',users',counters',has',_,rfl⟩ := again
  obtain ⟨rfl,rfl⟩ := HasUsers.unique hasUsers_withUsers has'
  exact ⟨shape,users,counters',has,present,by rw [withUsers_withUsers,strand_strand]⟩

/-- What a removal that does not deliver its receipt leaves behind. -/
def RemovalFailed (w : World V) (tag id : String) (failure : UserRemovalFailure) (S' : String → Option (Shape V)) : Prop :=
  (failure.changed = true ∧ failure.missing = false ∧ ¬ Calm w ∧ Stranded tag id (shapes w.engine) S') ∨
    (failure.changed = false ∧ S' = shapes w.engine ∧
      (failure.missing = true ∨ Calm w → ∀ shape users, HasUsers (shapes w.engine) tag shape users →
        failure.missing = true ∧ ¬ Present users id))

theorem ensures_removeUserWithRetry (w : World V) (apart : Apart (shapes w.engine)) (tag id : String) :
    Ensures (removeUserWithRetry tag id) w (Outcome
      (fun _ w' => Quiet w w' ∧ lineages w'.engine = lineages w.engine ∧ Dropped tag id (shapes w.engine) (shapes w'.engine))
      (fun failure w' => Quiet w w' ∧ lineages w'.engine = lineages w.engine ∧
        RemovalFailed w tag id failure (shapes w'.engine))) := by
  refine Ensures.attempt_bind (ensures_callRemoveUser w apart tag id) ?_
  rintro (error | receipt) w' ⟨quiet,lineage,held⟩
  · rcases held with ⟨⟨msg,rfl⟩,rough,stranded⟩ | ⟨decides,same,missing⟩
    · -- The retry starts from the tombstone.
      refine Ensures.attempt_bind (ensures_callRemoveUser w' (apart_stranded apart stranded) tag id) ?_
      rintro (retry | receipt) w'' ⟨quiet',lineage',held'⟩
      · refine Ensures.fail ⟨quiet.trans quiet',lineage'.trans lineage,.inl ⟨rfl,rfl,rough,?_⟩⟩
        rcases held' with ⟨_,_,again⟩ | ⟨_,same,_⟩
        · exact stranded_again stranded again
        · rw [same]; exact stranded
      · exact ⟨quiet.trans quiet',lineage'.trans lineage,dropped_of_stranded stranded held'⟩
    · cases error with
      | io msg => exact absurd rfl (decides msg)
      | _ => exact Ensures.fail ⟨quiet,lineage,.inr ⟨rfl,same,missing⟩⟩
  · exact ⟨quiet,lineage,held⟩

/-! ### Collecting a user -/

theorem same_setPending (w : World V) (pending : PendingTraffic) : Same w (setPending pending w) :=
  ⟨⟨rfl,rfl,rfl,rfl,id⟩,rfl,rfl⟩

theorem ensures_reserveTraffic (w : World V) (inbound : NormalizedInbound V) (id : String) :
    Ensures (reserveTraffic inbound id) w (fun _ w' => Same w w') := by
  refine Ensures.look_bind ?_
  split
  · exact Same.refl w
  · exact same_setPending w _

theorem ensures_dropReservation {ε : Type} (w : World V) (reservation : Reservation) :
    Ensures (@dropReservation V ε reservation) w (Outcome (fun _ w' => Same w w') (fun _ _ => False)) := by
  show Same w (if reservation.owns then setPending (release w.pending reservation.key) w else w)
  split
  · exact same_setPending w _
  · exact Same.refl w

theorem ensures_queueTraffic {ε : Type} (w : World V) (reservation : Reservation) (inbound : NormalizedInbound V) (receipt : Receipt) :
    Ensures (@queueTraffic V ε reservation inbound receipt) w (Outcome (fun _ w' => Same w w') (fun _ _ => False)) :=
  ⟨⟨rfl,rfl,rfl,rfl,id⟩,rfl,rfl⟩

/-- What a collection that fails leaves behind. -/
def CollectFailed (w : World V) (tag id : String) (S' : String → Option (Shape V)) : CollectFailure → Prop
  | .reserve _ => S' = shapes w.engine
  | .remove failure => RemovalFailed w tag id failure S'

theorem ensures_collectUser (w : World V) (apart : Apart (shapes w.engine)) (tag : String) (accounting : NormalizedInbound V)
    (id : String) : Ensures (collectUser tag accounting id) w (Outcome
      (fun _ w' => Quiet w w' ∧ lineages w'.engine = lineages w.engine ∧ Dropped tag id (shapes w.engine) (shapes w'.engine))
      (fun failure w' => Quiet w w' ∧ lineages w'.engine = lineages w.engine ∧
        CollectFailed w tag id (shapes w'.engine) failure)) := by
  refine Ensures.attempt_bind (ensures_reserveTraffic w accounting id) ?_
  rintro (error | reservation) w₁ same
  · exact ⟨same.toQuiet,same.lineages,same.shapes⟩
  have apart₁ : Apart (shapes w₁.engine) := by rw [same.shapes]; exact apart
  refine Ensures.attempt_bind (ensures_removeUserWithRetry w₁ apart₁ tag id) ?_
  rintro (failure | receipt) w₂ ⟨quiet,lineage,held⟩
  · refine Ensures.bind (ensures_dropReservation w₂ reservation) ?_ (fun _ _ no => no.elim)
    intro _ w₃ same'
    change Same w₂ w₃ at same'
    refine Ensures.fail ⟨(same.toQuiet.trans quiet).trans same'.toQuiet,?_,?_⟩
    · rw [same'.lineages,lineage,same.lineages]
    · show RemovalFailed w tag id failure (shapes w₃.engine)
      rw [same'.shapes]
      unfold RemovalFailed at held ⊢
      rw [same.shapes] at held
      rcases held with ⟨changed,known,rough,stranded⟩ | ⟨unchanged,kept,missing⟩
      · exact .inl ⟨changed,known,fun calm => rough (same.calm calm),stranded⟩
      · refine .inr ⟨unchanged,kept,?_⟩
        rintro (absent | calm)
        · exact missing (.inl absent)
        · exact missing (.inr (same.calm calm))
  · refine Ensures.mono (ensures_queueTraffic w₂ reservation accounting receipt) ?_
    rintro (e | a) w₃ same'
    · exact same'.elim
    · change Same w₂ w₃ at same'
      refine ⟨(same.toQuiet.trans quiet).trans same'.toQuiet,?_,?_⟩
      · rw [same'.lineages,lineage,same.lineages]
      · rw [same'.shapes,← same.shapes]
        exact held

end NodeAgent.RuntimeCalls
