import NodeAgent.Rollback
import NodeAgent.Upkeep

/-!
What holds of the engine at any time, whatever the runtime does and whatever fails: a live
inbound has the replay authority last published for its tag, no two live inbounds bind
one key, and a registry answers the credential forms that its config asks for.
-/
namespace NodeAgent.EngineSound
open NodeAgent.Api NodeAgent.EngineTable NodeAgent.Fallible NodeAgent.FiniteMap NodeAgent.Rollback NodeAgent.Runtime NodeAgent.RuntimeCalls
  NodeAgent.Shapes NodeAgent.Transaction NodeAgent.Upkeep
open NodeAgent.AddressOwnership (BindKey KeyText claimTarget)
variable {V : Type} {shoes : Shoes V} {e e' : Engine V} {S : String → Option (Shape V)} {L : String → Option Nat} {tag : String}

structure Sound (shoes : Shoes V) (S : String → Option (Shape V)) (L : String → Option Nat) : Prop where
  rooted : ∀ tag shape, S tag = some shape → L tag = some shape.lineage
  disjoint : ∀ tag tag' shape shape', S tag = some shape → S tag' = some shape' → tag ≠ tag' →
    ∀ key ∈ shoes.bindKeys shape.config, key ∉ shoes.bindKeys shape'.config
  kinds : ∀ tag shape users, HasUsers S tag shape users → shoes.registryKinds shape.config = .ok users.kinds

def SoundEngine (shoes : Shoes V) (e : Engine V) : Prop := Sound shoes (shapes e) (lineages e)

/-! ### Tables -/

theorem sound_withUsers {shape : Shape V} {users users' : UsersShape} (sound : Sound shoes S L) (has : HasUsers S tag shape users)
    (kinds : users'.kinds = users.kinds) : Sound shoes (withUsers S tag shape users') L := by
  have before {other : String} {shape' : Shape V} (there : withUsers S tag shape users' other = some shape') :
      ∃ old, S other = some old ∧ shape'.config = old.config ∧ shape'.lineage = old.lineage := by
    rw [withUsers_apply] at there
    split at there
    · next same =>
      cases there
      exact ⟨shape,by rw [same]; exact has.1,rfl,rfl⟩
    · exact ⟨shape',there,rfl,rfl⟩
  refine ⟨?_,?_,?_⟩
  · intro other shape' there
    obtain ⟨old,was,_,lineage⟩ := before there
    rw [lineage]
    exact sound.rooted other old was
  · intro first second shape₁ shape₂ there there' different
    obtain ⟨old₁,was₁,config₁,_⟩ := before there
    obtain ⟨old₂,was₂,config₂,_⟩ := before there'
    rw [config₁,config₂]
    exact sound.disjoint first second old₁ old₂ was₁ was₂ different
  · intro other shape' found has'
    rcases hasUsers_update has' with ⟨there,registry⟩ | before
    · cases there
      cases registry
      rw [kinds]
      exact sound.kinds tag shape users has
    · exact sound.kinds other shape' found before

theorem sound_removed (sound : Sound shoes S L) : Sound shoes (Function.update S tag none) L := by
  have before {other : String} {shape : Shape V} (there : Function.update S tag none other = some shape) : S other = some shape := by
    rw [Function.update_apply] at there
    split at there
    · cases there
    · exact there
  refine ⟨fun other shape there => sound.rooted other shape (before there),?_,?_⟩
  · intro first second shape₁ shape₂ there there'
    exact sound.disjoint first second shape₁ shape₂ (before there) (before there')
  · intro other shape users has
    exact sound.kinds other shape users ⟨before has.1,has.2⟩

/-- An inbound may come to a free tag, or change in place, with keys that nobody else binds. -/
theorem sound_placed {shape : Shape V} {L' : String → Option Nat} (sound : Sound shoes S L) (elsewhere : ∀ other, other ≠ tag → L' other = L other)
    (rooted : L' tag = some shape.lineage)
    (free : ∀ other old, other ≠ tag → S other = some old → ∀ key ∈ shoes.bindKeys shape.config, key ∉ shoes.bindKeys old.config)
    (kinds : ∀ users, shape.users = some users → shoes.registryKinds shape.config = .ok users.kinds) :
    Sound shoes (Function.update S tag (some shape)) L' := by
  have lookup {other : String} {shape' : Shape V} (there : Function.update S tag (some shape) other = some shape') :
      (other = tag ∧ shape' = shape) ∨ (other ≠ tag ∧ S other = some shape') := by
    rw [Function.update_apply] at there
    split at there
    · next same => cases there; exact .inl ⟨same,rfl⟩
    · next different => exact .inr ⟨different,there⟩
  refine ⟨?_,?_,?_⟩
  · intro other shape' there
    rcases lookup there with ⟨rfl,rfl⟩ | ⟨different,was⟩
    · exact rooted
    · rw [elsewhere other different]
      exact sound.rooted other shape' was
  · intro first second shape₁ shape₂ there there' different key bound
    rcases lookup there with ⟨rfl,rfl⟩ | ⟨apart,was⟩
    · rcases lookup there' with ⟨rfl,rfl⟩ | ⟨apart',was'⟩
      · exact absurd rfl different
      · exact free second shape₂ apart' was' key bound
    · rcases lookup there' with ⟨rfl,rfl⟩ | ⟨apart',was'⟩
      · intro claimed
        exact free first shape₁ apart was key claimed bound
      · exact sound.disjoint first second shape₁ shape₂ was was' different key bound
  · intro other shape' users has
    rcases lookup has.1 with ⟨rfl,rfl⟩ | ⟨_,was⟩
    · exact kinds users has.2
    · exact sound.kinds other shape' users ⟨was,has.2⟩

/-! ### Engine calls -/

theorem owner_none {key : BindKey} {shape : Shape V} (unowned : owner shoes e key = none) (there : shapes e tag = some shape) :
    key ∉ shoes.bindKeys shape.config := by
  unfold owner at unowned
  rw [Option.map_eq_none_iff,List.find?_eq_none] at unowned
  obtain ⟨slot,held,rfl⟩ := Option.map_eq_some_iff.mp there
  have free := unowned (tag,slot) ((mem_toList e.inbounds).mpr held)
  simpa [slotShape] using free

/-- A target is claimed when its keys are free and listed once. -/
theorem claimTarget_ok {text : KeyText} {bound : BindKey → Option String} {keys claimed : List BindKey} :
    (∃ result, claimTarget text bound tag claimed keys = .ok result) ↔
      (∀ key ∈ keys, bound key = none ∧ key ∉ claimed) ∧ keys.Nodup := by
  induction keys generalizing claimed with
  | nil => simp [claimTarget]
  | cons first rest ih =>
    unfold claimTarget
    cases taken : bound first with
    | some owner => simp [taken]
    | none =>
      by_cases twice : first ∈ claimed
      · simp [twice]
      · rw [if_neg twice,ih]
        simp only [List.mem_append,List.mem_singleton,not_or,List.forall_mem_cons,List.nodup_cons]
        constructor
        · rintro ⟨free,nodup⟩
          refine ⟨⟨⟨taken,twice⟩,fun key member => ⟨(free key member).1,(free key member).2.1⟩⟩,?_,nodup⟩
          intro again
          exact (free first again).2.2 rfl
        · rintro ⟨⟨_,free⟩,once,nodup⟩
          refine ⟨fun key member => ⟨(free key member).1,(free key member).2,?_⟩,nodup⟩
          rintro rfl
          exact once member

theorem addInboundInner_free {spec : InboundSpec V} {admission : Admission} (added : addInboundInner shoes e spec admission = .ok e') :
    ∀ key ∈ shoes.bindKeys spec.config, owner shoes e key = none := by
  unfold addInboundInner at added
  split at added
  · cases added
  split at added
  · cases added
  split at added
  · cases added
  split at added
  · cases added
  split at added
  · cases added
  split at added
  · cases added
  next result claims =>
  intro key member
  exact ((claimTarget_ok.mp ⟨result,claims⟩).1 key member).1

theorem owner_free {key : BindKey} (free : ∀ tag shape, shapes e tag = some shape → key ∉ shoes.bindKeys shape.config) :
    owner shoes e key = none := by
  unfold owner
  rw [Option.map_eq_none_iff,List.find?_eq_none]
  rintro ⟨tag,slot⟩ member
  have held := (mem_toList e.inbounds).mp member
  have unbound := free tag (slotShape slot) (by simp [shapes,held])
  simpa [slotShape] using unbound

/-- The engine takes a valid inbound on a free tag and free keys, if it admits its namespace. -/
theorem addInboundInner_succeeds {spec : InboundSpec V} {admission : Admission} (valid : validateInbound shoes spec = .ok ())
    (absent : shapes e spec.tag = none) (admitted : ∃ answer, prepare e spec.tag admission = .ok answer)
    (free : ∀ tag shape, shapes e tag = some shape → ∀ key ∈ shoes.bindKeys spec.config, key ∉ shoes.bindKeys shape.config) :
    ∃ e', addInboundInner shoes e spec admission = .ok e' := by
  obtain ⟨⟨lineage,nextLineage⟩,prepared⟩ := admitted
  have none_there : (e.inbounds[spec.tag]?).isSome = false := by
    cases held : e.inbounds[spec.tag]? with
    | none => rfl
    | some slot => simp [shapes,held] at absent
  unfold validateInbound at valid
  split at valid
  · cases valid
  next named =>
  split at valid
  · cases valid
  next checked =>
  split at valid
  · cases valid
  next built =>
  split at valid
  · cases valid
  next result claimed =>
  obtain ⟨-,nodup⟩ := claimTarget_ok.mp ⟨result,claimed⟩
  have claims : ∃ result, claimTarget shoes.text (owner shoes e) spec.tag [] (shoes.bindKeys spec.config) = .ok result := by
    refine claimTarget_ok.mpr ⟨fun key member => ⟨?_,List.not_mem_nil⟩,nodup⟩
    exact owner_free (fun tag shape there => free tag shape there key member)
  obtain ⟨result',claims⟩ := claims
  unfold addInboundInner
  rw [if_neg named,checked]
  dsimp only
  rw [built]
  dsimp only
  rw [none_there,if_neg Bool.false_ne_true,prepared]
  dsimp only
  rw [claims]
  exact ⟨_,rfl⟩

theorem sound_addInboundInner {spec : InboundSpec V} {admission : Admission} (sound : SoundEngine shoes e)
    (added : addInboundInner shoes e spec admission = .ok e') : SoundEngine shoes e' := by
  obtain ⟨absent,lineage,kinds,after,published,_,asked⟩ := addInboundInner_shapes added
  have free := addInboundInner_free added
  unfold SoundEngine
  rw [after,published]
  refine sound_placed sound ?_ ?_ ?_ ?_
  · intro other different
    exact Function.update_of_ne different _ _
  · exact Function.update_self _ _ _
  · intro other old _ there key bound
    exact owner_none (free key bound) there
  · intro users registry
    unfold addedShape at registry
    simp only [Option.map_eq_some_iff] at registry
    obtain ⟨listed,found,rfl⟩ := registry
    exact asked (by rw [found]; rfl)

theorem sound_updateInbound {config : V} (sound : SoundEngine shoes e) (updated : updateInbound shoes e tag config = .ok e') :
    SoundEngine shoes e' := by
  obtain ⟨published,shape,there,after⟩ := updateInbound_shapes updated
  unfold SoundEngine
  rw [after,published]
  obtain ⟨slot,held,rfl⟩ := Option.map_eq_some_iff.mp there
  unfold updateInbound at updated
  rw [held] at updated
  dsimp only at updated
  split at updated
  · cases updated
  split at updated
  · cases updated
  next accepted =>
  split at updated
  · cases updated
  next stays =>
  refine sound_placed sound (fun _ _ => rfl) (sound.rooted tag (slotShape slot) there) ?_ ?_
  · -- A listener that takes a config over in place keeps its listen set.
    intro other old different was key bound
    have before := (shoes.reload_keeps_listen slot.config config stays key).mp bound
    exact sound.disjoint tag other _ old there was (Ne.symm different) key before
  · intro users registry
    obtain ⟨t,answers,rfl⟩ := Option.map_eq_some_iff.mp registry
    unfold kindsRejection at accepted
    rw [answers] at accepted
    dsimp only at accepted
    split at accepted
    · cases accepted
    next kinds asked =>
    split at accepted
    · cases accepted
    next same =>
    rw [not_not] at same
    show shoes.registryKinds config = .ok t.kinds
    rw [asked,same]

theorem sound_of_same {w w' : World V} (sound : SoundEngine shoes w.engine) (same : Same w w') : SoundEngine shoes w'.engine := by
  unfold SoundEngine
  rw [same.shapes,same.lineages]
  exact sound

/-! ### Operations of the runtime -/

/-- The engine is sound, and the journal is this one. -/
def Sane (shoes : Shoes V) (journal : List (Undo V)) (w : World V) : Prop := SoundEngine shoes w.engine ∧ w.journal = journal

variable {journal : List (Undo V)}

theorem sane_of_same {w w' : World V} (sane : Sane shoes journal w) (same : Same w w') : Sane shoes journal w' :=
  ⟨sound_of_same sane.1 same,same.journal.trans sane.2⟩

theorem keeps_call {α : Type} {effect : Moment → Engine V → Except EngineError (α × Engine V)}
    (does : ∀ m e a e', effect m e = .ok (a,e') → SoundEngine shoes e → SoundEngine shoes e') : Keeps (Sane shoes journal) (call effect) := by
  intro w sane
  have found := sane_of_same sane (same_seen w)
  refine Ensures.mono (ensures_call w) ?_
  rintro (error | a) w' held
  · rw [held.1]
    exact found
  · obtain ⟨e',decided,_,rfl⟩ := held
    exact ⟨does _ _ _ _ decided found.1,found.2⟩

theorem keeps_tell {effect : Moment → Engine V → Except EngineError (Engine V)}
    (does : ∀ m e e', effect m e = .ok e' → SoundEngine shoes e → SoundEngine shoes e') : Keeps (Sane shoes journal) (tell effect) := by
  refine keeps_call ?_
  intro m e a e' decided sound
  cases effected : effect m e with
  | error error => rw [effected] at decided; cases decided
  | ok result => rw [effected] at decided; cases decided; exact does m e _ effected sound

theorem keeps_ask {α : Type} (answer : Engine V → Except EngineError α) : Keeps (Sane shoes journal) (ask answer) := by
  intro w sane
  refine Ensures.mono (ensures_ask w) ?_
  rintro (error | a) w' ⟨same,_⟩
  · exact sane_of_same sane same
  · exact sane_of_same sane same

theorem keeps_addInbound (spec : InboundSpec V) : Keeps (Sane shoes journal) (callAddInbound shoes spec) :=
  keeps_tell (fun _ _ _ added sound => sound_addInboundInner sound added)

theorem keeps_addInboundWithReplay (spec : InboundSpec V) (lease : InboundReplayLease) :
    Keeps (Sane shoes journal) (callAddInboundWithReplay shoes spec lease) := by
  refine keeps_tell ?_
  intro m e e' added sound
  unfold addInboundWithReplay at added
  split at added
  · cases added
  · exact sound_addInboundInner sound added

theorem keeps_updateInbound (inbound : NormalizedInbound V) : Keeps (Sane shoes journal) (callUpdateInbound shoes inbound) :=
  keeps_tell (fun _ _ _ updated sound => sound_updateInbound sound updated)

theorem keeps_addUser (tag : String) (user : UserSpec) : Keeps (Sane shoes journal) (callAddUser shoes tag user) := by
  refine keeps_tell ?_
  intro m e e' added sound
  obtain ⟨published,id,shape,users,_,has,_,after⟩ := addUser_shapes added
  unfold SoundEngine
  rw [after,published]
  exact sound_withUsers sound has rfl

theorem keeps_removeInboundHard (tag : String) : Keeps (Sane shoes journal) (callRemoveInboundHard tag) := by
  refine keeps_tell ?_
  intro m e e' removed sound
  obtain ⟨published,_,after⟩ := removeInboundHard_shapes removed
  unfold SoundEngine
  rw [after,published]
  exact sound_removed sound

theorem sound_removeUser {id : String} {receipt : Receipt} (removed : removeUser e tag id = .ok (receipt,e')) (sound : SoundEngine shoes e) :
    SoundEngine shoes e' := by
  obtain ⟨published,shape,users,has,⟨_,after⟩ | ⟨_,_,after⟩⟩ := removeUser_shapes removed
  all_goals
    unfold SoundEngine
    rw [after,published]
    exact sound_withUsers sound has rfl

theorem sound_strandUser {id : String} {receipt : Receipt} (removable : removeUser e tag id = .ok (receipt,e'))
    (sound : SoundEngine shoes e) : SoundEngine shoes (strandUser e tag id) := by
  obtain ⟨published,shape,users,has,⟨_,counters,after⟩ | ⟨_,_,after⟩⟩ := strandUser_shapes removable
  · unfold SoundEngine
    rw [after,published]
    exact sound_withUsers sound has rfl
  · unfold SoundEngine
    rw [after,published]
    exact sound

theorem keeps_removeUser (tag id : String) : Keeps (Sane shoes journal) (@callRemoveUser V tag id) := by
  intro w sane
  have found := sane_of_same sane (same_seen w)
  refine moment_bind ?_
  refine Ensures.look_bind ?_
  cases decided : removeUser (seen w).engine tag id with
  | error error => exact found
  | ok answer =>
    obtain ⟨receipt,e'⟩ := answer
    cases faulty : (now w).fault with
    | none => exact ⟨sound_removeUser decided found.1,found.2⟩
    | some fault =>
      cases fault with
      | io msg => exact ⟨sound_strandUser decided found.1,found.2⟩
      | invalidConfig msg => exact found

theorem keeps_removeUserWithRetry (tag id : String) : Keeps (Sane shoes journal) (@removeUserWithRetry V tag id) := by
  refine Keeps.attempt_bind (keeps_removeUser tag id) ?_
  rintro (error | receipt)
  · cases error with
    | io msg =>
      refine Keeps.attempt_bind (keeps_removeUser tag id) ?_
      rintro (retry | receipt)
      · exact Keeps.fail _
      · exact Keeps.pure _
    | _ => exact Keeps.fail _
  · exact Keeps.pure _

/-- An operation that only files or reserves traffic. -/
theorem keeps_quiet {ε α : Type} {p : Op (World V) ε α} (same : ∀ w, Ensures p w (fun _ w' => Same w w')) : Keeps (Sane shoes journal) p :=
  fun w sane => Ensures.mono (same w) (fun _ _ same => sane_of_same sane same)

theorem keeps_reserve (accounting : NormalizedInbound V) (id : String) : Keeps (Sane shoes journal) (reserveTraffic accounting id) :=
  keeps_quiet (fun w => ensures_reserveTraffic w accounting id)

theorem keeps_drop {ε : Type} (reservation : Reservation) : Keeps (Sane shoes journal) (@dropReservation V ε reservation) := by
  refine keeps_quiet (fun w => Ensures.mono (ensures_dropReservation w reservation) ?_)
  rintro (no | value) w' held
  · exact held.elim
  · exact held

theorem keeps_queue {ε : Type} (reservation : Reservation) (accounting : NormalizedInbound V) (receipt : Receipt) :
    Keeps (Sane shoes journal) (@queueTraffic V ε reservation accounting receipt) := by
  refine keeps_quiet (fun w => Ensures.mono (ensures_queueTraffic w reservation accounting receipt) ?_)
  rintro (no | value) w' held
  · exact held.elim
  · exact held

theorem keeps_collect (tag : String) (accounting : NormalizedInbound V) (id : String) :
    Keeps (Sane shoes journal) (collectUser tag accounting id) := by
  refine Keeps.attempt_bind (keeps_reserve accounting id) ?_
  rintro (error | reservation)
  · exact Keeps.fail _
  refine Keeps.attempt_bind (keeps_removeUserWithRetry tag id) ?_
  rintro (failure | receipt)
  · exact Keeps.bind (keeps_drop reservation) (fun _ => Keeps.fail _)
  · exact keeps_queue reservation accounting receipt

theorem keeps_takeUserTraffic (tag id : String) : Keeps (Sane shoes journal) (@callTakeUserTraffic V tag id) := by
  refine keeps_call ?_
  intro m e receipt e' taken sound
  obtain ⟨after,published⟩ := takeUserTraffic_shapes taken
  unfold SoundEngine
  rw [after,published]
  exact sound

theorem keeps_flushUser (tag : String) (old : NormalizedInbound V) (id : String) : Keeps (Sane shoes journal) (flushUser tag old id) := by
  refine Keeps.bind (Keeps.orFail (keeps_reserve old id)) (fun reservation => ?_)
  refine Keeps.attempt_bind (keeps_takeUserTraffic tag id) ?_
  rintro (error | receipt)
  · exact Keeps.bind (keeps_drop reservation) (fun _ => Keeps.fail _)
  · exact keeps_queue reservation old receipt

/-- The engine stays sound in every piece of a stop. -/
theorem sound_piecewise (shoes : Shoes V) (journal : List (Undo V)) : Piecewise shoes (Sane shoes journal) where
  ask := keeps_ask
  addUser := keeps_addUser
  collect := keeps_collect
  removeInboundHard := keeps_removeInboundHard

theorem keeps_replaceInbound (current registry accounting new : NormalizedInbound V) (replay : InboundReplayLease) :
    Keeps (Sane shoes journal) (replaceInboundWithReplayOwners shoes current registry accounting new replay) := by
  refine Keeps.bind ((sound_piecewise shoes journal).stop current registry accounting) (fun _ => ?_)
  refine Keeps.attempt_bind (keeps_addInboundWithReplay _ _) ?_
  rintro (operation | value)
  · refine Keeps.attempt_bind (keeps_addInboundWithReplay _ _) ?_
    rintro (rollback | value)
    · exact Keeps.fail _
    · exact Keeps.fail _
  · exact Keeps.pure _

/-- The engine stays sound in every transaction. -/
theorem sound_lasting (shoes : Shoes V) : Lasting shoes (fun w => SoundEngine shoes w.engine) where
  closed journal := {
    ask := keeps_ask
    addInbound := keeps_addInbound
    addInboundWithReplay := keeps_addInboundWithReplay
    updateInbound := keeps_updateInbound
    addUser := keeps_addUser
    collect := fun tag accounting id _ => keeps_collect tag accounting id
    flush := fun tag old id _ => keeps_flushUser tag old id
    stop := fun listener registry accounting _ => (sound_piecewise shoes journal).stop listener registry accounting }
  frame w w' engine _ _ sound := by
    show SoundEngine shoes w'.engine
    rw [engine]
    exact sound

theorem keeps_forceStopTag (tag : String) (known : Option (RetiringInbound V)) : Keeps (Sane shoes journal) (forceStopTag tag known) :=
  (sound_piecewise shoes journal).forceStop tag known

end NodeAgent.EngineSound
