import NodeAgent.RuntimeCalls
import NodeAgent.Transaction

/-!
Conditions that a whole transaction keeps. A condition on the world that survives the
engine calls, the collection of a user, the flush of a user and the stop of a listener
survives an apply and its rollback, whatever fails on the way (`Lasting`). Bytes are filed
under the tag they were metered on, so the owners that a stop names share its tag.
-/
namespace NodeAgent.Upkeep
open NodeAgent.Api NodeAgent.EngineTable NodeAgent.Fallible NodeAgent.FiniteMap NodeAgent.Runtime NodeAgent.RuntimeCalls
  NodeAgent.Transaction
variable {V : Type} {shoes : Shoes V} {I : World V → Prop}

/-- Kept by everything that a transaction does to the engine. -/
structure Closed (shoes : Shoes V) (I : World V → Prop) : Prop where
  ask : ∀ {α : Type} (answer : Engine V → Except EngineError α), Keeps I (ask answer)
  addInbound : ∀ spec, Keeps I (callAddInbound shoes spec)
  addInboundWithReplay : ∀ spec lease, Keeps I (callAddInboundWithReplay shoes spec lease)
  updateInbound : ∀ inbound, Keeps I (callUpdateInbound shoes inbound)
  addUser : ∀ tag user, Keeps I (callAddUser shoes tag user)
  collect : ∀ tag accounting id, accounting.compiled.spec.tag = tag → Keeps I (collectUser tag accounting id)
  flush : ∀ tag old id, old.compiled.spec.tag = tag → Keeps I (flushUser tag old id)
  stop : ∀ listener registry accounting, accounting.compiled.spec.tag = listener.compiled.spec.tag →
    Keeps I (stopInboundWithOwners shoes listener registry accounting)

/-- Kept by each piece of a stop. -/
structure Piecewise (shoes : Shoes V) (I : World V → Prop) : Prop where
  ask : ∀ {α : Type} (answer : Engine V → Except EngineError α), Keeps I (ask answer)
  addUser : ∀ tag user, Keeps I (callAddUser shoes tag user)
  collect : ∀ tag accounting id, Keeps I (collectUser tag accounting id)
  removeInboundHard : ∀ tag, Keeps I (callRemoveInboundHard tag)

section
variable (piecewise : Piecewise shoes I)
include piecewise

theorem Piecewise.stopFailure (tag : String) (removed : List UserSpec) (operation : String) (changed : Bool) :
    Keeps I (stopFailure shoes tag removed operation changed) := by
  refine Keeps.bind (Keeps.foldEach (A := fun _ => True) trivial (fun errors _ user _ => ⟨?_,Returns.any _⟩)) (fun _ => Keeps.fail _)
  refine Keeps.attempt_bind (piecewise.addUser tag user) ?_
  rintro (error | value)
  · exact Keeps.pure _
  · exact Keeps.pure _

theorem Piecewise.retireLiveUser (tag : String) (registry accounting : NormalizedInbound V) (removed : List UserSpec) (id : String) :
    Keeps I (retireLiveUser shoes tag registry accounting removed id) := by
  unfold Runtime.retireLiveUser
  split
  · exact piecewise.stopFailure _ _ _ _
  refine Keeps.attempt_bind (piecewise.collect tag accounting id) ?_
  rintro (failure | value)
  · cases failure with
    | reserve error => exact piecewise.stopFailure _ _ _ _
    | remove failure => exact piecewise.stopFailure _ _ _ _
  · exact Keeps.pure _

theorem Piecewise.listForStop (tag : String) : Keeps I (listForStop tag) := by
  refine Keeps.attempt_bind (piecewise.ask _) ?_
  rintro (error | users)
  · cases error with
    | unsupported msg => exact Keeps.pure _
    | _ => exact Keeps.fail _
  · exact Keeps.pure _

theorem Piecewise.stop (listener registry accounting : NormalizedInbound V) :
    Keeps I (stopInboundWithOwners shoes listener registry accounting) := by
  refine Keeps.bind (piecewise.listForStop _) (fun live => ?_)
  refine Keeps.bind (Keeps.foldEach (A := fun _ => True) trivial (fun removed _ id _ =>
    ⟨piecewise.retireLiveUser _ registry accounting removed id,Returns.any _⟩)) (fun removed => ?_)
  refine Keeps.attempt_bind (piecewise.removeInboundHard _) ?_
  rintro (error | value)
  · exact Keeps.bind (piecewise.stopFailure _ _ _ _) (fun _ => Keeps.pure _)
  · exact Keeps.pure _

theorem Piecewise.forceCollect (tag : String) (inbound : RetiringInbound V) (id : String) : Keeps I (forceCollect tag inbound id) := by
  refine Keeps.attempt_bind (piecewise.collect tag inbound.accounting id) ?_
  rintro (failure | value)
  · cases failure with
    | reserve error => exact Keeps.fail _
    | remove failure =>
      dsimp only
      split
      · exact Keeps.pure _
      · exact Keeps.fail _
  · exact Keeps.pure _

theorem Piecewise.forceStop (tag : String) (known : Option (RetiringInbound V)) : Keeps I (forceStopTag tag known) := by
  refine Keeps.bind ?_ (fun _ => Keeps.orFail (piecewise.removeInboundHard tag))
  refine Keeps.attempt_bind (piecewise.ask _) ?_
  rintro (error | users)
  · cases error with
    | unsupported msg => exact Keeps.pure _
    | _ => exact Keeps.fail _
  cases known with
  | none =>
    dsimp only
    split
    · exact Keeps.fail _
    · exact Keeps.pure _
  | some inbound => exact Keeps.forEach (fun id _ => piecewise.forceCollect tag inbound id)

end

/-- Kept by everything that leaves the journal alone, and no matter of the runtime's own
    state. -/
structure Lasting (shoes : Shoes V) (I : World V → Prop) : Prop where
  closed : ∀ journal, Closed shoes (fun w => I w ∧ w.journal = journal)
  frame : ∀ w w' : World V, w'.engine = w.engine → w'.pending = w.pending → w'.peak = w.peak → I w → I w'

theorem Closed.and {J : World V → Prop} (first : Closed shoes I) (second : Closed shoes J) : Closed shoes (fun w => I w ∧ J w) where
  ask answer := fun w both => Ensures.and (first.ask answer w both.1) (second.ask answer w both.2)
  addInbound spec := fun w both => Ensures.and (first.addInbound spec w both.1) (second.addInbound spec w both.2)
  addInboundWithReplay spec lease := fun w both =>
    Ensures.and (first.addInboundWithReplay spec lease w both.1) (second.addInboundWithReplay spec lease w both.2)
  updateInbound inbound := fun w both => Ensures.and (first.updateInbound inbound w both.1) (second.updateInbound inbound w both.2)
  addUser tag user := fun w both => Ensures.and (first.addUser tag user w both.1) (second.addUser tag user w both.2)
  collect tag accounting id own := fun w both =>
    Ensures.and (first.collect tag accounting id own w both.1) (second.collect tag accounting id own w both.2)
  flush tag old id own := fun w both => Ensures.and (first.flush tag old id own w both.1) (second.flush tag old id own w both.2)
  stop listener registry accounting own := fun w both =>
    Ensures.and (first.stop listener registry accounting own w both.1) (second.stop listener registry accounting own w both.2)

section
variable {journal : List (Undo V)}

theorem journal_call {α : Type} (effect : Moment → Engine V → Except EngineError (α × Engine V)) :
    Keeps (fun w => w.journal = journal) (call effect) := by
  rintro w rfl
  refine Ensures.mono (ensures_call w) ?_
  rintro (error | a) w' held
  · rw [held.1]
    exact (same_seen w).journal
  · obtain ⟨e',_,_,rfl⟩ := held
    exact (same_seen w).journal

theorem journal_callRemoveUser (tag id : String) : Keeps (fun w => w.journal = journal) (@callRemoveUser V tag id) := by
  rintro w rfl
  refine moment_bind (Ensures.look_bind ?_)
  have found := (same_seen w).journal
  cases removeUser (seen w).engine tag id with
  | error error => exact found
  | ok answer =>
    cases (now w).fault with
    | none => exact found
    | some fault =>
      cases fault with
      | io msg => exact found
      | invalidConfig msg => exact found

theorem journal_removeUserWithRetry (tag id : String) : Keeps (fun w => w.journal = journal) (@removeUserWithRetry V tag id) := by
  refine Keeps.attempt_bind (journal_callRemoveUser tag id) ?_
  rintro (error | receipt)
  · cases error with
    | io first =>
      refine Keeps.attempt_bind (journal_callRemoveUser tag id) ?_
      rintro (retry | receipt)
      · exact Keeps.fail _
      · exact Keeps.pure _
    | _ => exact Keeps.fail _
  · exact Keeps.pure _

theorem journal_reserve (inbound : NormalizedInbound V) (id : String) : Keeps (fun w => w.journal = journal) (reserveTraffic inbound id) := by
  refine Keeps.look_bind (fun w held => ?_)
  split
  · exact held
  · exact held

theorem journal_drop {ε : Type} (reservation : Reservation) : Keeps (fun w => w.journal = journal) (@dropReservation V ε reservation) := by
  refine Keeps.change (fun w held => ?_)
  split
  · exact held
  · exact held

theorem journal_queue {ε : Type} (reservation : Reservation) (inbound : NormalizedInbound V) (receipt : Receipt) :
    Keeps (fun w => w.journal = journal) (@queueTraffic V ε reservation inbound receipt) := Keeps.change (fun _ held => held)

theorem journal_collect (tag : String) (accounting : NormalizedInbound V) (id : String) :
    Keeps (fun w => w.journal = journal) (collectUser tag accounting id) := by
  refine Keeps.attempt_bind (journal_reserve accounting id) ?_
  rintro (error | reservation)
  · exact Keeps.fail _
  refine Keeps.attempt_bind (journal_removeUserWithRetry tag id) ?_
  rintro (failure | receipt)
  · exact Keeps.bind (journal_drop reservation) (fun _ => Keeps.fail _)
  · exact journal_queue reservation accounting receipt

theorem journal_flush (tag : String) (old : NormalizedInbound V) (id : String) :
    Keeps (fun w => w.journal = journal) (flushUser tag old id) := by
  refine Keeps.bind (Keeps.orFail (journal_reserve old id)) (fun reservation => ?_)
  refine Keeps.attempt_bind (journal_call _) ?_
  rintro (error | receipt)
  · exact Keeps.bind (journal_drop reservation) (fun _ => Keeps.fail _)
  · exact journal_queue reservation old receipt

/-- No engine call of a transaction changes its journal. -/
theorem journal_closed (shoes : Shoes V) (journal : List (Undo V)) : Closed shoes (fun w => w.journal = journal) where
  ask _ := journal_call _
  addInbound _ := journal_call _
  addInboundWithReplay _ _ := journal_call _
  updateInbound _ := journal_call _
  addUser _ _ := journal_call _
  collect tag accounting id _ := journal_collect tag accounting id
  flush tag old id _ := journal_flush tag old id
  stop listener registry accounting _ := by
    have piecewise : Piecewise shoes (fun w => w.journal = journal) :=
      ⟨fun _ => journal_call _,fun _ _ => journal_call _,journal_collect,fun _ => journal_call _⟩
    exact piecewise.stop listener registry accounting

end

theorem Closed.lasting (closed : Closed shoes I)
    (frame : ∀ w w' : World V, w'.engine = w.engine → w'.pending = w.pending → w'.peak = w.peak → I w → I w') : Lasting shoes I :=
  ⟨fun journal => closed.and (journal_closed shoes journal),frame⟩

/-- Every inbound of the config lies under its own tag. -/
def ByTag (config : NormalizedConfig V) : Prop :=
  ∀ (tag : String) (inbound : NormalizedInbound V), config.inbounds[tag]? = some inbound → inbound.compiled.spec.tag = tag

/-- The generations that an inverse names share a tag. -/
def Tagged : Undo V → Prop
  | .removeInbound live accounting => accounting.compiled.spec.tag = live.compiled.spec.tag
  | .restoreHotConfig current previous _ => previous.compiled.spec.tag = current.compiled.spec.tag
  | .removeUser live accounting _ => accounting.compiled.spec.tag = live.compiled.spec.tag
  | _ => True

/-- The condition, with a journal that can be rolled back. -/
def Ready (I : World V → Prop) (w : World V) : Prop := I w ∧ ∀ undo ∈ w.journal, Tagged undo

theorem keeps_ready {ε α : Type} {p : Op (World V) ε α} (keeps : ∀ journal, Keeps (fun w => I w ∧ w.journal = journal) p) :
    Keeps (Ready I) p := by
  rintro w ⟨held,tagged⟩
  refine Ensures.mono (keeps w.journal w ⟨held,rfl⟩) ?_
  rintro _ w' ⟨held',same⟩
  exact ⟨held',by rw [same]; exact tagged⟩

theorem Lasting.ready (lasting : Lasting shoes I) : Closed shoes (Ready I) where
  ask answer := keeps_ready (fun journal => (lasting.closed journal).ask answer)
  addInbound spec := keeps_ready (fun journal => (lasting.closed journal).addInbound spec)
  addInboundWithReplay spec lease := keeps_ready (fun journal => (lasting.closed journal).addInboundWithReplay spec lease)
  updateInbound inbound := keeps_ready (fun journal => (lasting.closed journal).updateInbound inbound)
  addUser tag user := keeps_ready (fun journal => (lasting.closed journal).addUser tag user)
  collect tag accounting id own := keeps_ready (fun journal => (lasting.closed journal).collect tag accounting id own)
  flush tag old id own := keeps_ready (fun journal => (lasting.closed journal).flush tag old id own)
  stop listener registry accounting own := keeps_ready (fun journal => (lasting.closed journal).stop listener registry accounting own)

theorem Lasting.push {ε : Type} (lasting : Lasting shoes I) {undo : Undo V} (tagged : Tagged undo) :
    Keeps (Ready I) (@push V ε undo) := by
  refine Keeps.change ?_
  rintro w ⟨held,earlier⟩
  refine ⟨lasting.frame w _ rfl rfl rfl held,?_⟩
  intro other member
  rcases List.mem_cons.mp member with rfl | later
  · exact tagged
  · exact earlier other later

/-! ### The incremental apply -/

theorem keeps_expectInbound {β : Type} {config : NormalizedConfig V} {tag : String} {f : NormalizedInbound V → Op (World V) StepFailure β}
    (byTag : ByTag config) (next : ∀ inbound, inbound.compiled.spec.tag = tag → Keeps I (f inbound)) :
    Keeps I (expectInbound config tag >>= f) := by
  unfold expectInbound
  split
  · next inbound found =>
    show Keeps I (f inbound)
    exact next inbound (byTag tag inbound found)
  · intro w held
    exact held

theorem keeps_expectUser (inbound : NormalizedInbound V) (id : String) : Keeps I (expectUser inbound id) := by
  unfold expectUser
  split
  · exact Keeps.pure _
  · exact Keeps.fail _

section
variable (lasting : Lasting shoes I) {current desired : NormalizedConfig V} (byTag : ByTag current) (byTag' : ByTag desired)
include lasting

theorem keeps_preserveFor (operation tag : String) : Keeps (Ready I) (preserveFor operation tag) :=
  Keeps.orFail (lasting.ready.ask _)

theorem keeps_stopInbound (inbound : NormalizedInbound V) : Keeps (Ready I) (stopInbound shoes inbound) :=
  lasting.ready.stop inbound inbound inbound rfl

theorem keeps_takeDown (old : NormalizedInbound V) (replay : InboundReplayLease) : Keeps (Ready I) (takeDown shoes old replay) :=
  Keeps.bind (keeps_stopInbound lasting old) (fun _ => lasting.push trivial)

theorem keeps_bringUp {operation : String} {start : Op (World V) EngineError Unit} {new accounting : NormalizedInbound V}
    (keeps : Keeps (Ready I) start) (same : accounting.compiled.spec.tag = new.compiled.spec.tag) :
    Keeps (Ready I) (bringUp operation start new accounting) :=
  Keeps.bind (Keeps.orFail keeps) (fun _ => lasting.push same)

include byTag in
theorem keeps_removeTag (tag : String) : Keeps (Ready I) (removeTag shoes current tag) := by
  refine keeps_expectInbound byTag (fun old _ => ?_)
  exact Keeps.bind (keeps_preserveFor lasting _ _) (fun replay => keeps_takeDown lasting old replay)

/-- The two generations of a replaced listener share a tag. -/
def Replaceable (replacements : List (Replacement V)) : Prop :=
  ∀ replacement ∈ replacements, replacement.old.compiled.spec.tag = replacement.new.compiled.spec.tag

omit lasting in
theorem replaceable_snoc {replacements : List (Replacement V)} {tag : String} {old new : NormalizedInbound V} {replay : InboundReplayLease}
    (earlier : Replaceable replacements) (same : old.compiled.spec.tag = new.compiled.spec.tag) :
    Replaceable (replacements ++ [⟨tag,old,new,replay⟩]) := by
  intro replacement member
  rcases List.mem_append.mp member with before | last
  · exact earlier replacement before
  · rw [List.mem_singleton.mp last]
    exact same

include byTag byTag' in
theorem keeps_hotUpdate (replacements : List (Replacement V)) (delta : InboundDelta) :
    Keeps (Ready I) (hotUpdate shoes current desired replacements delta) := by
  refine keeps_expectInbound byTag (fun old own => ?_)
  refine keeps_expectInbound byTag' (fun new own' => ?_)
  split
  · exact Keeps.bind (keeps_preserveFor lasting _ _) (fun _ => Keeps.pure _)
  split
  · refine Keeps.bind (keeps_preserveFor lasting _ _) (fun replay => ?_)
    refine Keeps.attempt_bind (lasting.ready.updateInbound new) ?_
    rintro (error | value)
    · cases error with
      | reloadRequired msg => exact Keeps.pure _
      | _ => exact Keeps.fail _
    · exact Keeps.bind (lasting.push (own.trans own'.symm)) (fun _ => Keeps.pure _)
  · exact Keeps.pure _

omit lasting in
include byTag byTag' in
theorem returns_hotUpdate {replacements : List (Replacement V)} (earlier : Replaceable replacements) (delta : InboundDelta) :
    Returns Replaceable (hotUpdate shoes current desired replacements delta) := by
  unfold hotUpdate expectInbound
  split
  · next old found =>
    split
    · next new found' =>
      have same : old.compiled.spec.tag = new.compiled.spec.tag := (byTag _ _ found).trans (byTag' _ _ found').symm
      show Returns Replaceable (if delta.userModeChanged then _ else _)
      split
      · exact Returns.bind (fun _ => Returns.pure (replaceable_snoc earlier same))
      split
      · refine Returns.bind (fun replay => Returns.bind ?_)
        rintro (error | value)
        · cases error with
          | reloadRequired msg => exact Returns.pure (replaceable_snoc earlier same)
          | _ => exact Returns.fail _
        · exact Returns.bind (fun _ => Returns.pure earlier)
      · exact Returns.pure earlier
    · intro w; trivial
  · intro w; trivial

theorem keeps_startReplacement (replacement : Replacement V)
    (same : replacement.old.compiled.spec.tag = replacement.new.compiled.spec.tag) :
    Keeps (Ready I) (startReplacement shoes replacement) :=
  keeps_bringUp lasting (lasting.ready.addInboundWithReplay _ _) same

theorem keeps_retireUser {tag : String} {old : NormalizedInbound V} (own : old.compiled.spec.tag = tag) (id : String) :
    Keeps (Ready I) (retireUser tag old id) := by
  refine Keeps.bind (keeps_expectUser old id) (fun oldUser => ?_)
  refine Keeps.attempt_bind (lasting.ready.collect tag old id own) ?_
  rintro (failure | value)
  · cases failure with
    | reserve error => exact Keeps.fail _
    | remove failure => exact Keeps.fail _
  · exact lasting.push trivial

theorem keeps_upsertUser {tag : String} {old new : NormalizedInbound V} (own : old.compiled.spec.tag = new.compiled.spec.tag)
    (change : UserDelta) : Keeps (Ready I) (upsertUser shoes tag old new change) := by
  refine Keeps.bind (keeps_expectUser new change.id) (fun newUser => ?_)
  refine Keeps.bind (Keeps.orFail (lasting.ready.addUser tag newUser)) (fun _ => ?_)
  refine Keeps.bind ?_ (fun previous => ?_)
  · unfold replacedUser
    split
    · exact Keeps.pure _
    · exact keeps_expectUser old change.id
  refine Keeps.bind (lasting.push ?_) (fun _ => ?_)
  · unfold upsertUndo
    split
    · exact own
    · trivial
  split
  · exact Keeps.orFail (lasting.ready.ask _)
  · exact Keeps.pure _

include byTag byTag' in
theorem keeps_reconcileUsers (replaced : List String) (delta : InboundDelta) :
    Keeps (Ready I) (reconcileUsers shoes current desired replaced delta) := by
  unfold reconcileUsers
  split
  · exact Keeps.pure _
  refine keeps_expectInbound byTag (fun old own => ?_)
  refine keeps_expectInbound byTag' (fun new own' => ?_)
  refine Keeps.bind (Keeps.forEach (fun id _ => keeps_retireUser lasting own id)) (fun _ => ?_)
  exact Keeps.forEach (fun change _ => keeps_upsertUser lasting (own.trans own'.symm) change)

include byTag' in
theorem keeps_startAdded (tag : String) : Keeps (Ready I) (startAdded shoes desired tag) := by
  refine keeps_expectInbound byTag' (fun new own => ?_)
  exact keeps_bringUp lasting (lasting.ready.addInbound _) rfl

theorem keeps_flushInbound (replaced : List String) {entry : String × NormalizedInbound V} (own : entry.2.compiled.spec.tag = entry.1) :
    Keeps (Ready I) (flushInbound desired replaced entry) := by
  unfold flushInbound
  split
  · exact Keeps.pure _
  split
  · exact Keeps.pure _
  split
  · exact Keeps.pure _
  refine Keeps.attempt_bind (lasting.ready.ask _) ?_
  rintro (error | users)
  · cases error with
    | unsupported msg => exact Keeps.pure _
    | _ => exact Keeps.fail _
  · exact Keeps.forEach (fun id _ => lasting.ready.flush entry.1 entry.2 id own)

include byTag in
theorem keeps_flush (replaced : List String) : Keeps (Ready I) (flushChangedTrafficMetadata current desired replaced) :=
  Keeps.forEach (fun entry member => keeps_flushInbound lasting replaced
    (byTag entry.1 entry.2 ((mem_toList current.inbounds).mp member)))

include byTag byTag' in
/-- The apply itself, on both of its paths. -/
theorem keeps_executeApply [DecidableEq V] (forceConfigReload : Bool) :
    Keeps (Ready I) (executeApply shoes current desired forceConfigReload) := by
  unfold executeApply
  split
  · refine Keeps.bind (Keeps.foldEach (A := fun _ => True) trivial (fun replays _ entry _ => ⟨?_,Returns.any _⟩)) (fun replays => ?_)
    · refine Keeps.bind (keeps_preserveFor lasting _ _) (fun replay => ?_)
      exact Keeps.bind (keeps_takeDown lasting entry.2 replay) (fun _ => Keeps.pure _)
    · refine Keeps.forEach (fun entry member => ?_)
      refine keeps_bringUp lasting ?_ ?_
      · unfold addCandidate
        split
        · exact lasting.ready.addInboundWithReplay _ _
        · exact lasting.ready.addInbound _
      · show (uncommittedAccountingOwner current.inbounds[entry.1]? entry.2).compiled.spec.tag = entry.2.compiled.spec.tag
        unfold uncommittedAccountingOwner
        split
        · next inbound found => rw [byTag _ _ found,byTag' _ _ ((mem_toList desired.inbounds).mp member)]
        · rfl
  · refine Keeps.bind (Keeps.forEach (fun tag _ => keeps_removeTag lasting byTag tag)) (fun _ => ?_)
    refine Keeps.bind_returned (A := Replaceable) (Keeps.foldEach (A := fun _ => True) trivial (fun replacements _ delta _ =>
      ⟨keeps_hotUpdate lasting byTag byTag' replacements delta,Returns.any _⟩)) ?_ (fun replacements replaceable => ?_)
    · intro w
      refine Ensures.foldEach (fun _ replacements _ => Replaceable replacements) (by intro _ member; cases member) ?_ (fun _ _ good => good)
      intro done delta rest replacements w' _ earlier
      exact returns_hotUpdate byTag byTag' earlier delta w'
    refine Keeps.bind (Keeps.forEach (fun replacement _ => keeps_takeDown lasting replacement.old replacement.replay)) (fun _ => ?_)
    refine Keeps.bind (Keeps.forEach (fun replacement member => keeps_startReplacement lasting replacement
      (replaceable replacement member))) (fun _ => ?_)
    refine Keeps.bind (Keeps.forEach (fun delta _ => keeps_reconcileUsers lasting byTag byTag' _ delta)) (fun _ => ?_)
    refine Keeps.bind (Keeps.forEach (fun tag _ => keeps_startAdded lasting byTag' tag)) (fun _ => ?_)
    exact keeps_flush lasting byTag _

/-! ### The rollback -/

theorem keeps_replace (current registry accounting new : NormalizedInbound V) (replay : InboundReplayLease)
    (own : accounting.compiled.spec.tag = current.compiled.spec.tag) :
    Keeps (Ready I) (replaceInboundWithReplayOwners shoes current registry accounting new replay) := by
  refine Keeps.bind (lasting.ready.stop current registry accounting own) (fun _ => ?_)
  refine Keeps.attempt_bind (lasting.ready.addInboundWithReplay _ _) ?_
  rintro (operation | value)
  · refine Keeps.attempt_bind (lasting.ready.addInboundWithReplay _ _) ?_
    rintro (rollback | value)
    · exact Keeps.fail _
    · exact Keeps.fail _
  · exact Keeps.pure _

theorem keeps_performUndo {undo : Undo V} (tagged : Tagged undo) : Keeps (Ready I) (performUndo shoes undo) := by
  cases undo with
  | addInbound inbound replay => exact Keeps.orFail (lasting.ready.addInboundWithReplay _ _)
  | removeInbound live accounting => exact Keeps.orFail (lasting.ready.stop live live accounting tagged)
  | restoreHotConfig current previous replay => exact Keeps.orFail (keeps_replace lasting current previous previous previous replay tagged)
  | addUser inbound user => exact Keeps.orFail (lasting.ready.addUser _ _)
  | removeUser live accounting userId => exact Keeps.orFail (lasting.ready.collect _ accounting userId tagged)
  | restoreUser inbound user kick =>
    refine Keeps.bind (Keeps.orFail (lasting.ready.addUser _ _)) (fun _ => ?_)
    split
    · exact Keeps.orFail (lasting.ready.ask _)
    · exact Keeps.pure _

theorem keeps_rollbackJournal {ε : Type} : Keeps (Ready I) (@rollbackJournal V shoes ε) := by
  refine Keeps.look_bind (fun w held => ?_)
  refine Ensures.change_bind ?_
  have cleared : Ready I { w with journal := [] } := ⟨lasting.frame w _ rfl rfl rfl held.1,by intro _ member; cases member⟩
  refine Ensures.bind (Keeps.foldEach (A := fun _ => True) trivial (fun progress _ undo member => ⟨?_,Returns.any _⟩) _ cleared)
    (fun _ _ held' => held') (fun _ _ held' => held')
  refine Keeps.attempt_bind (keeps_performUndo lasting (held.2 undo member)) ?_
  rintro (error | value)
  · exact Keeps.look_bind (fun w held' => held')
  · exact Keeps.pure _

theorem keeps_refreshRestored {ε : Type} (rollback : List String) (entry : String × NormalizedInbound V) :
    Keeps (Ready I) (@refreshRestored V shoes ε rollback entry) := by
  refine Keeps.attempt_bind (lasting.ready.updateInbound _) ?_
  rintro (error | value)
  · cases error with
    | reloadRequired msg =>
      refine Keeps.attempt_bind ?_ ?_
      · refine Keeps.attempt_bind (lasting.ready.ask _) ?_
        rintro (error | replay)
        · exact Keeps.fail _
        · exact keeps_replace lasting _ _ _ _ replay rfl
      · rintro (failure | value)
        · exact Keeps.pure _
        · exact Keeps.pure _
    | _ => exact Keeps.pure _
  · exact Keeps.pure _

theorem keeps_configureDns {ε : Type} (needed : Bool) : Keeps (Ready I) (@configureDns V ε needed) := by
  unfold configureDns
  split
  · exact Keeps.attempt (lasting.ready.ask _)
  · exact Keeps.pure _

theorem keeps_publishKnown {ε : Type} (config : NormalizedConfig V) : Keeps (Ready I) (@publishKnown V ε config) :=
  Keeps.change (fun w held => ⟨lasting.frame w _ rfl rfl rfl held.1,held.2⟩)

theorem keeps_finishFailed {ε : Type} (previous : NormalizedConfig V) (previousReplay : Map String InboundReplayLease)
    (failure : StepFailure) (dns : DnsReloadContext) :
    Keeps (Ready I) (@finishFailedTransaction V shoes ε previous previousReplay failure dns) := by
  refine Keeps.look_bind (fun w held => ?_)
  refine Keeps.bind (keeps_configureDns lasting dns.fullReload) (fun configured => ?_) w held
  refine Keeps.bind (keeps_rollbackJournal lasting) ?_
  rintro ⟨journalErrors,recoveryLive⟩
  refine Keeps.bind ?_ (fun rollback => ?_)
  · unfold refreshAll
    split
    · exact Keeps.foldEach (A := fun _ => True) trivial (fun rollback _ entry _ =>
        ⟨keeps_refreshRestored lasting rollback entry,Returns.any _⟩)
    · exact Keeps.pure _
  refine Keeps.bind ?_ (fun _ => Keeps.pure _)
  unfold publishFailed
  split
  · exact keeps_publishKnown lasting previous
  · exact Keeps.change (fun w held => ⟨lasting.frame w _ rfl rfl rfl held.1,held.2⟩)

end

end NodeAgent.Upkeep
