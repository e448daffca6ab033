import NodeAgent.TopologyManager
import NodeAgent.Transition

/-!
Runs of the topology manager. Each operation is specified once: what it may publish
(`Admits`), that a failure publishes nothing, and that the runtime keeps following the
published topology when its own calls do. The revision, the generation and the snapshot of
every published topology follow from what is admitted.
-/
namespace NodeAgent.Topology
open NodeAgent.Fallible NodeAgent.Transition NodeAgent.FiniteMap

variable {sc : Sections} {ρ C : Type}

/-! ### Operations as steps -/

inductive Operation (sc : Sections)
  | applyInitial (topology : MachineTopology sc)
  | applyAuthoritativeIfUnchanged (topology : MachineTopology sc) (expected : UInt64)
  | reloadFrom (baseline : UInt64) (stage : ReloadStage) (fetched : Option (Except FetchError (MachineTopology sc)))
  | applySnapshot (snapshot : Option (Pb.TopologySnapshot sc))
  | applyDelta (delta : Option Pb.TopologyDelta)
  | applyRoutePatch (patch : Option (Pb.TopologyRoutePatch sc)) (baseRevision : UInt64)
  | applyUserMutation (mutation : Option Pb.UserMutation) (baseRevision : UInt64)
  | refresh (request : UserRefreshRequest)
  | reconcileCurrent
  | stopOperations
  | close

/-- An operation and the state of the session token its caller is bound to. -/
structure Call (sc : Sections) where
  operation : Operation sc
  sessionCancelled : Bool

inductive Response
  | applied (result : Except TopologyError String)
  | refreshed (result : Except TopologyError UserRefreshChanges)
  | reloaded (result : TopologyReloadResult)
  | finished (result : Except TopologyError Unit)

/-- An error, or a reload whose outcome is not `Succeeded`. -/
def Response.failed : Response → Bool
  | .applied (.error _) => true
  | .refreshed (.error _) => true
  | .reloaded result => result.outcome ≠ .succeeded
  | .finished (.error _) => true
  | _ => false

/-- The result of a reload, whichever way it ended. -/
def ending : Except TopologyReloadResult TopologyReloadResult → TopologyReloadResult
  | .ok result => result
  | .error result => result

def operate (rt : TopologyRuntime sc ρ C) (call : Call sc) (m : Manager sc ρ) : Response × Manager sc ρ :=
  let session := call.sessionCancelled
  match call.operation with
  | .applyInitial topology => (applyInitial rt session topology m).map .applied id
  | .applyAuthoritativeIfUnchanged topology expected =>
    (applyAuthoritativeIfUnchanged rt session topology expected m).map .applied id
  | .reloadFrom baseline stage fetched =>
    (reloadFrom rt session baseline stage fetched m).map (fun result => .reloaded (ending result)) id
  | .applySnapshot snapshot => (applySnapshot rt session snapshot m).map .applied id
  | .applyDelta delta => (applyDelta rt session delta m).map .applied id
  | .applyRoutePatch patch base => (applyRoutePatch rt session patch base m).map .applied id
  | .applyUserMutation mutation base => (applyOneUserMutation rt session mutation base m).map .applied id
  | .refresh request => (refresh rt session request m).map .refreshed id
  | .reconcileCurrent => (reconcileCurrent rt session m).map .finished id
  | .stopOperations => (stopOperations rt m).map .finished id
  | .close => (close rt m).map .finished id

def step (rt : TopologyRuntime sc ρ C) (m : Manager sc ρ) (call : Call sc) : Option (Manager sc ρ) :=
  some (operate rt call m).2

/-! ### What an operation may publish -/

/-- What `guard_authoritative_revision` lets through. -/
def Authoritative (current : MachineTopology sc) (incoming : UInt64) : Prop :=
  current.machineId = "" ∨ current.revision = 0 ∨ current.revision ≤ incoming

/-- What `guard_revision_fence` lets through. -/
structure Fenced (current : MachineTopology sc) (base target : UInt64) : Prop where
  loaded : base = current.revision
  positive : base ≠ 0
  ahead : base ≤ target

/-- Everything an operation can publish when it succeeds; `none` leaves the published topology as it is. -/
inductive Admits (machineId : String) (current : Published sc) : Operation sc → Option (Publication sc) → Prop
  | applyInitial {topology} : Authoritative current.topology topology.revision →
      Admits machineId current (.applyInitial topology) (some (.replaced (topology.withDefaultId machineId)))
  | applyAuthoritative {topology expected} : Authoritative current.topology topology.revision →
      expected = current.generation → Admits machineId current (.applyAuthoritativeIfUnchanged topology expected)
        (some (.replaced (topology.withDefaultId machineId)))
  | reload {topology baseline stage} : Authoritative current.topology topology.revision → baseline = current.generation →
      Admits machineId current (.reloadFrom baseline stage (some (.ok topology)))
        (some (.replaced (topology.withDefaultId machineId)))
  | snapshot {snapshot} : snapshot.revision ≠ 0 → current.topology.revision ≤ snapshot.revision →
      Admits machineId current (.applySnapshot (some snapshot))
        (some (.replaced ((fromSnapshot machineId (some snapshot)).withDefaultId machineId)))
  | delta {delta next} : Fenced current.topology delta.baseRevision delta.targetRevision →
      deltaCandidate machineId current.topology delta = .ok next →
      Admits machineId current (.applyDelta (some delta)) (some (.replaced (next.withDefaultId machineId)))
  | routePatch {patch base} : Fenced current.topology base patch.revision →
      Admits machineId current (.applyRoutePatch (some patch) base)
        (some (.replaced ((routePatchCandidate machineId current.topology patch).withDefaultId machineId)))
  | userMutation {mutation base next} : Fenced current.topology base mutation.revision →
      userMutationCandidate machineId current.topology mutation = .ok next →
      Admits machineId current (.applyUserMutation (some mutation) base) (some (.replaced (next.withDefaultId machineId)))
  | refreshed {request index changes} : planRefresh current.topology request = .ok (index,changes) →
      (∀ base target, request.revision = .fence base target → Fenced current.topology base target) →
      Admits machineId current (.refresh request) (some (.replaced
        ((refreshCandidate current.topology request.nodeId index request.users request.revision.target).withDefaultId machineId)))
  | advanced {request index changes} : planRefresh current.topology request = .ok (index,changes) →
      (∀ base target, request.revision = .fence base target → Fenced current.topology base target) →
      current.topology.revision < request.revision.target →
      Admits machineId current (.refresh request) (some (.advanced request.revision.target))
  | unchanged {request index changes} : planRefresh current.topology request = .ok (index,changes) →
      request.revision.target ≤ current.topology.revision → Admits machineId current (.refresh request) none
  | reconcile : Admits machineId current .reconcileCurrent none
  | stop : Admits machineId current .stopOperations none
  | close : Admits machineId current .close none

/-- The published state after a publication. -/
def Published.after (published : Published sc) : Option (Publication sc) → Published sc
  | none => published
  | some (.replaced topology) => published.publish topology
  | some (.advanced revision) => published.advance revision

/-! ### The specification of the operations

`S` is any relation between the published topology and the state of the runtime. -/

/-- An ordinary apply leaves the runtime with the topology that is published after it. -/
def Applies (rt : TopologyRuntime sc ρ C) (S : MachineTopology sc → ρ → Prop) (t : MachineTopology sc) (r : ρ) : Prop :=
  ∀ c, Ensures (rt.apply c) r (Outcome (fun _ r' => S c r') (fun _ r' => S t r'))

/-- A forced reload does. -/
def Reloads (rt : TopologyRuntime sc ρ C) (S : MachineTopology sc → ρ → Prop) (t : MachineTopology sc) (r : ρ) : Prop :=
  ∀ c, Ensures (rt.reload c) r (Outcome (fun status r' => if status.running then S c r' else S t r') (fun _ r' => S t r'))

/-- The reconciliation of the published topology does. -/
def Reconciles (rt : TopologyRuntime sc ρ C) (S : MachineTopology sc → ρ → Prop) (t : MachineTopology sc) (r : ρ) : Prop :=
  Ensures (rt.reconcileCurrent t) r (fun _ r' => S t r')

/-- The calls without an outcome keep the runtime with the published topology. -/
structure Idles (rt : TopologyRuntime sc ρ C) (S : MachineTopology sc → ρ → Prop) : Prop where
  closeUserConnections : ∀ {t r}, S t r → ∀ nodeId userId, S t (rt.closeUserConnections nodeId userId r)
  beginClose : ∀ {t r}, S t r → S t (rt.beginClose r)
  atRevision : ∀ {t r}, S t r → ∀ revision, S (t.atRevision revision) r

/-- The runtime's own calls keep to the published topology. -/
structure Tracks (rt : TopologyRuntime sc ρ C) (S : MachineTopology sc → ρ → Prop) : Prop extends Idles rt S where
  apply : ∀ {t r}, S t r → Applies rt S t r
  reload : ∀ {t r}, S t r → Reloads rt S t r
  reconcileCurrent : ∀ {t r}, S t r → Reconciles rt S t r

theorem Tracks.any (rt : TopologyRuntime sc ρ C) : Tracks rt (fun _ _ => True) where
  apply _ c := by
    unfold Ensures
    cases (rt.apply c _).1 <;> trivial
  reload _ c := by
    unfold Ensures
    cases (rt.reload c _).1 with
    | error result => trivial
    | ok status => simp [Outcome]
  reconcileCurrent _ := show Ensures _ _ _ from trivial
  closeUserConnections _ _ _ := trivial
  beginClose _ := trivial
  atRevision _ _ := trivial

variable {rt : TopologyRuntime sc ρ C} {S : MachineTopology sc → ρ → Prop} {m : Manager sc ρ}

/-- The manager after a publication, with a runtime that follows it. -/
structure Follows (S : MachineTopology sc → ρ → Prop) (m : Manager sc ρ) (change : Option (Publication sc))
    (m' : Manager sc ρ) : Prop where
  machineId : m'.machineId = m.machineId
  published : m'.published = m.published.after change
  runtime : S m'.published.topology m'.runtime

/-- A success publishes what is admitted, a failure nothing. -/
def Settled {ε α : Type} (S : MachineTopology sc → ρ → Prop) (m : Manager sc ρ) (Good : Option (Publication sc) → Prop) :
    Except ε α → Manager sc ρ → Prop :=
  Outcome (fun _ m' => ∃ change, Good change ∧ Follows S m change m') (fun _ m' => Follows S m none m')

section Spec
variable {ε α : Type} (held : S m.published.topology m.runtime)
include held

theorem follows_refl : Follows S m none m := ⟨rfl,rfl,held⟩

theorem ensures_beginOperation (session : Bool) : Ensures (beginOperation session) m
    (Outcome (fun _ m' => m' = m ∧ m.operationsCancelled = false ∧ session = false) (fun _ m' => Follows S m none m')) := by
  have kept := follows_refl held
  refine Ensures.look_bind ?_
  split
  · exact Ensures.fail kept
  · next runs =>
    split
    · exact Ensures.fail kept
    · next lasts => exact Ensures.pure ⟨rfl,Bool.eq_false_of_not_eq_true runs,Bool.eq_false_of_not_eq_true lasts⟩

theorem ensures_guardRevision (incoming : UInt64) : Ensures (guardRevision incoming) m
    (Outcome (fun _ m' => m' = m ∧ incoming ≠ 0 ∧ m.published.topology.revision ≤ incoming)
      (fun _ m' => Follows S m none m')) := by
  have kept := follows_refl held
  refine Ensures.look_bind ?_
  simp only
  split
  · exact Ensures.fail kept
  · next positive =>
    split
    · exact Ensures.fail kept
    · next ahead => exact Ensures.pure ⟨rfl,positive,UInt64.not_lt.mp ahead⟩

theorem ensures_guardAuthoritativeRevision (incoming : UInt64) : Ensures (guardAuthoritativeRevision incoming) m
    (Outcome (fun _ m' => m' = m ∧ Authoritative m.published.topology incoming) (fun _ m' => Follows S m none m')) := by
  have kept := follows_refl held
  refine Ensures.look_bind ?_
  simp only
  split
  · next admitted => exact Ensures.pure ⟨rfl,admitted⟩
  · exact Ensures.fail kept

theorem ensures_guardRevisionFence (base target : UInt64) : Ensures (guardRevisionFence base target) m
    (Outcome (fun _ m' => m' = m ∧ Fenced m.published.topology base target) (fun _ m' => Follows S m none m')) := by
  have kept := follows_refl held
  refine Ensures.look_bind ?_
  simp only
  split
  · exact Ensures.fail kept
  · next positive =>
    split
    · exact Ensures.fail kept
    · next same =>
      split
      · exact Ensures.fail kept
      · next ahead =>
        have ⟨nonzero,_⟩ := not_or.mp positive
        exact Ensures.pure ⟨rfl,not_not.mp same,nonzero,UInt64.not_lt.mp ahead⟩

end Spec

/-- A publication, once the runtime follows the topology that is to be published. -/
theorem ensures_publishAndCloseStaleUsers {ε : Type} (idles : Idles rt S) {topology : MachineTopology sc}
    (applied : S topology m.runtime) : Ensures (publishAndCloseStaleUsers (ε := ε) rt topology) m
      (Outcome (fun _ m' => Follows S m (some (.replaced topology)) m') (fun _ _ => False)) := by
  refine Ensures.look_bind (Ensures.change_bind ?_)
  let P (m' : Manager sc ρ) : Prop := Follows S m (some (.replaced topology)) m'
  have start : P { m with published := m.published.publish topology } := ⟨rfl,rfl,applied⟩
  refine Ensures.forEach (fun _ m' => P m') start ?_ (fun _ held => held)
  intro _ entry _ m₁ _ held₁
  refine Ensures.forEach (fun _ m' => P m') held₁ ?_ (fun _ held => held)
  intro _ userId _ m₂ _ held₂
  exact Ensures.change ⟨held₂.machineId,held₂.published,idles.closeUserConnections held₂.runtime entry.1 userId⟩

theorem ensures_closeExplicitlyRequestedUsers {ε : Type} (idles : Idles rt S) {change : Option (Publication sc)}
    {m₁ : Manager sc ρ} (followed : Follows S m change m₁) (mutations : List Pb.UserMutation) :
    Ensures (closeExplicitlyRequestedUsers (ε := ε) rt mutations) m₁
      (Outcome (fun _ m' => Follows S m change m') (fun _ _ => False)) := by
  refine Ensures.forEach (fun _ m' => Follows S m change m') followed ?_ (fun _ held => held)
  intro _ mutation _ m₂ _ held₂
  refine Ensures.change ?_
  show Follows S m change _
  cases mutation.user with
  | none => exact held₂
  | some user =>
    simp only
    split
    · exact ⟨held₂.machineId,held₂.published,idles.closeUserConnections held₂.runtime mutation.nodeId user.userId⟩
    · exact held₂

theorem ensures_onRuntime {ε α : Type} {p : Op ρ ε α} {Q : Except ε α → ρ → Prop} (called : Ensures p m.runtime Q) :
    Ensures (onRuntime p) m (fun result m' => Q result m'.runtime ∧ m'.machineId = m.machineId ∧ m'.published = m.published) :=
  ⟨called,rfl,rfl⟩

/-- `apply` publishes its candidate with the manager's ID filled in. -/
theorem ensures_apply (idles : Idles rt S) (applies : Applies rt S m.published.topology m.runtime) (topology : MachineTopology sc) :
    Ensures (apply rt topology) m
      (Settled S m (fun change => change = some (.replaced (topology.withDefaultId m.machineId)))) := by
  refine Ensures.look_bind ?_
  simp only
  refine Ensures.bind (ensures_onRuntime (applies (topology.withDefaultId m.machineId))) ?_ ?_
  · rintro ⟨⟩ m₁ ⟨applied,id₁,published₁⟩
    refine Ensures.bind (ensures_publishAndCloseStaleUsers idles applied) ?_ (fun _ _ no => no.elim)
    intro _ m₂ followed
    refine Ensures.look_bind (Ensures.pure ⟨_,rfl,?_⟩)
    exact ⟨followed.machineId.trans id₁,by rw [followed.published,published₁],followed.runtime⟩
  · rintro error m₁ ⟨kept,id₁,published₁⟩
    exact ⟨id₁,published₁,by rw [published₁]; exact kept⟩

section Operations
variable {ε α β : Type} {Good : Option (Publication sc) → Prop}

/-- A check that leaves the manager alone comes first. -/
theorem ensures_checked {p : Op (Manager sc ρ) ε α} {f : α → Op (Manager sc ρ) ε β} {Fact : Prop}
    (checked : Ensures p m (Outcome (fun _ m' => m' = m ∧ Fact) (fun _ m' => Follows S m none m')))
    (next : ∀ a, Fact → Ensures (f a) m (Settled S m Good)) : Ensures (p >>= f) m (Settled S m Good) := by
  refine Ensures.bind checked ?_ (fun _ _ kept => kept)
  rintro a m' ⟨rfl,fact⟩
  exact next a fact

theorem ensures_admitted (held : S m.published.topology m.runtime) (session : Bool)
    {f : Unit → Op (Manager sc ρ) TopologyError β} (next : Ensures (f ()) m (Settled S m Good)) :
    Ensures (beginOperation session >>= f) m (Settled S m Good) := by
  refine Ensures.bind (ensures_beginOperation held session) ?_ (fun _ _ kept => kept)
  rintro ⟨⟩ m' ⟨rfl,-,-⟩
  exact next

theorem ensures_apply_admits (idles : Idles rt S) (applies : Applies rt S m.published.topology m.runtime) {topology : MachineTopology sc}
    (admits : Good (some (.replaced (topology.withDefaultId m.machineId)))) :
    Ensures (apply rt topology) m (Settled S m Good) := by
  refine Ensures.mono (ensures_apply idles applies topology) ?_
  rintro (error | message) m' settled
  · exact settled
  · obtain ⟨_,rfl,followed⟩ := settled
    exact ⟨_,admits,followed⟩

variable (idles : Idles rt S) (held : S m.published.topology m.runtime) (applies : Applies rt S m.published.topology m.runtime) (session : Bool)
include idles held applies

theorem ensures_applyInitial (topology : MachineTopology sc) : Ensures (applyInitial rt session topology) m
    (Settled S m (Admits m.machineId m.published (.applyInitial topology))) := by
  refine ensures_admitted held session ?_
  refine ensures_checked (ensures_guardAuthoritativeRevision held topology.revision) ?_
  intro _ authoritative
  exact ensures_apply_admits idles applies (.applyInitial authoritative)

theorem ensures_applyAuthoritativeIfUnchanged (topology : MachineTopology sc) (expected : UInt64) :
    Ensures (applyAuthoritativeIfUnchanged rt session topology expected) m
      (Settled S m (Admits m.machineId m.published (.applyAuthoritativeIfUnchanged topology expected))) := by
  refine ensures_admitted held session ?_
  refine ensures_checked (ensures_guardAuthoritativeRevision held topology.revision) ?_
  intro _ authoritative
  refine Ensures.look_bind ?_
  simp only
  split
  · exact Ensures.fail (follows_refl held)
  · next same => exact ensures_apply_admits idles applies (.applyAuthoritative authoritative (not_not.mp same).symm)

theorem ensures_applySnapshot (snapshot : Option (Pb.TopologySnapshot sc)) : Ensures (applySnapshot rt session snapshot) m
    (Settled S m (Admits m.machineId m.published (.applySnapshot snapshot))) := by
  refine ensures_admitted held session ?_
  cases snapshot with
  | none => exact Ensures.fail (follows_refl held)
  | some snapshot =>
    refine ensures_checked (ensures_guardRevision held snapshot.revision) ?_
    rintro _ ⟨positive,ahead⟩
    exact Ensures.look_bind (ensures_apply_admits idles applies (.snapshot positive ahead))

omit held in
/-- A publication and the disconnections a command asks for. -/
theorem ensures_apply_closing {topology : MachineTopology sc} (mutations : List Pb.UserMutation)
    (admits : Good (some (.replaced (topology.withDefaultId m.machineId)))) : Ensures (do
      let message ← apply rt topology
      closeExplicitlyRequestedUsers rt mutations
      pure message) m (Settled S m Good) := by
  refine Ensures.bind (ensures_apply idles applies topology) ?_ (fun _ _ kept => kept)
  rintro message m₁ ⟨_,rfl,followed⟩
  refine Ensures.bind (ensures_closeExplicitlyRequestedUsers idles followed mutations) ?_ (fun _ _ no => no.elim)
  intro _ m₂ followed
  exact Ensures.pure ⟨_,admits,followed⟩

theorem ensures_applyDelta (delta : Option Pb.TopologyDelta) : Ensures (applyDelta rt session delta) m
    (Settled S m (Admits m.machineId m.published (.applyDelta delta))) := by
  refine ensures_admitted held session ?_
  cases delta with
  | none => exact Ensures.fail (follows_refl held)
  | some delta =>
    refine ensures_checked (ensures_guardRevisionFence held delta.baseRevision delta.targetRevision) ?_
    intro _ fenced
    refine Ensures.look_bind ?_
    cases built : deltaCandidate m.machineId m.published.topology delta with
    | error error => exact Ensures.fail (follows_refl held)
    | ok next => exact ensures_apply_closing idles applies delta.userMutations (.delta fenced built)

theorem ensures_applyRoutePatch (patch : Option (Pb.TopologyRoutePatch sc)) (base : UInt64) :
    Ensures (applyRoutePatch rt session patch base) m
      (Settled S m (Admits m.machineId m.published (.applyRoutePatch patch base))) := by
  refine ensures_admitted held session ?_
  cases patch with
  | none => exact Ensures.fail (follows_refl held)
  | some patch =>
    refine ensures_checked (ensures_guardRevisionFence held base patch.revision) ?_
    intro _ fenced
    exact Ensures.look_bind (ensures_apply_admits idles applies (.routePatch fenced))

theorem ensures_applyOneUserMutation (mutation : Option Pb.UserMutation) (base : UInt64) :
    Ensures (applyOneUserMutation rt session mutation base) m
      (Settled S m (Admits m.machineId m.published (.applyUserMutation mutation base))) := by
  refine ensures_admitted held session ?_
  cases mutation with
  | none => exact Ensures.fail (follows_refl held)
  | some mutation =>
    refine ensures_checked (ensures_guardRevisionFence held base mutation.revision) ?_
    intro _ fenced
    refine Ensures.look_bind ?_
    cases built : userMutationCandidate m.machineId m.published.topology mutation with
    | error error => exact Ensures.fail (follows_refl held)
    | ok next => exact ensures_apply_closing idles applies [mutation] (.userMutation fenced built)

omit idles applies in
theorem ensures_guardRefresh (revision : UserRefreshRevision) : Ensures (guardRefresh revision) m
    (Outcome (fun _ m' => m' = m ∧ ∀ base target, revision = .fence base target → Fenced m.published.topology base target)
      (fun _ m' => Follows S m none m')) := by
  cases revision with
  | none => exact Ensures.pure ⟨rfl,by simp⟩
  | advanceTo target => exact Ensures.pure ⟨rfl,by simp⟩
  | fence base target =>
    refine Ensures.mono (ensures_guardRevisionFence held base target) ?_
    rintro (error | ⟨⟩) m' checked
    · exact checked
    · obtain ⟨same,fenced⟩ := checked
      refine ⟨same,?_⟩
      intro base' target' equal
      cases equal
      exact fenced

theorem ensures_refresh (request : UserRefreshRequest) : Ensures (refresh rt session request) m
    (Settled S m (Admits m.machineId m.published (.refresh request))) := by
  refine ensures_admitted held session ?_
  split
  · exact Ensures.fail (follows_refl held)
  refine ensures_checked (ensures_guardRefresh held request.revision) ?_
  intro _ fenced
  refine Ensures.look_bind ?_
  cases planned : planRefresh m.published.topology request with
  | error error => exact Ensures.fail (follows_refl held)
  | ok plan =>
    obtain ⟨index,changes⟩ := plan
    simp only
    split
    · -- The users are as the panel has them; only the revision may move.
      refine Ensures.change_bind (Ensures.pure ?_)
      by_cases ahead : 0 < request.revision.target ∧ m.published.topology.revision < request.revision.target
      · rw [if_pos ahead]
        exact ⟨_,.advanced planned fenced ahead.2,rfl,rfl,idles.atRevision held _⟩
      · rw [if_neg ahead]
        refine ⟨none,.unchanged planned ?_,follows_refl held⟩
        rw [not_and_or,UInt64.not_lt,UInt64.not_lt] at ahead
        rcases ahead with zero | behind
        · exact UInt64.le_trans zero (UInt64.zero_le)
        · exact behind
    · refine Ensures.bind (Q := Settled S m (Admits m.machineId m.published (.refresh request))) ?_ ?_ (fun _ _ kept => kept)
      · refine Ensures.orFail (ensures_apply idles applies _) ?_ (fun _ _ kept => kept)
        rintro message m' ⟨_,rfl,followed⟩
        exact ⟨_,.refreshed planned fenced,followed⟩
      · intro message m' settled
        exact Ensures.pure settled

omit idles applies in
theorem ensures_reconcileCurrent (reconciles : Reconciles rt S m.published.topology m.runtime) : Ensures (reconcileCurrent rt session) m
    (Settled S m (Admits m.machineId m.published .reconcileCurrent)) := by
  refine ensures_admitted held session ?_
  refine Ensures.look_bind ?_
  split
  · exact Ensures.pure ⟨none,.reconcile,follows_refl held⟩
  · refine Ensures.mono (ensures_onRuntime reconciles) ?_
    rintro result m' ⟨kept,id',published'⟩
    have followed : Follows S m none m' := ⟨id',published',by rw [published']; exact kept⟩
    cases result with
    | error error => exact followed
    | ok value => exact ⟨none,.reconcile,followed⟩

end Operations

/-! ### Reload, stop and close -/

theorem reloadFailure_outcome (stage : ReloadStage) (error : TopologyError) : (reloadFailure stage error).outcome ≠ .succeeded := by
  unfold reloadFailure failedReload
  simp only
  split
  · simp
  · split <;> simp

/-- No step of a forced reload fails with a success. -/
theorem reload_fails (candidate : MachineTopology sc) (r : ρ) : Ensures (rt.reload candidate) r
    (Outcome (fun _ _ => True) (fun result _ => result.outcome ≠ .succeeded)) := by
  have failing {α : Type} (p : Op ρ TopologyError α) (r : ρ) (stage : ReloadStage) :
      Ensures (orFail p (reloadFailure stage)) r
        (Outcome (fun _ _ => True) (fun result _ => result.outcome ≠ .succeeded)) :=
    Ensures.orFail (Q := fun _ _ => True) trivial (fun _ _ _ => trivial)
      (fun error _ _ => reloadFailure_outcome stage error)
  refine Ensures.bind (failing _ r .buildConfiguration) ?_ (fun _ _ failed => failed)
  intro prepared r₁ _
  refine Ensures.bind (failing _ r₁ .configurePortHopping) ?_ (fun _ _ failed => failed)
  intro _ r₂ _
  exact failing _ r₂ .startInstance

/-- A reload that succeeds publishes; one that fails, and says so, does not. -/
def Reloaded (S : MachineTopology sc → ρ → Prop) (m : Manager sc ρ) (Good : Option (Publication sc) → Prop) :
    Except TopologyReloadResult TopologyReloadResult → Manager sc ρ → Prop :=
  Outcome (fun result m' => result.outcome = .succeeded ∧ ∃ change, Good change ∧ Follows S m change m')
    (fun result m' => result.outcome ≠ .succeeded ∧ Follows S m none m')

theorem ensures_receiveReload (held : S m.published.topology m.runtime) (stage : ReloadStage)
    (fetched : Option (Except FetchError (MachineTopology sc))) : Ensures (receiveReload stage fetched) m
      (Outcome (fun candidate m' => m' = m ∧ ∃ topology, fetched = some (.ok topology) ∧
          candidate = topology.withDefaultId m.machineId)
        (fun result m' => result.outcome ≠ .succeeded ∧ Follows S m none m')) := by
  rcases fetched with _ | error | topology
  · exact Ensures.fail ⟨reloadFailure_outcome _ _,follows_refl held⟩
  · exact Ensures.fail ⟨by simp [failedReload],follows_refl held⟩
  · exact Ensures.look_bind (Ensures.pure ⟨rfl,topology,rfl,rfl⟩)

@[simp] theorem withDefaultId_revision (topology : MachineTopology sc) (machineId : String) :
    (topology.withDefaultId machineId).revision = topology.revision := by
  unfold MachineTopology.withDefaultId
  split <;> rfl

theorem ensures_reloadFrom (idles : Idles rt S) (held : S m.published.topology m.runtime)
    (reloads : Reloads rt S m.published.topology m.runtime) (session : Bool)
    (baseline : UInt64) (stage : ReloadStage) (fetched : Option (Except FetchError (MachineTopology sc))) :
    Ensures (reloadFrom rt session baseline stage fetched) m
      (Reloaded S m (Admits m.machineId m.published (.reloadFrom baseline stage fetched))) := by
  refine Ensures.bind (ensures_receiveReload held stage fetched) ?_ (fun _ _ failed => failed)
  rintro candidate m' ⟨same,topology,rfl,rfl⟩
  rw [same]
  refine Ensures.bind (Q := Outcome (fun _ m' => m' = m) (fun (result : TopologyReloadResult) m' => result.outcome ≠ .succeeded ∧ Follows S m none m'))
    ?_ ?_ (fun _ _ failed => failed)
  · exact Ensures.orFail (ensures_beginOperation held session) (fun _ _ begun => begun.1)
      (fun error _ kept => ⟨reloadFailure_outcome _ error,kept⟩)
  rintro ⟨⟩ m' same
  rw [same]
  refine Ensures.look_bind ?_
  split
  · exact Ensures.fail ⟨reloadFailure_outcome _ _,follows_refl held⟩
  next sameToken =>
  refine Ensures.bind (Q := Outcome (fun _ m' => m' = m ∧ Authoritative m.published.topology topology.revision)
    (fun (result : TopologyReloadResult) m' => result.outcome ≠ .succeeded ∧ Follows S m none m')) ?_ ?_
    (fun _ _ failed => failed)
  · refine Ensures.orFail (ensures_guardAuthoritativeRevision held _) ?_
      (fun error _ kept => ⟨reloadFailure_outcome _ error,kept⟩)
    rintro ⟨⟩ m' checked
    rwa [withDefaultId_revision] at checked
  rintro ⟨⟩ m' ⟨same,authoritative⟩
  rw [same]
  have called := ensures_onRuntime (m := m)
    (Ensures.and (reloads (topology.withDefaultId m.machineId)) (reload_fails _ m.runtime))
  refine Ensures.bind called ?_ ?_
  · rintro status m₁ ⟨⟨followed,-⟩,id₁,published₁⟩
    by_cases stopped : status.running = false
    · rw [if_pos stopped]
      have kept : S m.published.topology m₁.runtime := by simpa [Outcome,stopped] using followed
      exact Ensures.fail ⟨by simp [failedReload],id₁,published₁,by rw [published₁]; exact kept⟩
    · rw [if_neg stopped]
      have applied : S (topology.withDefaultId m.machineId) m₁.runtime := by
        simpa [Outcome,Bool.eq_true_of_not_eq_false stopped] using followed
      refine Ensures.bind (ensures_publishAndCloseStaleUsers idles applied) ?_ (fun _ _ no => no.elim)
      intro _ m₂ followed₂
      refine Ensures.look_bind (Ensures.pure ⟨rfl,_,.reload authoritative (not_not.mp sameToken),?_⟩)
      exact ⟨followed₂.machineId.trans id₁,by rw [followed₂.published,published₁],followed₂.runtime⟩
  · rintro result m₁ ⟨⟨kept,failed⟩,id₁,published₁⟩
    exact ⟨failed,id₁,published₁,by rw [published₁]; exact kept⟩

theorem ensures_stopOperations {ε : Type} (idles : Idles rt S) (held : S m.published.topology m.runtime) :
    Ensures (stopOperations (ε := ε) rt) m (Settled S m (Admits m.machineId m.published .stopOperations)) :=
  Ensures.change ⟨none,.stop,rfl,rfl,idles.beginClose held⟩

theorem ensures_close (idles : Idles rt S) (held : S m.published.topology m.runtime)
    (closes : ∀ {t r}, S t r → Ensures rt.close r (fun _ r' => S t r')) :
    Ensures (close rt) m (Settled S m (Admits m.machineId m.published .close)) := by
  refine Ensures.bind (ensures_stopOperations idles held) ?_ (fun _ _ kept => kept)
  rintro ⟨⟩ m₁ ⟨_,⟨⟩,followed₁⟩
  refine Ensures.look_bind ?_
  rcases m₁.closeResult with _ | error | done
  · have held₁ : S m.published.topology m₁.runtime := by
      have followed := followed₁.runtime
      rwa [followed₁.published] at followed
    refine Ensures.attempt_bind (ensures_onRuntime (closes held₁)) ?_
    rintro result m₂ ⟨kept,id₂,published₂⟩
    have followed₂ : Follows S m none m₂ :=
      ⟨id₂.trans followed₁.machineId,published₂.trans followed₁.published,by rw [published₂,followed₁.published]; exact kept⟩
    cases result with
    | ok done => exact Ensures.change ⟨none,.close,followed₂.machineId,followed₂.published,followed₂.runtime⟩
    | error error =>
      exact Ensures.change_bind (Ensures.fail ⟨followed₂.machineId,followed₂.published,followed₂.runtime⟩)
  · exact Ensures.fail followed₁
  · exact Ensures.pure ⟨none,.close,followed₁⟩

/-! ### One step -/

theorem settled_ends {α : Type} {p : Op (Manager sc ρ) TopologyError α} {Good : Option (Publication sc) → Prop}
    (respond : Except TopologyError α → Response) (fails : ∀ error, (respond (.error error)).failed = true)
    (succeeds : ∀ value, (respond (.ok value)).failed = false) (settled : Ensures p m (Settled S m Good)) :
    if (respond (p m).1).failed then Follows S m none (p m).2 else ∃ change, Good change ∧ Follows S m change (p m).2 := by
  unfold Ensures at settled
  cases ended : (p m).1 with
  | error error =>
    rw [ended] at settled
    rw [fails error,if_pos rfl]
    exact settled
  | ok value =>
    rw [ended] at settled
    rw [succeeds value,if_neg Bool.false_ne_true]
    exact settled

/-- What an operation asks of the runtime. -/
def Asks (rt : TopologyRuntime sc ρ C) (S : MachineTopology sc → ρ → Prop) (t : MachineTopology sc) (r : ρ) : Operation sc → Prop
  | .reloadFrom .. => Reloads rt S t r
  | .reconcileCurrent => Reconciles rt S t r
  | .stopOperations => True
  | .close => ∀ {t r}, S t r → Ensures rt.close r (fun _ r' => S t r')
  | _ => Applies rt S t r

/-- Every operation publishes what it admits when it succeeds and nothing when it fails, and the runtime follows. -/
theorem operate_settles (idles : Idles rt S) (held : S m.published.topology m.runtime) (call : Call sc)
    (asks : Asks rt S m.published.topology m.runtime call.operation) :
    if (operate rt call m).1.failed then Follows S m none (operate rt call m).2
    else ∃ change, Admits m.machineId m.published call.operation change ∧ Follows S m change (operate rt call m).2 := by
  obtain ⟨operation,session⟩ := call
  cases operation with
  | applyInitial topology => exact settled_ends .applied (fun _ => rfl) (fun _ => rfl) (ensures_applyInitial idles held asks session topology)
  | applyAuthoritativeIfUnchanged topology expected =>
    exact settled_ends .applied (fun _ => rfl) (fun _ => rfl) (ensures_applyAuthoritativeIfUnchanged idles held asks session topology expected)
  | reloadFrom baseline stage fetched =>
    have settled := ensures_reloadFrom idles held asks session baseline stage fetched
    unfold Ensures at settled
    show if (Response.reloaded (ending (reloadFrom rt session baseline stage fetched m).1)).failed then _ else _
    cases ended : (reloadFrom rt session baseline stage fetched m).1 with
    | error result =>
      rw [ended] at settled
      simp only [ending,Response.failed,decide_eq_true_eq,settled.1,ne_eq,not_false_eq_true,if_true]
      exact settled.2
    | ok result =>
      rw [ended] at settled
      simp only [ending,Response.failed,settled.1,ne_eq,not_true_eq_false,decide_false,Bool.false_eq_true,if_false]
      exact settled.2
  | applySnapshot snapshot => exact settled_ends .applied (fun _ => rfl) (fun _ => rfl) (ensures_applySnapshot idles held asks session snapshot)
  | applyDelta delta => exact settled_ends .applied (fun _ => rfl) (fun _ => rfl) (ensures_applyDelta idles held asks session delta)
  | applyRoutePatch patch base => exact settled_ends .applied (fun _ => rfl) (fun _ => rfl) (ensures_applyRoutePatch idles held asks session patch base)
  | applyUserMutation mutation base =>
    exact settled_ends .applied (fun _ => rfl) (fun _ => rfl) (ensures_applyOneUserMutation idles held asks session mutation base)
  | refresh request =>
    exact settled_ends .refreshed (fun _ => rfl) (fun _ => rfl) (ensures_refresh idles held asks session request)
  | reconcileCurrent => exact settled_ends .finished (fun _ => rfl) (fun _ => rfl) (ensures_reconcileCurrent held session asks)
  | stopOperations => exact settled_ends .finished (fun _ => rfl) (fun _ => rfl) (ensures_stopOperations idles held)
  | close => exact settled_ends .finished (fun _ => rfl) (fun _ => rfl) (ensures_close idles held asks)

/-- A runtime that tracks the published topology meets what every operation asks. Closing it is a matter of its own. -/
theorem Tracks.asks (tracks : Tracks rt S) (held : S m.published.topology m.runtime) (operation : Operation sc)
    (closes : operation = .close → ∀ {t r}, S t r → Ensures rt.close r (fun _ r' => S t r')) :
    Asks rt S m.published.topology m.runtime operation := by
  cases operation with
  | reloadFrom => exact tracks.reload held
  | reconcileCurrent => exact tracks.reconcileCurrent held
  | stopOperations => trivial
  | close => exact closes rfl
  | _ => exact tracks.apply held

/-- What an operation does to the published topology, whatever the runtime does. -/
theorem operate_published (rt : TopologyRuntime sc ρ C) (m : Manager sc ρ) (call : Call sc) :
    (operate rt call m).2.machineId = m.machineId ∧
    (((operate rt call m).1.failed = true ∧ (operate rt call m).2.published = m.published) ∨
      ((operate rt call m).1.failed = false ∧ ∃ change, Admits m.machineId m.published call.operation change ∧
        (operate rt call m).2.published = m.published.after change)) := by
  have settled := @operate_settles _ _ _ _ _ m (Tracks.any rt).toIdles trivial call ((Tracks.any rt).asks trivial _ (fun _ _ _ _ => trivial))
  cases failed : (operate rt call m).1.failed with
  | true =>
    rw [failed,if_pos rfl] at settled
    exact ⟨settled.machineId,Or.inl ⟨rfl,settled.published⟩⟩
  | false =>
    rw [failed,if_neg Bool.false_ne_true] at settled
    obtain ⟨change,admits,followed⟩ := settled
    exact ⟨followed.machineId,Or.inr ⟨rfl,change,admits,followed.published⟩⟩

end NodeAgent.Topology
