import NodeAgent.PublishedTopology

/-!
Clients of one topology manager. An operation is atomic, but what it applies was fetched
outside the operation lock: a client first reads the publication token, or the loaded users
of a node, then asks the panel, then applies the answer. Other clients publish in between;
the answer is applied only if what it replaces is what the client saw.
-/
namespace NodeAgent.Topology
open NodeAgent.Fallible NodeAgent.Transition NodeAgent.FiniteMap

variable {sc : Sections} {ρ C : Type} {rt : TopologyRuntime sc ρ C} {machineId : String} {runtime : ρ}

/-! ### Publications and tokens -/

/-- The topology that a history of publications leaves. -/
def replay (history : List (Publication sc)) : MachineTopology sc :=
  history.foldl (fun topology publication => match publication with
    | .replaced next => next
    | .advanced revision => topology.atRevision revision) MachineTopology.default

/-- The generation counts the publications, and the topology is what they leave. -/
structure Recorded (published : Published sc) : Prop where
  generation : published.generation = UInt64.ofNat published.history.length
  topology : published.topology = replay published.history

theorem recorded_default : Recorded (Published.default : Published sc) := ⟨rfl,rfl⟩

theorem Recorded.after {published : Published sc} (recorded : Recorded published) (change : Option (Publication sc)) :
    Recorded (published.after change) := by
  have counted : published.generation + 1 = UInt64.ofNat (published.history.length + 1) := by
    rw [recorded.generation,UInt64.ofNat_add]
    rfl
  rcases change with _ | topology | revision
  · exact recorded
  · refine ⟨?_,?_⟩
    · simpa [Published.after,Published.publish] using counted
    · simp [Published.after,Published.publish,replay]
  · refine ⟨?_,?_⟩
    · simpa [Published.after,Published.advance] using counted
    · simp [Published.after,Published.advance,replay,recorded.topology]

theorem after_history (published : Published sc) (change : Option (Publication sc)) :
    published.history <+: (published.after change).history := by
  rcases change with _ | topology | revision
  · exact List.prefix_rfl
  · exact List.prefix_append _ _
  · exact List.prefix_append _ _

/-- A token that still matches, fewer than 2^64 publications later, matches because there was none. -/
theorem unchanged_of_token {seen current : Published sc} (recordedSeen : Recorded seen) (recorded : Recorded current)
    (earlier : seen.history <+: current.history) (few : current.history.length < seen.history.length + 2 ^ 64)
    (token : seen.generation = current.generation) : current.topology = seen.topology := by
  obtain ⟨since,extended⟩ := earlier
  have none : since = [] := by
    rw [recordedSeen.generation,recorded.generation,← extended,List.length_append] at token
    have wrapped := congrArg UInt64.toNat token
    simp only [UInt64.toNat_ofNat'] at wrapped
    rw [← extended,List.length_append] at few
    exact List.length_eq_zero_iff.mp (by omega)
  rw [recorded.topology,recordedSeen.topology,← extended,none,List.append_nil]

/-! ### Clients -/

/-- What a client saw before it asked the panel. -/
inductive Seen
  | token (generation : UInt64)
  | reloadToken (generation : UInt64)
  | users (nodeId : String) (loaded : List UserCredential)

/-- A client between its first read and the application of what it fetched. The program does not keep what was
    published at the read. -/
structure Client (sc : Sections) where
  seen : Seen
  published : Published sc

structure Clients (sc : Sections) (ρ : Type) where
  manager : Manager sc ρ
  /-- The clients in the order they started, `none` once they are done. -/
  clients : List (Option (Client sc))

def Clients.initial (machineId : String) (runtime : ρ) : Clients sc ρ := ⟨Manager.initial machineId runtime,[]⟩

inductive ClientEvent (sc : Sections)
  /-- An operation that needs nothing from the panel. -/
  | operate (call : Call sc)
  /-- `publication_token`, before a full fetch. -/
  | readToken
  /-- The first part of `reload_from`. -/
  | beginReload
  /-- `loaded_users`, before the users of a node are fetched. -/
  | readUsers (nodeId : String)
  /-- `apply_authoritative_if_unchanged` with what was fetched. -/
  | applyFetched (client : Nat) (topology : MachineTopology sc) (sessionCancelled : Bool)
  /-- The rest of `reload_from`. -/
  | reloadFetched (client : Nat) (stage : ReloadStage) (fetched : Option (Except FetchError (MachineTopology sc)))
      (sessionCancelled : Bool)
  /-- A refresh with `expected_current`. -/
  | refreshFetched (client : Nat) (users : List UserCredential) (revision : UserRefreshRevision) (sessionCancelled : Bool)
  /-- The fetch failed or its caller gave up. -/
  | giveUp (client : Nat)

/-- A client starts with what it read. -/
def Clients.start (s : Clients sc ρ) (seen : Seen) : Clients sc ρ :=
  { s with clients := s.clients ++ [some ⟨seen,s.manager.published⟩] }

/-- The client that ends with an event. -/
def ClientEvent.client : ClientEvent sc → Option Nat
  | .applyFetched client _ _ => some client
  | .reloadFetched client _ _ _ => some client
  | .refreshFetched client _ _ _ => some client
  | .giveUp client => some client
  | _ => none

/-- The operation that an event carries out; one with a token is carried out by the client that read it. -/
def performs (s : Clients sc ρ) : ClientEvent sc → Option (Call sc)
  | .operate call => match call.operation with
    | .applyAuthoritativeIfUnchanged _ _ => none
    | .reloadFrom _ _ _ => none
    | _ => some call
  | .applyFetched client topology session => match s.clients[client]? with
    | some (some ⟨.token generation,_⟩) => some ⟨.applyAuthoritativeIfUnchanged topology generation,session⟩
    | _ => none
  | .reloadFetched client stage fetched session => match s.clients[client]? with
    | some (some ⟨.reloadToken generation,_⟩) => some ⟨.reloadFrom generation stage fetched,session⟩
    | _ => none
  | .refreshFetched client users revision session => match s.clients[client]? with
    | some (some ⟨.users nodeId loaded,_⟩) => some ⟨.refresh ⟨nodeId,users,some loaded,revision⟩,session⟩
    | _ => none
  | _ => none

/-- The clients after an event that ends one of them. -/
def Clients.without (s : Clients sc ρ) (client : Option Nat) : List (Option (Client sc)) :=
  match client with
  | none => s.clients
  | some client => s.clients.set client none

def clientStep (rt : TopologyRuntime sc ρ C) (s : Clients sc ρ) (event : ClientEvent sc) : Option (Clients sc ρ) :=
  match event with
  | .readToken => some (s.start (.token s.manager.published.generation))
  | .beginReload => match (beginReload s.manager).1 with
    | .ok generation => some (s.start (.reloadToken generation))
    | .error _ => some s
  | .readUsers nodeId => match (loadedUsers nodeId s.manager).1 with
    | .ok loaded => some (s.start (.users nodeId loaded))
    | .error _ => some s
  | .giveUp client => some { s with clients := s.clients.set client none }
  | event => (performs s event).map (fun call => ⟨(operate rt call s.manager).2,s.without event.client⟩)

/-! ### What a client saw is still there -/

/-- The token a client holds is that of what it saw. -/
def Seen.of (seen : Seen) (published : Published sc) : Prop :=
  match seen with
  | .token generation => generation = published.generation
  | .reloadToken generation => generation = published.generation
  | .users _ _ => True

/-- What a client saw is an earlier state of what is published. -/
structure Client.Before (client : Client sc) (current : Published sc) : Prop where
  seen : client.seen.of client.published
  recorded : Recorded client.published
  earlier : client.published.history <+: current.history

structure ClientsInv (s : Clients sc ρ) : Prop where
  recorded : Recorded s.manager.published
  before : ∀ client, some client ∈ s.clients → client.Before s.manager.published

variable {s s' : Clients sc ρ} {event : ClientEvent sc}

theorem ClientsInv.start (inv : ClientsInv s) {seen : Seen} (now : seen.of s.manager.published) : ClientsInv (s.start seen) := by
  refine ⟨inv.recorded,?_⟩
  intro client member
  rcases List.mem_append.mp member with old | new
  · exact inv.before client old
  · cases List.mem_singleton.mp new
    exact ⟨now,inv.recorded,List.prefix_rfl⟩

theorem ClientsInv.operate (inv : ClientsInv s) (call : Call sc) {clients : List (Option (Client sc))}
    (remain : ∀ client, some client ∈ clients → some client ∈ s.clients) :
    ClientsInv ⟨(operate rt call s.manager).2,clients⟩ := by
  have moved : ∃ change, (Topology.operate rt call s.manager).2.published = s.manager.published.after change := by
    obtain ⟨-,⟨_,published'⟩ | ⟨_,change,_,published'⟩⟩ := operate_published rt s.manager call
    · exact ⟨none,published'⟩
    · exact ⟨change,published'⟩
  obtain ⟨change,published'⟩ := moved
  refine ⟨by rw [published']; exact inv.recorded.after change,?_⟩
  intro client member
  have before := inv.before client (remain client member)
  refine ⟨before.seen,before.recorded,before.earlier.trans ?_⟩
  rw [published']
  exact after_history _ _

theorem without_remain (s : Clients sc ρ) (ended : Option Nat) (client : Client sc)
    (member : some client ∈ s.without ended) : some client ∈ s.clients := by
  unfold Clients.without at member
  split at member
  · exact member
  · rcases List.mem_or_eq_of_mem_set member with old | none
    · exact old
    · cases none

theorem clientsInv_step (inv : ClientsInv s) (stepped : clientStep rt s event = some s') : ClientsInv s' := by
  have performed (mapped : (performs s event).map (fun call =>
      (⟨(operate rt call s.manager).2,s.without event.client⟩ : Clients sc ρ)) = some s') : ClientsInv s' := by
    obtain ⟨call,_,rfl⟩ := Option.map_eq_some_iff.mp mapped
    exact inv.operate call (without_remain s event.client)
  cases event with
  | readToken =>
    cases stepped
    exact inv.start rfl
  | beginReload =>
    simp only [clientStep] at stepped
    split at stepped
    · next generation began =>
      cases stepped
      refine inv.start ?_
      unfold Topology.beginReload at began
      by_cases stopped : s.manager.operationsCancelled
      · simp [look,fail,bind,stopped] at began
      · simp [look,bind,pure,stopped] at began
        exact began.symm
    · cases stepped
      exact inv
  | readUsers nodeId =>
    simp only [clientStep] at stepped
    split at stepped
    · cases stepped
      exact inv.start trivial
    · cases stepped
      exact inv
  | giveUp client =>
    cases stepped
    refine ⟨inv.recorded,?_⟩
    intro held member
    exact inv.before held (without_remain s (some client) held member)
  | operate call => exact performed stepped
  | applyFetched client topology session => exact performed stepped
  | reloadFetched client stage fetched session => exact performed stepped
  | refreshFetched client users revision session => exact performed stepped

theorem run_clientsInv {events : List (ClientEvent sc)}
    (run : Run (clientStep rt) (Clients.initial machineId runtime) events s) : ClientsInv s :=
  run.invariant ⟨recorded_default,fun client member => by cases member⟩ (fun _ _ _ inv stepped => clientsInv_step inv stepped)

/-! ### Users as maps -/

/-- A comparison that finds nothing added, updated or deleted has compared equal maps. -/
theorem eq_of_compareIndexed {current desired : Map String UserCredential} (same : (compareIndexed current desired).none = true) :
    current = desired := by
  have ⟨added,updated,deleted⟩ := of_decide_eq_true same
  simp only [compareIndexed,List.countP_eq_zero] at added updated deleted
  apply Std.ExtTreeMap.ext_getElem?
  intro userId
  cases wanted : desired[userId]? with
  | some user =>
    have entry := (mem_toList desired).mpr wanted
    have present := added _ entry
    have equal := updated _ entry
    cases there : current[userId]? with
    | none => simp [there] at present
    | some loaded => simpa [there] using equal
  | none =>
    cases there : current[userId]? with
    | none => rfl
    | some loaded =>
      have kept := deleted _ ((mem_toList current).mpr there)
      have absent : desired.contains userId = false := by
        rw [Std.ExtTreeMap.contains_eq_isSome_getElem?,wanted]
        rfl
      simp [absent] at kept

/-- The users that were found there are, as a map, the ones that were expected. -/
theorem expectUsers_ok {nodeId : String} {expected current : List UserCredential}
    (found : expectUsers nodeId (some expected) current = .ok ()) :
    ∃ users, indexNodeUsers expected "current" = .ok users ∧ indexNodeUsers current "desired" = .ok users := by
  unfold expectUsers compareNodeUsers at found
  cases first : indexNodeUsers expected "current" with
  | error error => simp [first,bind,Except.bind] at found
  | ok before =>
    cases second : indexNodeUsers current "desired" with
    | error error => simp [first,second,bind,Except.bind] at found
    | ok after =>
      simp only [first,second,bind,Except.bind,pure,Except.pure] at found
      by_cases same : (compareIndexed before after).none = true
      · exact ⟨before,rfl,by rw [eq_of_compareIndexed same]⟩
      · simp [same] at found

/-! ### No lost update -/

theorem clientStep_performs {call : Call sc} (performed : performs s event = some call)
    (stepped : clientStep rt s event = some s') : s'.manager = (operate rt call s.manager).2 := by
  have mapped (taken : (performs s event).map (fun call =>
      (⟨(operate rt call s.manager).2,s.without event.client⟩ : Clients sc ρ)) = some s') :
      s'.manager = (operate rt call s.manager).2 := by
    rw [performed] at taken
    cases taken
    rfl
  cases event with
  | readToken => cases performed
  | beginReload => cases performed
  | readUsers nodeId => cases performed
  | giveUp client => cases performed
  | operate call => exact mapped stepped
  | applyFetched client topology session => exact mapped stepped
  | reloadFetched client stage fetched session => exact mapped stepped
  | refreshFetched client users revision session => exact mapped stepped

/-- An operation that replaced what was published had it admitted. -/
theorem replaced_admits {m : Manager sc ρ} {call : Call sc} (replaced : Replaced m.published (operate rt call m).2.published) :
    ∃ topology, Admits m.machineId m.published call.operation (some (.replaced topology)) := by
  have kept {published : Published sc} (same : published = m.published) (replaced : Replaced m.published published) : False := by
    rw [same] at replaced
    exact not_changed_self _ (Or.inl replaced)
  obtain ⟨-,⟨_,published'⟩ | ⟨_,change,admits,published'⟩⟩ := operate_published rt m call
  · exact (kept published' replaced).elim
  · rcases change with _ | topology | revision
    · exact (kept published' replaced).elim
    · exact ⟨topology,admits⟩
    · rw [published'] at replaced
      have last := List.append_cancel_left replaced
      cases last

/-- The token that a full application carries was read by the client that ends with it. -/
theorem performs_token {call : Call sc} (performed : performs s event = some call) {generation : UInt64}
    (full : (∃ topology, call.operation = .applyAuthoritativeIfUnchanged topology generation) ∨
      ∃ stage fetched, call.operation = .reloadFrom generation stage fetched) :
    ∃ i client, event.client = some i ∧ s.clients[i]? = some (some client) ∧
      (client.seen = .token generation ∨ client.seen = .reloadToken generation) := by
  cases event with
  | readToken => cases performed
  | beginReload => cases performed
  | readUsers nodeId => cases performed
  | giveUp client => cases performed
  | operate other =>
    simp only [performs] at performed
    split at performed
    · cases performed
    · cases performed
    · next notApply notReload =>
      cases performed
      rcases full with ⟨topology,named⟩ | ⟨stage,fetched,named⟩
      · exact absurd named (notApply _ _)
      · exact absurd named (notReload _ _ _)
  | applyFetched i topology session =>
    simp only [performs] at performed
    split at performed
    · next seen published there =>
      cases performed
      refine ⟨i,⟨.token seen,published⟩,rfl,there,?_⟩
      rcases full with ⟨topology,named⟩ | ⟨stage,fetched,named⟩
      · cases named
        exact Or.inl rfl
      · cases named
    · cases performed
  | reloadFetched i stage fetched session =>
    simp only [performs] at performed
    split at performed
    · next seen published there =>
      cases performed
      refine ⟨i,⟨.reloadToken seen,published⟩,rfl,there,?_⟩
      rcases full with ⟨topology,named⟩ | ⟨stage,fetched,named⟩
      · cases named
      · cases named
        exact Or.inr rfl
    · cases performed
  | refreshFetched i users revision session =>
    simp only [performs] at performed
    split at performed
    · cases performed
      rcases full with ⟨topology,named⟩ | ⟨stage,fetched,named⟩
      · cases named
      · cases named
    · cases performed

/-- In every interleaving, a fetched topology replaces exactly what its client saw before the fetch, and a refresh with
    expected users replaces, as a map, exactly those. -/
theorem no_update_lost_across_fetch {events : List (ClientEvent sc)} {call : Call sc}
    (run : Run (clientStep rt) (Clients.initial machineId runtime) events s) (performed : performs s event = some call)
    (stepped : clientStep rt s event = some s') (replaced : Replaced s.manager.published s'.manager.published) :
    (∀ generation, ((∃ topology, call.operation = .applyAuthoritativeIfUnchanged topology generation) ∨
        ∃ stage fetched, call.operation = .reloadFrom generation stage fetched) →
      ∃ i client, event.client = some i ∧ s.clients[i]? = some (some client) ∧ client.published.generation = generation ∧
        (s.manager.published.history.length < client.published.history.length + 2 ^ 64 →
          s.manager.published.topology = client.published.topology)) ∧
    (∀ request expected, call.operation = .refresh request → request.expectedCurrent = some expected →
      ∃ index users, s.manager.published.topology.nodes.findIdx? (fun node => node.nodeId = request.nodeId) = some index ∧
        indexNodeUsers expected "current" = .ok users ∧
        indexNodeUsers (usersAt s.manager.published.topology index) "desired" = .ok users) := by
  have inv := run_clientsInv run
  rw [clientStep_performs performed stepped] at replaced
  obtain ⟨topology,admits⟩ := replaced_admits replaced
  constructor
  · intro generation full
    obtain ⟨i,client,ended,there,token⟩ := performs_token performed full
    have before := inv.before client (List.mem_of_getElem? there)
    have read : client.published.generation = generation := by
      have of := before.seen
      rcases token with same | same
      · rw [same] at of
        exact of.symm
      · rw [same] at of
        exact of.symm
    have current : generation = s.manager.published.generation := by
      rcases full with ⟨_,named⟩ | ⟨_,_,named⟩
      · rw [named] at admits
        cases admits with
        | applyAuthoritative _ same => exact same
      · rw [named] at admits
        cases admits with
        | reload _ same => exact same
    refine ⟨i,client,ended,there,read,?_⟩
    intro few
    exact unchanged_of_token before.recorded inv.recorded before.earlier few (read.trans current)
  · intro request expected named expects
    rw [named] at admits
    cases admits with
    | @refreshed _ index changes planned _ =>
      obtain ⟨found,checked,-⟩ := planRefresh_ok planned
      rw [expects] at checked
      obtain ⟨users,first,second⟩ := expectUsers_ok checked
      exact ⟨index,users,found,first,second⟩

/-- A full fetch of a topology with one user. -/
def fetchOneUser : List (ClientEvent finalTags) :=
  [.operate ⟨.applySnapshot (some oneNode),false⟩,.readToken,.applyFetched 0 (fromSnapshot "" (some oneUser)) false]

/-- The clients after a run that is known to exist. -/
def reached (events : List (ClientEvent finalTags)) : Clients finalTags Unit :=
  (follow (clientStep willing) (Clients.initial "machine" ()) events).getD (Clients.initial "machine" ())

theorem fetched_user_replaces_seen_topology :
    Replaced (reached (fetchOneUser.take 2)).manager.published (reached fetchOneUser).manager.published ∧
    ∃ client, (reached (fetchOneUser.take 2)).clients[0]? = some (some client) ∧
      (reached (fetchOneUser.take 2)).manager.published.topology = client.published.topology := by
  have run : Run (clientStep willing) (Clients.initial "machine" ()) (fetchOneUser.take 2) (reached (fetchOneUser.take 2)) :=
    Run.of_follow rfl
  have replaced : Replaced (reached (fetchOneUser.take 2)).manager.published (reached fetchOneUser).manager.published := rfl
  have performed : performs (reached (fetchOneUser.take 2)) (.applyFetched 0 (fromSnapshot "" (some oneUser)) false) =
    some ⟨.applyAuthoritativeIfUnchanged (fromSnapshot "" (some oneUser)) 1,false⟩ := rfl
  obtain ⟨i,client,ended,there,_,same⟩ := (no_update_lost_across_fetch run performed rfl replaced).1 1 (Or.inl ⟨_,rfl⟩)
  cases ended
  cases there
  exact ⟨replaced,_,rfl,same (by decide)⟩

end NodeAgent.Topology
