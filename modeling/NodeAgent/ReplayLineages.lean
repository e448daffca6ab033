import NodeAgent.Api
import NodeAgent.FiniteMap
import NodeAgent.Transition

/-!
Replay namespaces of inbound tags. The registry holds weak references only: an
entry names the authority and the scope of the last publication of its tag, and
both live as long as some slot, lease, handler or pending start owns them. An add
holds the control lock from `prepare` to `publish`, so at most one start is pending.
-/
namespace NodeAgent.ReplayLineages
open NodeAgent.Api NodeAgent.FiniteMap NodeAgent.Transition

/-- What an `InboundReplayScope` points to. -/
structure Scope where
  lineage : Nat
  state : Nat
deriving DecidableEq

structure ReplayLineageEntry where
  authority : Nat
  live : Nat
deriving DecidableEq

structure PreparedReplay where
  state : Nat
  lineage : Nat
  scope : Nat
deriving DecidableEq

/-- `ReplayAdmission`. -/
inductive Admission
  | fresh
  | preserved (state lineage : Nat)
deriving DecidableEq

/-- What keeps an authority or a scope alive. -/
inductive Owner
  | slot (tag : String) (lineage state : Nat)
  | lease (tag : String) (lineage state : Nat)
  /-- A listener, handler or connection of some generation. -/
  | handler (scope : Nat)
deriving DecidableEq

structure State where
  entries : Map String ReplayLineageEntry
  limit : Nat
  scopes : List Scope
  /-- The state that was made with each authority. -/
  lineages : List Nat
  states : Nat
  owners : List Owner
  /-- The start that holds the control lock between `prepare` and `publish`. -/
  pending : Option (String × PreparedReplay)
  /-- Every publication, the latest first. -/
  history : List (String × PreparedReplay)

def initial (limit : Nat) : State := ⟨∅,limit,[],[],0,[],none,[]⟩

/-- Whether an owner holds the scope. -/
def Owner.holdsScope (scope : Nat) : Owner → Bool
  | .handler held => held = scope
  | _ => false

/-- `live.upgrade()` succeeds. -/
def scopeOwned (s : State) (scope : Nat) : Bool :=
  s.owners.any (Owner.holdsScope scope) || s.pending.any (fun start => start.2.scope = scope)

/-- Whether an owner holds the authority; a scope holds the one it was made with. -/
def Owner.holdsLineage (scopes : List Scope) (lineage : Nat) : Owner → Bool
  | .slot _ held _ => held = lineage
  | .lease _ held _ => held = lineage
  | .handler scope => (scopes[scope]?).any (fun scope => scope.lineage = lineage)

/-- `authority.strong_count() != 0`. -/
def lineageOwned (s : State) (lineage : Nat) : Bool :=
  s.owners.any (Owner.holdsLineage s.scopes lineage) || s.pending.any (fun start => start.2.lineage = lineage)

/-- The entries that `prepare` retains. -/
def prune (s : State) : State := { s with entries := s.entries.filter (fun _ entry => lineageOwned s entry.authority) }

/-- The scope of a tag's entry, if it is alive. -/
def liveScope (s : State) (tag : String) : Option (Nat × Scope) :=
  match s.entries[tag]? with
  | some entry => if scopeOwned s entry.live then (s.scopes[entry.live]?).map (fun scope => (entry.live,scope)) else none
  | none => none

/-- `prepare` after its pruning. `quote` is the `Debug` form of a string. -/
def admitTag (quote : String → String) (s : State) (tag : String) : Admission → Except EngineError (PreparedReplay × State)
  | .fresh =>
    match liveScope s tag with
    | some (address,scope) => .ok (⟨scope.state,scope.lineage,address⟩,s)
    | none =>
      if (s.entries[tag]?).isNone ∧ s.limit ≤ s.entries.size then
        .error (.invalidConfig ("replay lineage limit " ++ toString s.limit ++
          " is full; cannot admit new inbound tag " ++ quote tag))
      else
        .ok (⟨s.states,s.lineages.length,s.scopes.length⟩,{ s with
          scopes := s.scopes ++ [⟨s.lineages.length,s.states⟩]
          lineages := s.lineages ++ [s.states]
          states := s.states + 1 })
  | .preserved state lineage =>
    match s.entries[tag]? with
    | some entry =>
      if lineageOwned s entry.authority ∧ entry.authority = lineage then
        match liveScope s tag with
        | some (address,scope) =>
          if scope.lineage = lineage then .ok (⟨state,lineage,address⟩,s)
          else .ok (⟨state,lineage,s.scopes.length⟩,{ s with scopes := s.scopes ++ [⟨lineage,state⟩] })
        | none => .ok (⟨state,lineage,s.scopes.length⟩,{ s with scopes := s.scopes ++ [⟨lineage,state⟩] })
      else .error (.invalidConfig ("replay lease for inbound " ++ tag ++ " is stale"))
    | none => .error (.invalidConfig ("replay lease for inbound " ++ tag ++ " is stale"))

def prepare (quote : String → String) (s : State) (tag : String) (admission : Admission) :
    Except EngineError (PreparedReplay × State) := admitTag quote (prune s) tag admission

def publish (s : State) (tag : String) (replay : PreparedReplay) : State :=
  { s with
    entries := s.entries.insert tag ⟨replay.lineage,replay.scope⟩
    history := (tag,replay) :: s.history }

/-- The last publication of a tag. -/
def lastPublished (s : State) (tag : String) : Option PreparedReplay :=
  (s.history.find? (fun publication => publication.1 = tag)).map Prod.snd

inductive Event
  | prepare (tag : String) (admission : Admission)
  /-- A listener or connection of the pending start takes its scope. -/
  | start
  /-- The pending start succeeds: published, registered under a slot. -/
  | publish
  /-- The pending start fails or is dropped. -/
  | abandon
  /-- A handler's scope is shared with another handler. -/
  | share (owner : Nat)
  /-- `preserve_inbound_replay`, or a clone of a lease. -/
  | lease (owner : Nat)
  | drop (owner : Nat)

/-- Whether a caller can present this admission: a preserved one comes from a lease of
    the tag. -/
def presentable (s : State) (tag : String) : Admission → Bool
  | .fresh => true
  | .preserved state lineage => s.owners.contains (.lease tag lineage state)

def step (quote : String → String) (s : State) : Event → Option State
  | .prepare tag admission =>
    match s.pending with
    | some _ => none
    | none =>
      if presentable s tag admission then
        match prepare quote s tag admission with
        | .ok (replay,s') => some { s' with pending := some (tag,replay) }
        | .error _ => some (prune s)
      else none
  | .start =>
    match s.pending with
    | some (_,replay) => some { s with owners := s.owners ++ [.handler replay.scope] }
    | none => none
  | .publish =>
    match s.pending with
    | some (tag,replay) =>
      some { publish s tag replay with
        owners := s.owners ++ [.slot tag replay.lineage replay.state]
        pending := none }
    | none => none
  | .abandon =>
    match s.pending with
    | some _ => some { s with pending := none }
    | none => none
  | .share i =>
    match s.owners[i]? with
    | some (.handler scope) => some { s with owners := s.owners ++ [.handler scope] }
    | _ => none
  | .lease i =>
    match s.owners[i]? with
    | some (.slot tag lineage state) => some { s with owners := s.owners ++ [.lease tag lineage state] }
    | some (.lease tag lineage state) => some { s with owners := s.owners ++ [.lease tag lineage state] }
    | _ => none
  | .drop i => if i < s.owners.length then some { s with owners := s.owners.eraseIdx i } else none

/-! ### Ownership -/

theorem lineageOwned_iff {s : State} {lineage : Nat} : lineageOwned s lineage = true ↔
    (∃ owner ∈ s.owners, owner.holdsLineage s.scopes lineage = true) ∨
      ∃ tag replay, s.pending = some (tag,replay) ∧ replay.lineage = lineage := by
  unfold lineageOwned
  rw [Bool.or_eq_true,List.any_eq_true]
  cases s.pending with
  | none => simp
  | some start =>
    obtain ⟨tag,replay⟩ := start
    simp

theorem scopeOwned_iff {s : State} {scope : Nat} : scopeOwned s scope = true ↔
    (.handler scope ∈ s.owners) ∨ ∃ tag replay, s.pending = some (tag,replay) ∧ replay.scope = scope := by
  have held : (∃ owner ∈ s.owners, owner.holdsScope scope = true) ↔ .handler scope ∈ s.owners := by
    constructor
    · rintro ⟨owner,member,holds⟩
      cases owner with
      | handler other => simp only [Owner.holdsScope,decide_eq_true_eq] at holds; rw [← holds]; exact member
      | slot | lease => cases holds
    · exact fun member => ⟨_,member,by simp [Owner.holdsScope]⟩
  unfold scopeOwned
  rw [Bool.or_eq_true,List.any_eq_true,held]
  cases s.pending with
  | none => simp
  | some start =>
    obtain ⟨tag,replay⟩ := start
    simp

/-- What an owner refers to exists. -/
def OwnerValid (s : State) : Owner → Prop
  | .slot _ lineage state => s.lineages[lineage]? = some state
  | .lease _ lineage state => s.lineages[lineage]? = some state
  | .handler scope => scope < s.scopes.length

structure Inv (s : State) : Prop where
  /-- Every reference to an authority carries the state that was made with it. -/
  scopes : ∀ scope ∈ s.scopes, s.lineages[scope.lineage]? = some scope.state
  owners : ∀ owner ∈ s.owners, OwnerValid s owner
  published : ∀ tag replay, (tag,replay) ∈ s.history → s.scopes[replay.scope]? = some ⟨replay.lineage,replay.state⟩
  /-- A pending start carries the tag's published authority or one nobody has seen. -/
  pending : ∀ tag replay, s.pending = some (tag,replay) → s.scopes[replay.scope]? = some ⟨replay.lineage,replay.state⟩ ∧
    ((∃ last, lastPublished s tag = some last ∧ last.lineage = replay.lineage) ∨
      ∀ other publication, (other,publication) ∈ s.history → publication.lineage ≠ replay.lineage)
  latest : ∀ (tag : String) (entry : ReplayLineageEntry), s.entries[tag]? = some entry →
    ∃ last, lastPublished s tag = some last ∧ entry = ⟨last.lineage,last.scope⟩
  /-- An entry is kept as long as its authority is owned. -/
  kept : ∀ tag last, lastPublished s tag = some last → lineageOwned s last.lineage = true →
    s.entries[tag]? = some ⟨last.lineage,last.scope⟩
  size : s.entries.size +
    (match s.pending with
      | some (tag,_) => if (s.entries[tag]?).isNone then 1 else 0
      | none => 0) ≤ s.limit

theorem inv_initial (limit : Nat) : Inv (initial limit) := by
  refine ⟨by simp [initial],by simp [initial],by simp [initial],by simp [initial],?_,?_,by simp [initial]⟩
  · intro tag entry held; simp [initial] at held
  · intro tag last published; simp [initial,lastPublished] at published

theorem mem_of_lastPublished {s : State} {tag : String} {last : PreparedReplay} (published : lastPublished s tag = some last) :
    (tag,last) ∈ s.history := by
  obtain ⟨⟨other,replay⟩,found,same⟩ := Option.map_eq_some_iff.mp published
  have named := List.find?_some found
  simp only [decide_eq_true_eq] at named
  subst named same
  exact List.mem_of_find?_eq_some found

theorem lookup_prune (s : State) (tag : String) :
    (prune s).entries[tag]? = (s.entries[tag]?).filter (fun entry => lineageOwned s entry.authority) := by
  simp [prune,Std.ExtTreeMap.getElem?_filter]

theorem inv_prune {s : State} (inv : Inv s) (idle : s.pending = none) : Inv (prune s) := by
  refine ⟨inv.scopes,inv.owners,inv.published,inv.pending,?_,?_,?_⟩
  · intro tag entry held
    rw [lookup_prune] at held
    exact inv.latest tag entry (Option.filter_eq_some_iff.mp held).1
  · intro tag last published owned
    rw [lookup_prune,inv.kept tag last published owned]
    exact Option.filter_eq_some_iff.mpr ⟨rfl,owned⟩
  · have smaller : (prune s).entries.size ≤ s.entries.size := Std.ExtTreeMap.size_filter_le_size
    have bound := inv.size
    have idle' : (prune s).pending = none := idle
    rw [idle] at bound
    rw [idle']
    exact Nat.le_trans smaller bound

/-- The entry of a tag whose last published scope is alive. -/
theorem liveScope_iff {s : State} (inv : Inv s) {tag : String} {address : Nat} {scope : Scope} :
    liveScope s tag = some (address,scope) ↔ ∃ last, s.entries[tag]? = some ⟨last.lineage,last.scope⟩ ∧
      lastPublished s tag = some last ∧ scopeOwned s last.scope = true ∧ address = last.scope ∧
      scope = ⟨last.lineage,last.state⟩ := by
  unfold liveScope
  constructor
  · intro alive
    split at alive
    · next entry held =>
      obtain ⟨last,published,same⟩ := inv.latest tag entry held
      subst same
      split at alive
      · next owned =>
        rw [inv.published tag last (mem_of_lastPublished published)] at alive
        cases alive
        exact ⟨last,held,published,owned,rfl,rfl⟩
      · cases alive
    · cases alive
  · rintro ⟨last,held,published,owned,rfl,rfl⟩
    simp [held,owned,inv.published tag last (mem_of_lastPublished published)]

/-- A scope that is owned keeps the authority it was made with. -/
theorem lineageOwned_of_scope {s : State} {address : Nat} {scope : Scope} (inv : Inv s)
    (there : s.scopes[address]? = some scope) (owned : scopeOwned s address = true) :
    lineageOwned s scope.lineage = true := by
  rw [lineageOwned_iff]
  rcases scopeOwned_iff.mp owned with handler | ⟨tag,replay,pending,same⟩
  · exact .inl ⟨_,handler,by simp [Owner.holdsLineage,there]⟩
  · refine .inr ⟨tag,replay,pending,?_⟩
    have own := (inv.pending tag replay pending).1
    rw [same,there,Option.some.injEq] at own
    rw [own]

/-! ### Starts -/

/-- A state with more scopes and authorities, and a start that waits for its outcome. -/
def grown (s : State) (scopes : List Scope) (lineages : List Nat) (states : Nat) (tag : String) (replay : PreparedReplay) :
    State :=
  { s with
    scopes := s.scopes ++ scopes
    lineages := s.lineages ++ lineages
    states := states
    pending := some (tag,replay) }

/-- New scopes change nothing for the owners that exist. -/
theorem holdsLineage_append {s : State} (inv : Inv s) {owner : Owner} (member : owner ∈ s.owners) (added : List Scope)
    (lineage : Nat) : owner.holdsLineage (s.scopes ++ added) lineage = owner.holdsLineage s.scopes lineage := by
  cases owner with
  | slot | lease => rfl
  | handler scope =>
    have bound : scope < s.scopes.length := inv.owners _ member
    simp [Owner.holdsLineage,List.getElem?_append_left bound]

theorem inv_grown {s : State} (inv : Inv s) (idle : s.pending = none) (scopes : List Scope) (lineages : List Nat) (states : Nat)
    (tag : String) (replay : PreparedReplay)
    (added : ∀ scope ∈ scopes, (s.lineages ++ lineages)[scope.lineage]? = some scope.state)
    (scope : (s.scopes ++ scopes)[replay.scope]? = some ⟨replay.lineage,replay.state⟩)
    (lineage : (lineageOwned s replay.lineage = true ∧ ∃ last, lastPublished s tag = some last ∧ last.lineage = replay.lineage) ∨
      ∀ other publication, (other,publication) ∈ s.history → publication.lineage ≠ replay.lineage)
    (room : (s.entries[tag]?).isSome ∨ s.entries.size < s.limit) : Inv (grown s scopes lineages states tag replay) := by
  refine ⟨?_,?_,?_,?_,inv.latest,?_,?_⟩
  · intro held member
    rcases List.mem_append.mp member with old | new
    · have valid := inv.scopes held old
      exact (List.getElem?_append_left (List.getElem?_eq_some_iff.mp valid).1).trans valid
    · exact added held new
  · intro owner member
    have valid := inv.owners owner member
    cases owner with
    | slot | lease => exact (List.getElem?_append_left (List.getElem?_eq_some_iff.mp valid).1).trans valid
    | handler held =>
      have bound : held < s.scopes.length := valid
      show held < (s.scopes ++ scopes).length
      rw [List.length_append]
      omega
  · intro other publication member
    have valid := inv.published other publication member
    exact (List.getElem?_append_left (List.getElem?_eq_some_iff.mp valid).1).trans valid
  · intro other start same
    cases same
    refine ⟨scope,?_⟩
    rcases lineage with ⟨_,last⟩ | fresh
    · exact .inl last
    · exact .inr fresh
  · intro other last published owned
    -- An authority that only the new start owns is one that nobody has published.
    rcases lineageOwned_iff.mp owned with ⟨owner,member,holds⟩ | ⟨_,_,same,equal⟩
    · refine inv.kept other last published (lineageOwned_iff.mpr (.inl ⟨owner,member,?_⟩))
      rw [← holdsLineage_append inv member scopes]
      exact holds
    · cases same
      rcases lineage with ⟨alive,_⟩ | fresh
      · exact inv.kept other last published (by rw [← equal]; exact alive)
      · exact absurd equal.symm (fresh other last (mem_of_lastPublished published))
  · have bound := inv.size
    rw [idle] at bound
    show s.entries.size + (if (s.entries[tag]?).isNone then 1 else 0) ≤ s.limit
    rcases room with held | smaller
    · have some_entry : (s.entries[tag]?).isNone = false := by simpa using held
      rw [some_entry]
      exact bound
    · split <;> omega

/-- What an admitted start carries: the authority of the tag's last publication, with
    its state, or a new authority when the last published scope is gone. -/
theorem admit_ok {quote : String → String} {s s' : State} (inv : Inv s) (idle : s.pending = none) {tag : String}
    {admission : Admission} (presented : presentable s tag admission = true) {replay : PreparedReplay}
    (admitted : admitTag quote s tag admission = .ok (replay,s')) :
    Inv { s' with pending := some (tag,replay) } ∧ s'.history = s.history ∧
      ((∃ last, lastPublished s tag = some last ∧ last.lineage = replay.lineage ∧ last.state = replay.state) ∨
        (∀ last, lastPublished s tag = some last → scopeOwned s last.scope = false)) := by
  -- The published authority and the state that came with it.
  have sameState {last : PreparedReplay} (published : lastPublished s tag = some last) :
      s.lineages[last.lineage]? = some last.state := by
    have there := inv.published tag last (mem_of_lastPublished published)
    exact inv.scopes _ (List.mem_of_getElem? there)
  cases admission with
  | fresh =>
    simp only [admitTag] at admitted
    split at admitted
    · next address scope alive =>
      cases admitted
      obtain ⟨last,held,published,owned,rfl,rfl⟩ := (liveScope_iff inv).mp alive
      have there := inv.published tag last (mem_of_lastPublished published)
      refine ⟨?_,rfl,.inl ⟨last,published,rfl,rfl⟩⟩
      have grow := inv_grown inv idle [] [] s.states tag ⟨last.state,last.lineage,last.scope⟩ (by simp) (by simpa using there)
        (.inl ⟨lineageOwned_of_scope inv there owned,last,published,rfl⟩) (.inl (by simp [held]))
      simpa [grown] using grow
    · next dead =>
      split at admitted
      · cases admitted
      next room =>
      cases admitted
      refine ⟨?_,rfl,.inr ?_⟩
      · refine inv_grown inv idle _ _ _ _ _ ?_ ?_ (.inr ?_) ?_
        · intro scope member
          rw [List.mem_singleton.mp member]
          simp
        · simp
        · intro other publication member
          have there := inv.published other publication member
          have known := inv.scopes _ (List.mem_of_getElem? there)
          have bound : publication.lineage < s.lineages.length := (List.getElem?_eq_some_iff.mp known).1
          show publication.lineage ≠ s.lineages.length
          omega
        · by_cases held : (s.entries[tag]?).isSome
          · exact .inl held
          · right
            have absent : (s.entries[tag]?).isNone := by simpa using held
            have small : ¬ s.limit ≤ s.entries.size := fun full => room ⟨absent,full⟩
            omega
      · intro last published
        by_contra owned
        rw [Bool.not_eq_false] at owned
        have there := inv.published tag last (mem_of_lastPublished published)
        have entry := inv.kept tag last published (lineageOwned_of_scope inv there owned)
        have alive : liveScope s tag = some (last.scope,⟨last.lineage,last.state⟩) :=
          (liveScope_iff inv).mpr ⟨last,entry,published,owned,rfl,rfl⟩
        rw [alive] at dead
        cases dead
  | preserved state lineage =>
    have leased : s.lineages[lineage]? = some state := by
      have member : Owner.lease tag lineage state ∈ s.owners := by simpa [presentable] using presented
      exact inv.owners _ member
    simp only [admitTag] at admitted
    split at admitted
    · next entry held =>
      split at admitted
      · next current =>
        obtain ⟨owned,same⟩ := current
        obtain ⟨last,published,shape⟩ := inv.latest tag entry held
        subst shape
        have own : last.lineage = lineage := same
        have state_same : last.state = state := by
          have known := sameState published
          rw [own,leased,Option.some.injEq] at known
          exact known.symm
        have newScope : Inv { s with
            scopes := s.scopes ++ [⟨lineage,state⟩]
            pending := some (tag,⟨state,lineage,s.scopes.length⟩) } := by
          have grow := inv_grown inv idle [⟨lineage,state⟩] [] s.states tag ⟨state,lineage,s.scopes.length⟩ (by simpa using leased) (by simp)
            (.inl ⟨by rw [← own]; exact owned,last,published,own⟩) (.inl (by simp [held]))
          simpa [grown] using grow
        split at admitted
        · next address scope alive =>
          split at admitted
          · cases admitted
            obtain ⟨other,_,again,_,rfl,rfl⟩ := (liveScope_iff inv).mp alive
            rw [published,Option.some.injEq] at again
            subst again
            have there := inv.published tag last (mem_of_lastPublished published)
            refine ⟨?_,rfl,.inl ⟨last,published,own,state_same⟩⟩
            have grow := inv_grown inv idle [] [] s.states tag ⟨state,lineage,last.scope⟩ (by simp)
              (by rw [← own,← state_same]; simpa using there)
              (.inl ⟨by rw [← own]; exact owned,last,published,own⟩) (.inl (by simp [held]))
            simpa [grown] using grow
          · cases admitted
            exact ⟨newScope,rfl,.inl ⟨last,published,own,state_same⟩⟩
        · cases admitted
          exact ⟨newScope,rfl,.inl ⟨last,published,own,state_same⟩⟩
      · cases admitted
    · cases admitted

/-- A lease is admitted exactly when its authority is the tag's last published one. -/
theorem admit_preserved_iff {quote : String → String} {s : State} (inv : Inv s) {tag : String} {lineage state : Nat}
    (leased : .lease tag lineage state ∈ s.owners) :
    (∃ admitted, admitTag quote s tag (.preserved state lineage) = .ok admitted) ↔
      ∃ last, lastPublished s tag = some last ∧ last.lineage = lineage := by
  have owned : lineageOwned s lineage = true :=
    lineageOwned_iff.mpr (.inl ⟨_,leased,by simp [Owner.holdsLineage]⟩)
  constructor
  · rintro ⟨admitted,success⟩
    simp only [admitTag] at success
    split at success
    · next entry held =>
      split at success
      · next current =>
        obtain ⟨last,published,shape⟩ := inv.latest tag entry held
        subst shape
        exact ⟨last,published,current.2⟩
      · cases success
    · cases success
  · rintro ⟨last,published,rfl⟩
    have held := inv.kept tag last published owned
    simp only [admitTag,held,owned,true_and,↓reduceIte]
    split
    · split <;> exact ⟨_,rfl⟩
    · exact ⟨_,rfl⟩

/-- Pruning keeps the entry of every authority that a lease owns. -/
theorem prune_keeps_leased {s : State} {tag : String} {lineage state : Nat} (leased : .lease tag lineage state ∈ s.owners) :
    (∃ entry : ReplayLineageEntry, (prune s).entries[tag]? = some entry ∧ entry.authority = lineage) ↔
      ∃ entry : ReplayLineageEntry, s.entries[tag]? = some entry ∧ entry.authority = lineage := by
  have owned : lineageOwned s lineage = true :=
    lineageOwned_iff.mpr (.inl ⟨_,leased,by simp [Owner.holdsLineage]⟩)
  constructor
  · rintro ⟨entry,held,same⟩
    rw [lookup_prune] at held
    exact ⟨entry,(Option.filter_eq_some_iff.mp held).1,same⟩
  · rintro ⟨entry,held,rfl⟩
    refine ⟨entry,?_,rfl⟩
    rw [lookup_prune,held]
    exact Option.filter_eq_some_iff.mpr ⟨rfl,owned⟩

/-- In any state a lease in hand is admitted exactly when the tag's entry names its
    authority; pruning takes nothing away from it. -/
theorem prepare_preserved_iff {quote : String → String} {s : State} {tag : String} {lineage state : Nat}
    (leased : .lease tag lineage state ∈ s.owners) :
    (∃ admitted, prepare quote s tag (.preserved state lineage) = .ok admitted) ↔
      ∃ entry : ReplayLineageEntry, s.entries[tag]? = some entry ∧ entry.authority = lineage := by
  have owned : lineageOwned s lineage = true :=
    lineageOwned_iff.mpr (.inl ⟨_,leased,by simp [Owner.holdsLineage]⟩)
  have pruned (other : Nat) : lineageOwned (prune s) other = lineageOwned s other := rfl
  rw [← prune_keeps_leased leased]
  constructor
  · rintro ⟨admitted,success⟩
    simp only [prepare,admitTag] at success
    split at success
    · next entry held =>
      split at success
      · next current => exact ⟨entry,held,current.2⟩
      · cases success
    · cases success
  · rintro ⟨entry,kept,rfl⟩
    simp only [prepare,admitTag,kept,pruned,owned,true_and,↓reduceIte]
    split
    · split <;> exact ⟨_,rfl⟩
    · exact ⟨_,rfl⟩

/-- A start that is admitted changes no entry and no owner. -/
theorem prepare_keeps {quote : String → String} {s s' : State} {tag : String} {admission : Admission} {replay : PreparedReplay}
    (prepared : prepare quote s tag admission = .ok (replay,s')) :
    s'.entries = (prune s).entries ∧ s'.owners = s.owners ∧ s'.limit = s.limit := by
  cases admission with
  | fresh =>
    simp only [prepare,admitTag] at prepared
    repeat' split at prepared
    all_goals cases prepared
    all_goals exact ⟨rfl,rfl,rfl⟩
  | preserved state lineage =>
    simp only [prepare,admitTag] at prepared
    repeat' split at prepared
    all_goals cases prepared
    all_goals exact ⟨rfl,rfl,rfl⟩

/-! ### Runs -/

/-- Owners come and go; no authority is owned that was not. -/
theorem inv_owners {s : State} (inv : Inv s) {owners : List Owner} (valid : ∀ owner ∈ owners, OwnerValid s owner)
    (fewer : ∀ lineage, lineageOwned { s with owners := owners } lineage = true → lineageOwned s lineage = true) :
    Inv { s with owners := owners } :=
  ⟨inv.scopes,valid,inv.published,inv.pending,inv.latest,
    fun tag last published owned => inv.kept tag last published (fewer _ owned),inv.size⟩

/-- A new owner of an authority that is owned already. -/
theorem inv_own {s : State} (inv : Inv s) {owner : Owner} (valid : OwnerValid s owner)
    (owned : ∀ lineage, owner.holdsLineage s.scopes lineage = true → lineageOwned s lineage = true) :
    Inv { s with owners := s.owners ++ [owner] } := by
  refine inv_owners inv ?_ ?_
  · intro other member
    rcases List.mem_append.mp member with old | new
    · exact inv.owners other old
    · rw [List.mem_singleton.mp new]; exact valid
  · intro lineage held
    rcases lineageOwned_iff.mp held with ⟨other,member,holds⟩ | pending
    · rcases List.mem_append.mp member with old | new
      · exact lineageOwned_iff.mpr (.inl ⟨other,old,holds⟩)
      · rw [List.mem_singleton.mp new] at holds
        exact owned lineage holds
    · exact lineageOwned_iff.mpr (.inr pending)

theorem lineageOwned_of_owner {s : State} {owner : Owner} (member : owner ∈ s.owners) {lineage : Nat}
    (holds : owner.holdsLineage s.scopes lineage = true) : lineageOwned s lineage = true :=
  lineageOwned_iff.mpr (.inl ⟨owner,member,holds⟩)

theorem inv_abandon {s : State} (inv : Inv s) : Inv { s with pending := none } := by
  refine ⟨inv.scopes,inv.owners,inv.published,?_,inv.latest,?_,?_⟩
  · intro tag replay same; cases same
  · intro tag last published owned
    refine inv.kept tag last published ?_
    rcases lineageOwned_iff.mp owned with held | ⟨_,_,same,_⟩
    · exact lineageOwned_iff.mpr (.inl held)
    · cases same
  · exact Nat.le_trans (Nat.le_add_right _ _) inv.size

theorem lastPublished_publish (s : State) (tag other : String) (replay : PreparedReplay) :
    lastPublished (publish s tag replay) other = if tag = other then some replay else lastPublished s other := by
  unfold lastPublished publish
  by_cases same : tag = other
  · simp [same]
  · simp [same]

theorem inv_publish {s : State} (inv : Inv s) {tag : String} {replay : PreparedReplay}
    (start : s.pending = some (tag,replay)) :
    Inv { publish s tag replay with owners := s.owners ++ [.slot tag replay.lineage replay.state], pending := none } := by
  obtain ⟨scope,_⟩ := inv.pending tag replay start
  have known := inv.scopes _ (List.mem_of_getElem? scope)
  have stillOwned {lineage : Nat} (owned : lineageOwned { publish s tag replay with
      owners := s.owners ++ [.slot tag replay.lineage replay.state], pending := none } lineage = true) :
      lineageOwned s lineage = true := by
    rcases lineageOwned_iff.mp owned with ⟨owner,member,holds⟩ | ⟨_,_,same,_⟩
    · rcases List.mem_append.mp member with old | new
      · exact lineageOwned_of_owner old holds
      · rw [List.mem_singleton.mp new] at holds
        exact lineageOwned_iff.mpr (.inr ⟨tag,replay,start,by simpa [Owner.holdsLineage] using holds⟩)
    · cases same
  refine ⟨inv.scopes,?_,?_,?_,?_,?_,?_⟩
  · intro owner member
    rcases List.mem_append.mp member with old | new
    · exact inv.owners owner old
    · rw [List.mem_singleton.mp new]; exact known
  · intro other publication member
    rcases List.mem_cons.mp member with same | old
    · cases same; exact scope
    · exact inv.published other publication old
  · intro other start' same; cases same
  · intro other entry held
    change (s.entries.insert tag ⟨replay.lineage,replay.scope⟩)[other]? = some entry at held
    rw [lookup_insert] at held
    show ∃ last, lastPublished (publish s tag replay) other = some last ∧ _
    rw [lastPublished_publish]
    split at held
    · next same => cases held; exact ⟨replay,by rw [if_pos same],rfl⟩
    · next apart => rw [if_neg apart]; exact inv.latest other entry held
  · intro other last published owned
    change lastPublished (publish s tag replay) other = some last at published
    show (s.entries.insert tag ⟨replay.lineage,replay.scope⟩)[other]? = _
    rw [lastPublished_publish] at published
    rw [lookup_insert]
    split at published
    · next same => cases published; rw [if_pos same]
    · next apart => rw [if_neg apart]; exact inv.kept other last published (stillOwned owned)
  · have bound := inv.size
    rw [start] at bound
    show (s.entries.insert tag ⟨replay.lineage,replay.scope⟩).size + 0 ≤ s.limit
    rw [Std.ExtTreeMap.size_insert]
    cases held : s.entries[tag]? with
    | none =>
      simp only [held,Option.isNone_none,↓reduceIte] at bound
      split <;> omega
    | some entry =>
      have member : s.entries.contains tag = true := by rw [Std.ExtTreeMap.contains_eq_isSome_getElem?,held]; rfl
      simp only [held,Option.isNone_some,Bool.false_eq_true,↓reduceIte] at bound
      rw [if_pos member]
      omega

theorem inv_step {quote : String → String} {s s' : State} {event : Event} (inv : Inv s)
    (taken : step quote s event = some s') : Inv s' := by
  cases event with
  | prepare tag admission =>
    simp only [step] at taken
    split at taken
    · cases taken
    next idle =>
    split at taken
    · next presented =>
      split at taken
      · next replay after admitted =>
        cases taken
        exact (admit_ok (inv_prune inv idle) idle presented admitted).1
      · cases taken
        exact inv_prune inv idle
    · cases taken
  | start =>
    simp only [step] at taken
    split at taken
    · next tag replay start =>
      cases taken
      obtain ⟨scope,_⟩ := inv.pending tag replay start
      refine inv_own inv (List.getElem?_eq_some_iff.mp scope).1 ?_
      intro lineage holds
      simp only [Owner.holdsLineage,scope,Option.any_some,decide_eq_true_eq] at holds
      exact lineageOwned_iff.mpr (.inr ⟨tag,replay,start,holds⟩)
    · cases taken
  | publish =>
    simp only [step] at taken
    split at taken
    · next tag replay start =>
      cases taken
      exact inv_publish inv start
    · cases taken
  | abandon =>
    simp only [step] at taken
    split at taken
    · cases taken
      exact inv_abandon inv
    · cases taken
  | share i =>
    simp only [step] at taken
    split at taken
    · next scope held =>
      cases taken
      have member := List.mem_of_getElem? held
      exact inv_own inv (inv.owners _ member) (fun _ holds => lineageOwned_of_owner member holds)
    · cases taken
  | lease i =>
    simp only [step] at taken
    split at taken
    · next tag lineage state held =>
      cases taken
      have member := List.mem_of_getElem? held
      have valid := inv.owners (.slot tag lineage state) member
      exact inv_own inv valid (fun _ holds => @lineageOwned_of_owner s (.slot tag lineage state) member _ holds)
    · next tag lineage state held =>
      cases taken
      have member := List.mem_of_getElem? held
      exact inv_own inv (inv.owners _ member) (fun _ holds => lineageOwned_of_owner member holds)
    · cases taken
  | drop i =>
    simp only [step] at taken
    split at taken
    · cases taken
      refine inv_owners inv (fun owner member => inv.owners owner (List.mem_of_mem_eraseIdx member)) ?_
      intro lineage owned
      rcases lineageOwned_iff.mp owned with ⟨owner,member,holds⟩ | pending
      · exact lineageOwned_of_owner (List.mem_of_mem_eraseIdx member) holds
      · exact lineageOwned_iff.mpr (.inr pending)
    · cases taken

/-- The tag once published this authority and has since published another. -/
def Superseded (s : State) (tag : String) (lineage : Nat) : Prop :=
  (∃ publication, (tag,publication) ∈ s.history ∧ publication.lineage = lineage) ∧
    ∀ last, lastPublished s tag = some last → last.lineage ≠ lineage

theorem superseded_step {quote : String → String} {s s' : State} {event : Event} (inv : Inv s)
    (taken : step quote s event = some s') {tag : String} {lineage : Nat} (superseded : Superseded s tag lineage) :
    Superseded s' tag lineage := by
  have unchanged (same : s'.history = s.history) : Superseded s' tag lineage := by
    unfold Superseded lastPublished at superseded ⊢
    rw [same]
    exact superseded
  cases event with
  | publish =>
    simp only [step] at taken
    split at taken
    · next other replay start =>
      cases taken
      obtain ⟨⟨publication,member,own⟩,current⟩ := superseded
      refine ⟨⟨publication,List.mem_cons_of_mem _ member,own⟩,fun last published => ?_⟩
      change lastPublished (publish s other replay) tag = some last at published
      rw [lastPublished_publish] at published
      split at published
      · next same =>
        cases published
        subst same
        rcases (inv.pending other replay start).2 with ⟨last,lastly,equal⟩ | fresh
        · rw [← equal]; exact current last lastly
        · rw [← own]; exact (fresh other publication member).symm
      · exact current last published
    · cases taken
  | prepare other admission =>
    simp only [step] at taken
    split at taken
    · cases taken
    next idle =>
    split at taken
    · next presented =>
      split at taken
      · next replay after admitted =>
        cases taken
        exact unchanged (admit_ok (inv_prune inv idle) idle presented admitted).2.1
      · cases taken
        exact unchanged rfl
    · cases taken
  | start | abandon | share | lease | drop =>
    simp only [step] at taken
    split at taken <;> cases taken <;> exact unchanged rfl

/-- The entries whose authority is alive. -/
def aliveEntries (s : State) : Map String ReplayLineageEntry :=
  s.entries.filter (fun _ entry => lineageOwned s entry.authority)

/-- In every run: while the scope last published for a tag is owned, a start of the tag
    carries its authority and state; a lease is admitted exactly when its authority is
    the one last published for its tag; a superseded authority stays inadmissible; and
    the live entries stay within the limit. -/
theorem replay_never_forks (quote : String → String) (limit : Nat) {events : List Event} {s : State}
    (run : Run (step quote) (initial limit) events s) :
    (∀ tag last admission replay s', lastPublished s tag = some last → scopeOwned s last.scope = true →
      s.pending = none → presentable s tag admission = true → prepare quote s tag admission = .ok (replay,s') →
      replay.lineage = last.lineage ∧ replay.state = last.state) ∧
    (∀ tag lineage state, .lease tag lineage state ∈ s.owners → s.pending = none →
      ((∃ admitted, prepare quote s tag (.preserved state lineage) = .ok admitted) ↔
        ∃ last, lastPublished s tag = some last ∧ last.lineage = lineage)) ∧
    (∀ tag lineage later s', Superseded s tag lineage → Run (step quote) s later s' → Superseded s' tag lineage) ∧
    (aliveEntries s).size ≤ limit := by
  have inv : Inv s := run.invariant (inv_initial limit) (fun _ _ _ before taken => inv_step before taken)
  have sameLimit : s.limit = limit := by
    refine run.invariant (I := fun s => s.limit = limit) rfl (fun s event s' same taken => ?_)
    rw [← same]
    cases event with
    | prepare tag admission =>
      simp only [step] at taken
      split at taken
      · cases taken
      split at taken
      · split at taken
        · next admitted =>
          cases taken
          exact (prepare_keeps admitted).2.2
        · cases taken; rfl
      · cases taken
    | start | publish | abandon | share | lease | drop =>
      simp only [step] at taken
      split at taken <;> cases taken <;> rfl
  refine ⟨?_,?_,?_,?_⟩
  · intro tag last admission replay s' published owned idle presented prepared
    obtain ⟨_,_,carried⟩ := admit_ok (inv_prune inv idle) idle presented prepared
    rcases carried with ⟨other,again,lineage,state⟩ | gone
    · change lastPublished s tag = some other at again
      rw [published,Option.some.injEq] at again
      subst again
      exact ⟨lineage.symm,state.symm⟩
    · have dead : scopeOwned s last.scope = false := gone last published
      rw [owned] at dead
      cases dead
  · intro tag lineage state leased idle
    exact admit_preserved_iff (inv_prune inv idle) leased
  · intro tag lineage later s' superseded more
    have both : Inv s' ∧ Superseded s' tag lineage :=
      more.invariant (I := fun s => Inv s ∧ Superseded s tag lineage) ⟨inv,superseded⟩
        (fun _ _ _ before taken => ⟨inv_step before.1 taken,superseded_step before.1 taken before.2⟩)
    exact both.2
  · have bound := inv.size
    have smaller : (aliveEntries s).size ≤ s.entries.size := Std.ExtTreeMap.size_filter_le_size
    omega

/-- The debug form of a tag with nothing to escape. -/
def plainQuote (tag : String) : String := "\"" ++ tag ++ "\""

/-- A tag that is added, leased, hard removed, and started again from the lease with a
    handler that outlives the failed start. -/
def failedRestart : List Event :=
  [.prepare "in" .fresh,.start,.publish,.lease 1,.drop 0,.drop 0,.prepare "in" (.preserved 0 0),.start,.abandon]

/-- After a failed preserved start a handler of the published authority is alive, and a
    fresh start still gets another authority. -/
theorem failed_restart_forks : ∃ s last replay s', Run (step plainQuote) (initial 4) failedRestart s ∧
    lastPublished s "in" = some last ∧ s.pending = none ∧
    (∃ address scope, s.scopes[address]? = some scope ∧ scopeOwned s address = true ∧ scope.lineage = last.lineage) ∧
    prepare plainQuote s "in" .fresh = .ok (replay,s') ∧ replay.lineage ≠ last.lineage := by
  have followed : ((follow (step plainQuote) (initial 4) failedRestart).map (fun s =>
      (lastPublished s "in",decide (s.pending = none),s.scopes[1]?,scopeOwned s 1,
        match prepare plainQuote s "in" .fresh with
        | .ok (replay,_) => some replay
        | .error _ => none))) =
      some (some ⟨0,0,0⟩,true,some ⟨0,0⟩,true,some ⟨1,1,2⟩) := by decide +kernel
  obtain ⟨s,reached,facts⟩ := Option.map_eq_some_iff.mp followed
  simp only [Prod.mk.injEq,decide_eq_true_eq] at facts
  obtain ⟨published,idle,scope,owned,prepared⟩ := facts
  split at prepared
  · next replay s' started =>
    cases prepared
    exact ⟨s,⟨0,0,0⟩,⟨1,1,2⟩,s',Run.of_follow reached,published,idle,⟨1,⟨0,0⟩,scope,owned,rfl⟩,started,by decide⟩
  · cases prepared

/-- A replacement through a lease while the old handler is alive. -/
theorem replay_never_forks_replacement : ∃ s last replay s',
    Run (step plainQuote) (initial 4) [.prepare "in" .fresh,.start,.publish,.lease 1] s ∧
    lastPublished s "in" = some last ∧ prepare plainQuote s "in" (.preserved 0 0) = .ok (replay,s') ∧
    replay.lineage = last.lineage ∧ replay.state = last.state := by
  have followed : ((follow (step plainQuote) (initial 4) [.prepare "in" .fresh,.start,.publish,.lease 1]).map (fun s =>
      (lastPublished s "in",decide (s.pending = none),scopeOwned s 0,presentable s "in" (.preserved 0 0),
        match prepare plainQuote s "in" (.preserved 0 0) with
        | .ok (replay,_) => some replay
        | .error _ => none))) =
      some (some ⟨0,0,0⟩,true,true,true,some ⟨0,0,0⟩) := by decide +kernel
  obtain ⟨s,reached,facts⟩ := Option.map_eq_some_iff.mp followed
  simp only [Prod.mk.injEq,decide_eq_true_eq] at facts
  obtain ⟨published,idle,owned,presented,prepared⟩ := facts
  have run := Run.of_follow reached
  split at prepared
  · next replay s' started =>
    have carried := (replay_never_forks plainQuote 4 run).1 "in" _ _ replay s' published owned idle presented started
    exact ⟨s,_,replay,s',run,published,started,carried⟩
  · cases prepared

end NodeAgent.ReplayLineages
