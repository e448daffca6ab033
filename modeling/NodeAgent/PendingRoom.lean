import NodeAgent.Endurance

/-!
Room for final counters. Room is reserved under an identity before its counters are taken,
one identity at a time, and the reservation is filled or given back before anything else
happens: between two operations nothing is reserved, and never are more identities on file
or reserved than the limit allows.
-/
namespace NodeAgent.PendingRoom
open NodeAgent.Api NodeAgent.EngineTable NodeAgent.Endurance NodeAgent.Fallible NodeAgent.FiniteMap NodeAgent.Receipts NodeAgent.Runtime
  NodeAgent.RuntimeCalls NodeAgent.Shapes NodeAgent.Transaction NodeAgent.Transition NodeAgent.Upkeep
variable {V : Type} {shoes : Shoes V} {w w' : World V} {maxKeys : Nat}

/-! ### Entries -/

theorem merge_held {entries : TrafficDrainEntries} (drain : TrafficDrain) (held : (entries[drain.key]?).isSome) :
    (mergeTrafficEntry entries drain).size = entries.size := by
  have inside : entries.contains drain.key = true := Std.ExtTreeMap.mem_iff_contains.mp (Std.ExtTreeMap.mem_iff_isSome_getElem?.mpr held)
  unfold mergeTrafficEntry
  split
  · rfl
  · dsimp only
    split
    · rw [Std.ExtTreeMap.size_insert,if_pos inside]
    · rw [Std.ExtTreeMap.size_insert,if_pos inside]

theorem merge_size (entries : TrafficDrainEntries) (drain : TrafficDrain) :
    (mergeTrafficEntry entries drain).size ≤ entries.size + 1 := by
  unfold mergeTrafficEntry
  split
  · exact Nat.le_succ _
  · dsimp only
    split
    · exact Std.ExtTreeMap.size_insert_le
    · exact Std.ExtTreeMap.size_insert_le

/-- Only the identity of the record is new. -/
theorem merge_keys {entries : TrafficDrainEntries} {drain : TrafficDrain} {key : TrafficDrainKey}
    (there : ((mergeTrafficEntry entries drain)[key]?).isSome) : (entries[key]?).isSome ∨ key = drain.key := by
  unfold mergeTrafficEntry at there
  split at there
  · exact .inl there
  · dsimp only at there
    by_cases same : drain.key = key
    · exact .inr same.symm
    · split at there
      · rw [lookup_insert,if_neg same] at there
        exact .inl there
      · rw [lookup_insert,if_neg same] at there
        exact .inl there

/-! ### Worlds that agree on the pending traffic -/

/-- The pending traffic and its record are the same. -/
structure Untouched (w w' : World V) : Prop where
  pending : w'.pending = w.pending
  peak : w'.peak = w.peak

theorem Untouched.refl (w : World V) : Untouched w w := ⟨rfl,rfl⟩

theorem Untouched.trans {w'' : World V} (first : Untouched w w') (second : Untouched w' w'') : Untouched w w'' :=
  ⟨second.pending.trans first.pending,second.peak.trans first.peak⟩

theorem untouched_meterTraffic (w : World V) (traffic : Meter) : Untouched w (meterTraffic w traffic) := by
  unfold meterTraffic
  split
  · exact Untouched.refl w
  · exact ⟨rfl,rfl⟩

theorem untouched_seen (w : World V) : Untouched w (seen w) := by
  have metered (meters : List Meter) : Untouched w (meters.foldl meterTraffic w) := by
    induction meters generalizing w with
    | nil => exact Untouched.refl w
    | cons first rest ih => exact (untouched_meterTraffic w first).trans (ih _)
  exact ⟨(metered _).pending,(metered _).peak⟩

theorem untouched_call {α : Type} {effect : Moment → Engine V → Except EngineError (α × Engine V)} (w : World V) :
    Ensures (call effect) w (fun _ w' => Untouched w w') := by
  refine Ensures.mono (ensures_call w) ?_
  rintro (error | a) w' held
  · rw [held.1]
    exact untouched_seen w
  · obtain ⟨e',_,_,rfl⟩ := held
    exact ⟨(untouched_seen w).pending,(untouched_seen w).peak⟩

theorem untouched_ask {α : Type} {answer : Engine V → Except EngineError α} (w : World V) :
    Ensures (ask answer) w (fun _ w' => Untouched w w') := untouched_call w

theorem untouched_tell {effect : Moment → Engine V → Except EngineError (Engine V)} (w : World V) :
    Ensures (tell effect) w (fun _ w' => Untouched w w') := untouched_call w

theorem removeUser_id {e e' : Engine V} {tag id : String} {receipt : Receipt} (removed : removeUser e tag id = .ok (receipt,e')) :
    receipt.id = id := by
  unfold removeUser at removed
  split at removed
  · cases removed
  · split at removed
    · cases removed
      rfl
    · split at removed
      · cases removed
        rfl
      · cases removed

theorem takeUserTraffic_id {e e' : Engine V} {tag id : String} {receipt : Receipt} (taken : takeUserTraffic e tag id = .ok (receipt,e')) :
    receipt.id = id := by
  unfold takeUserTraffic at taken
  split at taken
  · cases taken
  · split at taken
    · cases taken
    · cases taken
      rfl

theorem untouched_callRemoveUser (w : World V) (tag id : String) : Ensures (callRemoveUser tag id) w (fun result w' => Untouched w w' ∧
    ∀ receipt, result = .ok receipt → receipt.id = id) := by
  refine moment_bind (Ensures.look_bind ?_)
  have found := untouched_seen w
  cases decided : removeUser (seen w).engine tag id with
  | error error => exact Ensures.fail ⟨found,fun _ no => by cases no⟩
  | ok answer =>
    obtain ⟨receipt,e'⟩ := answer
    cases (now w).fault with
    | none => exact ⟨⟨found.pending,found.peak⟩,fun _ same => by cases same; exact removeUser_id decided⟩
    | some fault =>
      cases fault with
      | io msg => exact ⟨⟨found.pending,found.peak⟩,fun _ no => by cases no⟩
      | invalidConfig msg => exact ⟨found,fun _ no => by cases no⟩

theorem untouched_callTakeUserTraffic (w : World V) (tag id : String) : Ensures (callTakeUserTraffic tag id) w (fun result w' =>
    Untouched w w' ∧ ∀ receipt, result = .ok receipt → receipt.id = id) := by
  refine Ensures.mono (Ensures.and (untouched_call w) (ensures_call w)) ?_
  rintro (error | receipt) w' ⟨untouched,held⟩
  · exact ⟨untouched,fun _ no => by cases no⟩
  · obtain ⟨e',taken,_,_⟩ := held
    refine ⟨untouched,fun _ same => ?_⟩
    cases same
    exact takeUserTraffic_id taken

theorem untouched_removeUserWithRetry (w : World V) (tag id : String) : Ensures (removeUserWithRetry tag id) w (fun result w' =>
    Untouched w w' ∧ ∀ receipt, result = .ok receipt → receipt.id = id) := by
  refine Ensures.attempt_bind (untouched_callRemoveUser w tag id) ?_
  rintro (error | receipt) w₁ ⟨untouched,own⟩
  · cases error with
    | io first =>
      refine Ensures.attempt_bind (untouched_callRemoveUser w₁ tag id) ?_
      rintro (retry | receipt) w₂ ⟨again,own'⟩
      · exact Ensures.fail ⟨untouched.trans again,fun _ no => by cases no⟩
      · refine Ensures.pure ⟨untouched.trans again,fun _ same => ?_⟩
        cases same
        exact own' receipt rfl
    | _ => exact Ensures.fail ⟨untouched,fun _ no => by cases no⟩
  · refine Ensures.pure ⟨untouched,fun _ same => ?_⟩
    cases same
    exact own receipt rfl

/-! ### One reservation -/

/-- Nothing is reserved, and there is room for what is on file. -/
structure Filing (maxKeys : Nat) (w : World V) : Prop where
  limit : w.pending.maxKeys = maxKeys
  unreserved : w.pending.reserved = ∅
  bounded : w.pending.entries.size ≤ maxKeys
  peak : w.peak ≤ maxKeys

/-- One identity is reserved, or is on file already. -/
structure Holding (maxKeys : Nat) (entries : TrafficDrainEntries) (reservation : Reservation) (w : World V) : Prop where
  limit : w.pending.maxKeys = maxKeys
  same : w.pending.entries = entries
  bounded : entries.size ≤ maxKeys
  reserved : if reservation.owns then w.pending.reserved = (∅ : Map TrafficDrainKey Unit).insert reservation.key () ∧ entries.size < maxKeys
    else w.pending.reserved = ∅ ∧ (entries[reservation.key]?).isSome
  peak : w.peak ≤ maxKeys

theorem Filing.untouched (filing : Filing maxKeys w) (untouched : Untouched w w') : Filing maxKeys w' := by
  constructor
  · rw [untouched.pending]; exact filing.limit
  · rw [untouched.pending]; exact filing.unreserved
  · rw [untouched.pending]; exact filing.bounded
  · rw [untouched.peak]; exact filing.peak

variable {entries : TrafficDrainEntries} {reservation : Reservation}

theorem Holding.untouched (holding : Holding maxKeys entries reservation w) (untouched : Untouched w w') :
    Holding maxKeys entries reservation w' := by
  constructor
  · rw [untouched.pending]; exact holding.limit
  · rw [untouched.pending]; exact holding.same
  · exact holding.bounded
  · rw [untouched.pending]; exact holding.reserved
  · rw [untouched.peak]; exact holding.peak

theorem erase_single (key : TrafficDrainKey) : ((∅ : Map TrafficDrainKey Unit).insert key ()).erase key = ∅ := by
  apply Std.ExtTreeMap.ext_getElem?
  intro other
  rw [lookup_erase,lookup_insert]
  split <;> simp

/-- A reservation succeeds as long as there is room. -/
theorem ensures_reserve (filing : Filing maxKeys w) (inbound : NormalizedInbound V) (id : String) :
    Ensures (reserveTraffic inbound id) w (Outcome
      (fun reservation w' => reservation.key = trafficKey inbound id ∧ Holding maxKeys w.pending.entries reservation w')
      (fun _ w' => w' = w ∧ w.pending.entries[trafficKey inbound id]? = none ∧ maxKeys ≤ w.pending.entries.size)) := by
  have empty : w.pending.reserved.size = 0 := by rw [filing.unreserved]; rfl
  refine Ensures.look_bind ?_
  cases reserved : reserve w.pending (trafficKey inbound id) with
  | error error =>
    unfold reserve at reserved
    split at reserved
    · cases reserved
    next fresh =>
    split at reserved
    · next taken =>
      rw [filing.unreserved] at taken
      simp at taken
    split at reserved
    · next full =>
      rw [filing.limit,empty] at full
      exact Ensures.fail ⟨rfl,by simpa using fresh,full⟩
    · cases reserved
  | ok answer =>
    obtain ⟨owns,pending⟩ := answer
    refine Ensures.change_bind (Ensures.pure ⟨rfl,?_⟩)
    unfold reserve at reserved
    split at reserved
    · next held =>
      cases reserved
      refine ⟨filing.limit,rfl,filing.bounded,⟨filing.unreserved,held⟩,?_⟩
      show max w.peak (w.pending.entries.size + w.pending.reserved.size) ≤ maxKeys
      have bounded := filing.bounded
      have peak := filing.peak
      omega
    split at reserved
    · cases reserved
    split at reserved
    · cases reserved
    · next room =>
      cases reserved
      rw [filing.limit,empty] at room
      have one : ((∅ : Map TrafficDrainKey Unit).insert (trafficKey inbound id) ()).size = 1 := by
        rw [Std.ExtTreeMap.size_insert]
        simp
      refine ⟨filing.limit,rfl,filing.bounded,⟨by rw [← filing.unreserved]; rfl,by omega⟩,?_⟩
      show max w.peak (w.pending.entries.size + (w.pending.reserved.insert (trafficKey inbound id) ()).size) ≤ maxKeys
      rw [filing.unreserved,one]
      have peak := filing.peak
      omega

/-- A reservation that is given back leaves nothing behind. -/
theorem ensures_drop {ε : Type} (holding : Holding maxKeys entries reservation w) :
    Ensures (@dropReservation V ε reservation) w (Outcome
      (fun _ w' => Filing maxKeys w' ∧ w'.pending.entries = entries) (fun _ _ => False)) := by
  have reserved := holding.reserved
  refine Ensures.change ?_
  cases owns : reservation.owns with
  | false =>
    rw [owns] at reserved
    refine ⟨⟨holding.limit,reserved.1,?_,holding.peak⟩,holding.same⟩
    show w.pending.entries.size ≤ maxKeys
    rw [holding.same]
    exact holding.bounded
  | true =>
    rw [owns,if_pos rfl] at reserved
    obtain ⟨single,room⟩ := reserved
    have bounded : w.pending.entries.size ≤ maxKeys := by
      rw [holding.same]
      exact holding.bounded
    have nothing : w.pending.reserved.erase reservation.key = ∅ := by
      rw [single]
      exact erase_single _
    refine ⟨⟨holding.limit,nothing,bounded,?_⟩,holding.same⟩
    show max w.peak (w.pending.entries.size + (w.pending.reserved.erase reservation.key).size) ≤ maxKeys
    rw [nothing]
    have peak := holding.peak
    simp
    omega

/-- A receipt of the reserved identity takes the place of its reservation. -/
theorem ensures_queue {ε : Type} {inbound : NormalizedInbound V} {receipt : Receipt} (holding : Holding maxKeys entries reservation w)
    (own : reservation.key = trafficKey inbound receipt.id) :
    Ensures (@queueTraffic V ε reservation inbound receipt) w (Outcome
      (fun _ w' => Filing maxKeys w' ∧ w'.pending.entries = mergeTrafficEntry entries (trafficDrain inbound receipt)) (fun _ _ => False)) := by
  have reserved := holding.reserved
  have key : (trafficDrain inbound receipt).key = reservation.key := own.symm
  refine Ensures.change ?_
  have merged : (mergeReserved w.pending (trafficDrain inbound receipt) reservation.owns).entries =
      mergeTrafficEntry entries (trafficDrain inbound receipt) := by
    unfold mergeReserved release
    dsimp only
    rw [← holding.same]
    split <;> rfl
  have limit : (mergeReserved w.pending (trafficDrain inbound receipt) reservation.owns).maxKeys = maxKeys := by
    unfold mergeReserved release
    dsimp only
    rw [← holding.limit]
    split <;> rfl
  have nothing : (mergeReserved w.pending (trafficDrain inbound receipt) reservation.owns).reserved = ∅ := by
    unfold mergeReserved release
    dsimp only
    cases owns : reservation.owns with
    | false =>
      rw [owns] at reserved
      exact reserved.1
    | true =>
      rw [owns,if_pos rfl] at reserved
      rw [if_pos rfl,key,reserved.1]
      exact erase_single _
  have bounded : (mergeTrafficEntry entries (trafficDrain inbound receipt)).size ≤ maxKeys := by
    cases owns : reservation.owns with
    | false =>
      rw [owns] at reserved
      rw [merge_held _ (by rw [key]; exact reserved.2)]
      exact holding.bounded
    | true =>
      rw [owns,if_pos rfl] at reserved
      have grown := merge_size entries (trafficDrain inbound receipt)
      omega
  refine ⟨⟨limit,nothing,?_,?_⟩,merged⟩
  · show (mergeReserved w.pending (trafficDrain inbound receipt) reservation.owns).entries.size ≤ maxKeys
    rw [merged]
    exact bounded
  · show max w.peak ((mergeReserved w.pending (trafficDrain inbound receipt) reservation.owns).entries.size +
      (mergeReserved w.pending (trafficDrain inbound receipt) reservation.owns).reserved.size) ≤ maxKeys
    rw [merged,nothing]
    have peak := holding.peak
    simp
    omega

/-! ### Collecting and flushing -/

/-- A collection files under the identity of its user, and finds no room only for a new one when the limit is reached. -/
theorem ensures_collect (filing : Filing maxKeys w) (tag : String) (accounting : NormalizedInbound V) (id : String) :
    Ensures (collectUser tag accounting id) w (fun result w' => Filing maxKeys w' ∧
      (∀ key, (w'.pending.entries[key]?).isSome → (w.pending.entries[key]?).isSome ∨ key = trafficKey accounting id) ∧
      ∀ error, result = .error (.reserve error) →
        w.pending.entries[trafficKey accounting id]? = none ∧ maxKeys ≤ w.pending.entries.size) := by
  refine Ensures.attempt_bind (ensures_reserve filing accounting id) ?_
  rintro (error | reservation) w₁ held
  · obtain ⟨rfl,full⟩ := held
    exact Ensures.fail ⟨filing,fun _ => .inl,fun _ _ => full⟩
  obtain ⟨own,holding⟩ := held
  refine Ensures.attempt_bind (untouched_removeUserWithRetry w₁ tag id) ?_
  rintro (failure | receipt) w₂ ⟨untouched,receipts⟩
  · refine Ensures.bind (ensures_drop (holding.untouched untouched)) ?_ (fun _ _ no => no.elim)
    rintro _ w₃ ⟨filing₃,same⟩
    refine Ensures.fail ⟨filing₃,?_,fun _ no => by cases no⟩
    rw [same]
    exact fun _ => .inl
  · have named : reservation.key = trafficKey accounting receipt.id := by rw [receipts receipt rfl]; exact own
    refine Ensures.mono (ensures_queue (holding.untouched untouched) named) ?_
    rintro (no | value) w₃ held
    · exact held.elim
    · obtain ⟨filing₃,merged⟩ := held
      refine ⟨filing₃,?_,fun _ no => by cases no⟩
      rw [merged]
      intro key there
      rw [← own,named]
      exact merge_keys there

theorem keeps_flushUser (tag : String) (old : NormalizedInbound V) (id : String) : Keeps (Filing maxKeys) (flushUser tag old id) := by
  intro w filing
  have reserving : Ensures (orFail (reserveTraffic old id) (fun error => StepFailure.unchanged ("reserve old traffic for user " ++ id ++
      " before changing ownership metadata for inbound " ++ tag ++ ": " ++ error))) w (Outcome
      (fun reservation w' => reservation.key = trafficKey old id ∧ Holding maxKeys w.pending.entries reservation w')
      (fun _ w' => Filing maxKeys w')) := by
    refine Ensures.orFail (ensures_reserve filing old id) (fun _ _ held => held) ?_
    rintro error w' ⟨rfl,-⟩
    exact filing
  refine Ensures.bind reserving ?_ (fun _ _ held => held)
  rintro reservation w₁ ⟨own,holding⟩
  refine Ensures.attempt_bind (untouched_callTakeUserTraffic w₁ tag id) ?_
  rintro (error | receipt) w₂ ⟨untouched,receipts⟩
  · refine Ensures.bind (ensures_drop (holding.untouched untouched)) ?_ (fun _ _ no => no.elim)
    rintro _ w₃ ⟨filing₃,-⟩
    exact Ensures.fail filing₃
  · have named : reservation.key = trafficKey old receipt.id := by rw [receipts receipt rfl]; exact own
    refine Ensures.mono (ensures_queue (holding.untouched untouched) named) ?_
    rintro (no | value) w₃ held
    · exact held.elim
    · exact held.1

/-! ### Runs -/

theorem keeps_call {α : Type} (effect : Moment → Engine V → Except EngineError (α × Engine V)) : Keeps (Filing maxKeys) (call effect) :=
  fun w filing => Ensures.mono (untouched_call w) (fun _ _ untouched => filing.untouched untouched)

theorem keeps_collect (tag : String) (accounting : NormalizedInbound V) (id : String) :
    Keeps (Filing maxKeys) (collectUser tag accounting id) :=
  fun _ filing => Ensures.mono (ensures_collect filing tag accounting id) (fun _ _ held => held.1)

theorem filing_piecewise (shoes : Shoes V) (maxKeys : Nat) : Piecewise shoes (Filing maxKeys) where
  ask _ := keeps_call _
  addUser _ _ := keeps_call _
  collect := keeps_collect
  removeInboundHard _ := keeps_call _

theorem filing_closed (shoes : Shoes V) (maxKeys : Nat) : Closed shoes (Filing maxKeys) where
  ask _ := keeps_call _
  addInbound _ := keeps_call _
  addInboundWithReplay _ _ := keeps_call _
  updateInbound _ := keeps_call _
  addUser _ _ := keeps_call _
  collect tag accounting id _ := keeps_collect tag accounting id
  flush tag old id _ := keeps_flushUser tag old id
  stop listener registry accounting _ := (filing_piecewise shoes maxKeys).stop listener registry accounting

theorem filing_drain {ε : Type} (filing : Filing maxKeys w) : Ensures (@drainTrafficOwned V ε) w (fun _ w' => Filing maxKeys w') := by
  have emptied : Filing maxKeys (setPending { w.pending with entries := ∅ } w) := by
    refine ⟨filing.limit,filing.unreserved,Nat.zero_le _,?_⟩
    show max w.peak ((∅ : TrafficDrainEntries).size + w.pending.reserved.size) ≤ maxKeys
    rw [filing.unreserved]
    have peak := filing.peak
    simp
    omega
  refine Ensures.look_bind (Ensures.change_bind ?_)
  refine Keeps.bind (I := Filing maxKeys) (Keeps.foldEach (A := fun _ => True) trivial (fun drained _ entry _ => ⟨?_,Returns.any _⟩))
    (fun drained => ?_) _ emptied
  · refine Keeps.attempt_bind (keeps_call _) ?_
    rintro (error | users)
    · exact Keeps.pure _
    · exact Keeps.pure _
  · exact Keeps.pure _

/-- The pending traffic stays in its limits, whatever the runtime does. -/
theorem filing_enduring (shoes : Shoes V) (maxKeys : Nat) : Enduring shoes (Filing maxKeys) where
  toLasting := by
    refine (filing_closed shoes maxKeys).lasting ?_
    intro w w' _ pending peak filing
    exact filing.untouched ⟨pending,peak⟩
  forceStop w tag known filing _ _ := (filing_piecewise shoes maxKeys).forceStop tag known w filing
  drain w filing _ := filing_drain filing
  meter w traffic filing := filing.untouched (untouched_meterTraffic w traffic)

theorem run_filing [DecidableEq V] {events : List (Event V)} (run : Run (step shoes) (initial V maxKeys) events w) : Filing maxKeys w :=
  (filing_enduring shoes maxKeys).run ⟨rfl,rfl,Nat.zero_le _,Nat.zero_le _⟩ run

end NodeAgent.PendingRoom
