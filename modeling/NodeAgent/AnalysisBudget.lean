import NodeAgent.AnalysisMinutes

/-!
What is charged to the budget of traffic analysis. A gauge is exact when its counters are
what is held and no subtraction has gone below zero. Each operation of a flow, and each
visit of the sampler, keeps its gauge exact whatever the rest of the collector holds.
-/
namespace NodeAgent.AnalysisBudget
open NodeAgent.AnalysisRows NodeAgent.AnalysisFlows NodeAgent.AnalysisMinutes NodeAgent.FiniteMap

/-- So much is held, and nobody else works on the gauge. -/
structure Exact (memory pending targets pendingTargets : Nat) (g : Gauge) : Prop where
  memory : g.memory = memory
  pending : g.pendingMemory = pending
  targets : g.targets = targets
  pendingTargets : g.pendingTargets = pendingTargets
  sane : g.underflow = false
  alone : g.others = []

variable {m p t q bytes : Nat} {g : Gauge}

theorem Exact.release (exact : Exact (m + bytes) p t q g) : Exact m p t q (g.release bytes) := by
  have memory := exact.memory
  refine ⟨?_,exact.pending,exact.targets,exact.pendingTargets,?_,exact.alone⟩
  · simp [Gauge.release,memory]
  · simp [Gauge.release,memory,exact.sane]

theorem Exact.settle (exact : Exact m (p + bytes) t q g) : Exact m p t q (g.settle bytes) := by
  have pending := exact.pending
  refine ⟨exact.memory,?_,exact.targets,exact.pendingTargets,?_,exact.alone⟩
  · simp [Gauge.settle,pending]
  · simp [Gauge.settle,pending,exact.sane]

theorem Exact.releasePending (exact : Exact (m + bytes) (p + bytes) t q g) : Exact m p t q (g.releasePending bytes) :=
  exact.settle.release

theorem Exact.forgetTarget (exact : Exact m p (t + 1) q g) : Exact m p t q g.forgetTarget := by
  have targets := exact.targets
  refine ⟨exact.memory,exact.pending,?_,exact.pendingTargets,?_,exact.alone⟩
  · simp [Gauge.forgetTarget,targets]
  · simp [Gauge.forgetTarget,targets,exact.sane]

theorem Exact.forgetPendingTarget (exact : Exact m p t (q + 1) g) : Exact m p t q g.forgetPendingTarget := by
  have targets := exact.pendingTargets
  refine ⟨exact.memory,exact.pending,exact.targets,?_,?_,exact.alone⟩
  · simp [Gauge.forgetPendingTarget,targets]
  · simp [Gauge.forgetPendingTarget,targets,exact.sane]

/-- Counting events and dropped entries holds nothing. -/
theorem Exact.limited {r : Reason} (exact : Exact m p t q g) : Exact m p t q (g.limited r) :=
  ⟨exact.memory,exact.pending,exact.targets,exact.pendingTargets,exact.sane,exact.alone⟩

theorem Exact.reason {r : Reason} (exact : Exact m p t q g) : Exact m p t q (g.reason r) :=
  ⟨exact.memory,exact.pending,exact.targets,exact.pendingTargets,exact.sane,exact.alone⟩

/-! ### Reservations -/

theorem Exact.reserve (exact : Exact m p t q g) :
    Exact (if (g.reserve bytes).1 then m + bytes else m) p t q (g.reserve bytes).2 := by
  have current : g.catchUp = g := by
    obtain ⟨_,_,_,_,_,alone⟩ := exact
    cases g
    simp only at alone
    subst alone
    rfl
  unfold Gauge.reserve
  rw [current]
  dsimp only
  split
  · exact ⟨congrArg (· + bytes) exact.memory,exact.pending,exact.targets,exact.pendingTargets,exact.sane,exact.alone⟩
  · exact exact

theorem Exact.reservePending (exact : Exact m p t q g) :
    Exact (if (g.reservePending bytes).1 then m + bytes else m) (if (g.reservePending bytes).1 then p + bytes else p) t q
      (g.reservePending bytes).2 := by
  have reserved : Exact _ (p + bytes) t q ({ g with pendingMemory := g.pendingMemory + bytes }.reserve bytes).2 :=
    Exact.reserve ⟨exact.memory,congrArg (· + bytes) exact.pending,exact.targets,exact.pendingTargets,exact.sane,exact.alone⟩
  unfold Gauge.reservePending
  split
  · rcases attempt : { g with pendingMemory := g.pendingMemory + bytes }.reserve bytes with ⟨succeeded,g'⟩
    rw [attempt] at reserved
    simp only [attempt]
    cases succeeded with
    | true => exact reserved
    | false => exact reserved.settle
  · exact exact

theorem Exact.reserveTarget (exact : Exact m p t q g) :
    Exact (if g.reserveTarget.1 then m + TARGET_COST else m) p (if g.reserveTarget.1 then t + 1 else t) q g.reserveTarget.2 := by
  have reserved : Exact _ p (t + 1) q ({ g with targets := g.targets + 1 }.reserve TARGET_COST).2 :=
    Exact.reserve ⟨exact.memory,exact.pending,congrArg (· + 1) exact.targets,exact.pendingTargets,exact.sane,exact.alone⟩
  unfold Gauge.reserveTarget
  split
  · rcases attempt : { g with targets := g.targets + 1 }.reserve TARGET_COST with ⟨succeeded,g'⟩
    rw [attempt] at reserved
    simp only [attempt]
    cases succeeded with
    | true => exact reserved
    | false => exact reserved.forgetTarget.limited
  · exact exact.limited

theorem Exact.reservePendingTarget (exact : Exact m p t q g) :
    Exact (if g.reservePendingTarget.1 then m + TARGET_COST else m) (if g.reservePendingTarget.1 then p + TARGET_COST else p) t
      (if g.reservePendingTarget.1 then q + 1 else q) g.reservePendingTarget.2 := by
  have reserved : Exact _ _ t (q + 1) ({ g with pendingTargets := g.pendingTargets + 1 }.reservePending TARGET_COST).2 :=
    Exact.reservePending ⟨exact.memory,exact.pending,exact.targets,congrArg (· + 1) exact.pendingTargets,exact.sane,exact.alone⟩
  unfold Gauge.reservePendingTarget
  split
  · rcases attempt : { g with pendingTargets := g.pendingTargets + 1 }.reservePending TARGET_COST with ⟨succeeded,g'⟩
    rw [attempt] at reserved
    simp only [attempt]
    cases succeeded with
    | true => exact reserved
    | false => exact reserved.forgetPendingTarget.limited
  · exact exact.limited

theorem Exact.dropTarget (exact : Exact (m + TARGET_COST) p (t + 1) q g) : Exact m p t q g.dropTarget :=
  exact.forgetTarget.release

theorem Exact.dropPending (exact : Exact (m + TARGET_COST) (p + TARGET_COST) t (q + 1) g) : Exact m p t q g.dropPending :=
  exact.forgetPendingTarget.releasePending

theorem Exact.dropTargets {n : Nat} (exact : Exact (m + TARGET_COST * n) p (t + n) q g) : Exact m p t q (g.dropTargets n) := by
  unfold Gauge.dropTargets
  induction n generalizing g with
  | zero => exact exact
  | succ n ih =>
    rw [Nat.mul_succ,← Nat.add_assoc,← Nat.add_assoc] at exact
    rw [Function.iterate_succ_apply]
    exact ih exact.dropTarget

theorem Exact.dropPendings {n : Nat} (exact : Exact (m + TARGET_COST * n) (p + TARGET_COST * n) t (q + n) g) :
    Exact m p t q (g.dropPendings n) := by
  unfold Gauge.dropPendings
  induction n generalizing g with
  | zero => exact exact
  | succ n ih =>
    rw [Nat.mul_succ,← Nat.add_assoc,← Nat.add_assoc,← Nat.add_assoc] at exact
    rw [Function.iterate_succ_apply]
    exact ih exact.dropPending

/-- No reservation succeeds beyond the limit. -/
theorem reserve_within (granted : (g.reserve bytes).1 = true) : (g.reserve bytes).2.memory ≤ (g.reserve bytes).2.limits.memoryMaxBytes := by
  unfold Gauge.reserve at granted ⊢
  dsimp only at granted ⊢
  split at granted
  · next within =>
    rw [if_pos within]
    exact within
  · cases granted

theorem reserve_frame : (g.reserve bytes).2.limits = g.limits ∧ (g.reserve bytes).2.pendingMemory = g.pendingMemory := by
  unfold Gauge.reserve
  dsimp only
  split <;> exact ⟨rfl,rfl⟩

theorem reservePending_within (granted : (g.reservePending bytes).1 = true) :
    (g.reservePending bytes).2.memory ≤ (g.reservePending bytes).2.limits.memoryMaxBytes ∧
      (g.reservePending bytes).2.pendingMemory ≤ (g.reservePending bytes).2.pendingLimit := by
  have frame := @reserve_frame bytes { g with pendingMemory := g.pendingMemory + bytes }
  have within := @reserve_within bytes { g with pendingMemory := g.pendingMemory + bytes }
  unfold Gauge.reservePending at granted ⊢
  split at granted
  · next room =>
    rw [if_pos room]
    rcases attempt : { g with pendingMemory := g.pendingMemory + bytes }.reserve bytes with ⟨succeeded,g'⟩
    rw [attempt] at granted frame within
    simp only [attempt]
    cases succeeded with
    | true =>
      refine ⟨within rfl,?_⟩
      change g'.pendingMemory ≤ min (g'.limits.memoryMaxBytes / 4) (16 * 1024 * 1024)
      rw [frame.1,frame.2]
      exact room
    | false => cases granted
  · cases granted

/-! ### The packet path -/

theorem Exact.congr {m' p' t' q' : Nat} (exact : Exact m p t q g) (memory : m = m') (pending : p = p') (targets : t = t')
    (pendingTargets : q = q') : Exact m' p' t' q' g := by
  subst memory pending targets pendingTargets
  exact exact

/-- A flow holds its metadata and its targets, next to what the others hold. -/
def Charged (m p t q cost : Nat) (c : Scene) : Prop :=
  Exact (m + cost + TARGET_COST * (c.targets.size + c.pending.size)) (p + (if c.webSeen then 0 else cost) + TARGET_COST * c.pending.size)
    (t + c.targets.size) (q + c.pending.size) c.gauge

variable {cost now up down : Nat} {c : Scene} {target : Target} {entry : TargetState}

theorem markWebSeen_charged (charged : Charged m p t q cost c) : Charged m p t q cost (c.markWebSeen cost) := by
  unfold Scene.markWebSeen
  by_cases seen : c.webSeen = true
  · rw [if_pos seen]
    exact charged
  · rw [if_neg seen]
    unfold Charged at charged ⊢
    rw [if_neg seen] at charged
    refine Exact.settle (charged.congr rfl ?_ rfl rfl)
    simp only [if_true]
    change _ = p + 0 + TARGET_COST * c.pending.size + cost
    omega

theorem recordUnknownWeb_charged {identified : Bool} (charged : Charged m p t q cost c) :
    Charged m p t q cost (recordUnknownWeb cost c up down identified) := by
  unfold recordUnknownWeb
  split
  · have counted : Charged m p t q cost (c.count up down) := charged
    exact markWebSeen_charged counted
  · exact charged

theorem recordWebPacket_charged (charged : Charged m p t q cost c) : Charged m p t q cost (recordWebPacket cost c entry up down).1 := by
  unfold recordWebPacket
  split
  · exact charged
  · have counted : Charged m p t q cost (c.count up down) := charged
    exact markWebSeen_charged counted

/-- The packet path counts in place: it has the targets that it had. -/
theorem recordWebPacket_targets : (recordWebPacket cost c entry up down).1.targets = c.targets := by
  unfold recordWebPacket Scene.markWebSeen
  split
  · rfl
  · split <;> rfl

theorem Charged.replaceTarget (charged : Charged m p t q cost c) (held : (c.targets[target]?).isSome) :
    Charged m p t q cost (c.setTargets (c.targets.insert target entry)) := by
  have size : (c.targets.insert target entry).size = c.targets.size := size_insert_held held
  refine Exact.congr charged ?_ rfl ?_ rfl
  · change _ = m + cost + TARGET_COST * ((c.targets.insert target entry).size + c.pending.size)
    rw [size]
  · change _ = t + (c.targets.insert target entry).size
    rw [size]

/-- A target takes the reservation that was made for it. -/
theorem Charged.addTarget (charged : Charged (m + TARGET_COST) p (t + 1) q cost c) (absent : c.targets[target]? = none) :
    Charged m p t q cost (c.setTargets (c.targets.insert target entry)) := by
  have size : (c.targets.insert target entry).size = c.targets.size + 1 := size_insert_new absent
  refine Exact.congr charged ?_ rfl ?_ rfl
  · change _ = m + cost + TARGET_COST * ((c.targets.insert target entry).size + c.pending.size)
    rw [size]
    unfold TARGET_COST
    omega
  · change _ = t + (c.targets.insert target entry).size
    omega

theorem Charged.replacePending {pending : PendingCounters} (charged : Charged m p t q cost c) (held : (c.pending[target]?).isSome) :
    Charged m p t q cost (c.setPending (c.pending.insert target pending)) := by
  have size : (c.pending.insert target pending).size = c.pending.size := size_insert_held held
  refine Exact.congr charged ?_ ?_ rfl ?_
  · change _ = m + cost + TARGET_COST * (c.targets.size + (c.pending.insert target pending).size)
    rw [size]
  · change _ = p + (if c.webSeen then 0 else cost) + TARGET_COST * (c.pending.insert target pending).size
    rw [size]
  · change _ = q + (c.pending.insert target pending).size
    rw [size]

theorem Charged.addPending {pending : PendingCounters} (charged : Charged (m + TARGET_COST) (p + TARGET_COST) t (q + 1) cost c)
    (absent : c.pending[target]? = none) : Charged m p t q cost (c.setPending (c.pending.insert target pending)) := by
  have size : (c.pending.insert target pending).size = c.pending.size + 1 := size_insert_new absent
  refine Exact.congr charged ?_ ?_ rfl ?_
  · change _ = m + cost + TARGET_COST * (c.targets.size + (c.pending.insert target pending).size)
    rw [size]
    unfold TARGET_COST
    omega
  · change _ = p + (if c.webSeen then 0 else cost) + TARGET_COST * (c.pending.insert target pending).size
    rw [size]
    unfold TARGET_COST
    omega
  · change _ = q + (c.pending.insert target pending).size
    omega

theorem expirePending_charged (charged : Charged m p t q cost c) : Charged m p t q cost (expirePending now c) := by
  have fewer : (c.pending.filter (fun _ pending => pending.fresh now)).size ≤ c.pending.size := Std.ExtTreeMap.size_filter_le_size
  refine Exact.dropPendings (n := c.pending.size - (c.pending.filter (fun _ pending => pending.fresh now)).size) (Exact.congr charged ?_ ?_ rfl ?_)
  · change _ = m + cost + TARGET_COST * (c.targets.size + (c.pending.filter (fun _ pending => pending.fresh now)).size) + _
    unfold TARGET_COST
    omega
  · change _ = p + (if c.webSeen then 0 else cost) + TARGET_COST * (c.pending.filter (fun _ pending => pending.fresh now)).size + _
    unfold TARGET_COST
    omega
  · change _ = q + (c.pending.filter (fun _ pending => pending.fresh now)).size + _
    omega

variable {data : Metadata} {parsesIp : String → Bool}

theorem admitInitial_charged (charged : Charged m p t q cost c) : Charged m p t q cost (admitInitial data target c) := by
  unfold admitInitial
  split
  · next missing =>
    simp only [Bool.and_eq_true,Option.isNone_iff_eq_none] at missing
    split
    · exact Exact.limited charged
    · have reserved := Exact.reserveTarget charged
      rcases attempt : c.gauge.reserveTarget with ⟨succeeded,g⟩
      rw [attempt] at reserved
      cases succeeded with
      | true =>
        have booked : Charged (m + TARGET_COST) p (t + 1) q cost { c with gauge := g } := by
          refine Exact.congr reserved ?_ rfl ?_ rfl
          · simp only [if_true]
            exact Nat.add_right_comm _ _ _ |>.trans (congrArg (· + _) (Nat.add_right_comm _ _ _))
          · exact Nat.add_right_comm _ _ _
        exact booked.addTarget missing.2
      | false => exact reserved
  · exact charged

theorem recordPending_charged (charged : Charged m p t q cost c) : Charged m p t q cost (recordPending now target up down c) := by
  have expired : Charged m p t q cost (expirePending now c) := expirePending_charged charged
  unfold recordPending
  generalize expirePending now c = c at expired
  dsimp only
  cases held : c.pending[target]? with
  | some pending =>
    refine expired.replacePending ?_
    rw [held]
    rfl
  | none =>
    dsimp only
    split
    · exact Exact.limited expired
    · have reserved := Exact.reservePendingTarget expired
      rcases attempt : c.gauge.reservePendingTarget with ⟨succeeded,g⟩
      rw [attempt] at reserved
      cases succeeded with
      | true =>
        have booked : Charged (m + TARGET_COST) (p + TARGET_COST) t (q + 1) cost { c with gauge := g } := by
          refine Exact.congr reserved ?_ ?_ rfl ?_
          · simp only [if_true]
            exact Nat.add_right_comm _ _ _ |>.trans (congrArg (· + _) (Nat.add_right_comm _ _ _))
          · simp only [if_true]
            exact Nat.add_right_comm _ _ _ |>.trans (congrArg (· + _) (Nat.add_right_comm _ _ _))
          · exact Nat.add_right_comm _ _ _
        exact booked.addPending held
      | false => exact reserved

theorem recordPacket_charged {destination : Option Target} {knownWeb : Option Bool} (charged : Charged m p t q cost c) :
    Charged m p t q cost (recordPacket parsesIp data cost now destination up down knownWeb c) := by
  unfold recordPacket
  split
  · split
    · exact Exact.limited charged
    · exact charged
  · next target _ =>
    have placed : Charged m p t q cost (admitInitial data target c) := admitInitial_charged charged
    dsimp only
    split
    · next entry held =>
      refine (recordWebPacket_charged placed).replaceTarget ?_
      rw [recordWebPacket_targets,held]
      rfl
    · split
      · exact recordUnknownWeb_charged placed
      · exact recordPending_charged placed

/-- What was taken out is still charged until it goes out of scope. -/
theorem takePending_charged (charged : Charged m p t q cost c) (held : (c.pending[target]?).isSome) :
    Charged (m + TARGET_COST) (p + TARGET_COST) t (q + 1) cost (c.setPending (c.pending.erase target)) := by
  have size := size_erase_held held
  refine Exact.congr charged ?_ ?_ rfl ?_
  · change _ = m + TARGET_COST + cost + TARGET_COST * (c.targets.size + (c.pending.erase target).size)
    rw [size]
    unfold TARGET_COST
    omega
  · change _ = p + TARGET_COST + (if c.webSeen then 0 else cost) + TARGET_COST * (c.pending.erase target).size
    rw [size]
    unfold TARGET_COST
    omega
  · change _ = q + 1 + (c.pending.erase target).size
    omega

/-- So much more is charged while a pending entry is at hand. -/
def inHand (pending : Option PendingCounters) (amount : Nat) : Nat := if pending.isSome then amount else 0

theorem takePending_inHand (charged : Charged m p t q cost c) :
    Charged (m + inHand c.pending[target]? TARGET_COST) (p + inHand c.pending[target]? TARGET_COST) t (q + inHand c.pending[target]? 1) cost
      (c.setPending (c.pending.erase target)) := by
  cases held : c.pending[target]? with
  | none =>
    rw [erase_of_unheld held]
    exact charged
  | some pending =>
    refine takePending_charged charged ?_
    rw [held]
    rfl

theorem dropTaken_charged {pending : Option PendingCounters}
    (charged : Charged (m + inHand pending TARGET_COST) (p + inHand pending TARGET_COST) t (q + inHand pending 1) cost c) :
    Charged m p t q cost (dropTaken pending c) := by
  unfold dropTaken
  cases pending with
  | none => exact charged
  | some pending =>
    have whole : Charged (m + TARGET_COST) (p + TARGET_COST) t (q + 1) cost c := charged
    have apart : Exact (m + cost + TARGET_COST * (c.targets.size + c.pending.size) + TARGET_COST)
        (p + (if c.webSeen then 0 else cost) + TARGET_COST * c.pending.size + TARGET_COST) (t + c.targets.size) (q + c.pending.size + 1) c.gauge := by
      refine Exact.congr whole ?_ ?_ rfl ?_
      · omega
      · omega
      · omega
    exact apart.dropPending

theorem promotePendingUnknown_charged {pending : Option PendingCounters} {identified : Bool} (charged : Charged m p t q cost c) :
    Charged m p t q cost (promotePendingUnknown cost now pending identified c) := by
  unfold promotePendingUnknown
  split
  · split
    · exact recordUnknownWeb_charged charged
    · exact charged
  · exact charged

theorem confirmTarget_charged {domain : Option String} {web : String} {echPresent : Bool} {pending : Option PendingCounters}
    (charged : Charged (m + TARGET_COST) p (t + 1) q cost c) (absent : c.targets[target]? = none) :
    Charged m p t q cost (confirmTarget cost now target domain web echPresent pending c) := by
  unfold confirmTarget
  cases pending with
  | none => exact charged.addTarget absent
  | some pending =>
    dsimp only
    by_cases recent : pending.fresh now = true
    · rw [if_pos recent]
      refine (recordWebPacket_charged charged).addTarget ?_
      rw [recordWebPacket_targets]
      exact absent
    · rw [if_neg recent]
      exact charged.addTarget absent

theorem classifyTarget_charged {domain : Option String} {appProtocol : String} {echPresent : Bool} (charged : Charged m p t q cost c) :
    Charged m p t q cost (classifyTarget parsesIp data cost now target domain appProtocol echPresent c).2 := by
  unfold classifyTarget
  split
  · exact charged
  · next unknown =>
    simp only [Bool.or_eq_true,not_or,Bool.not_eq_true,Option.isSome_eq_false_iff,Option.isNone_iff_eq_none] at unknown
    have taken := @takePending_inHand m p t q cost c target charged
    dsimp only [takePending]
    generalize c.pending[target]? = pending at taken ⊢
    split
    · exact dropTaken_charged taken
    · split
      · exact dropTaken_charged (promotePendingUnknown_charged (Exact.limited taken))
      · have reserved := Exact.reserveTarget taken
        rcases attempt : (c.setPending (c.pending.erase target)).gauge.reserveTarget with ⟨succeeded,g⟩
        rw [attempt] at reserved
        cases succeeded with
        | false =>
          have refused : Charged (m + inHand pending TARGET_COST) (p + inHand pending TARGET_COST) t (q + inHand pending 1) cost
              { c.setPending (c.pending.erase target) with gauge := g } := reserved
          exact dropTaken_charged (promotePendingUnknown_charged refused)
        | true =>
          have booked : Charged (m + inHand pending TARGET_COST + TARGET_COST) (p + inHand pending TARGET_COST) (t + 1)
              (q + inHand pending 1) cost { c.setPending (c.pending.erase target) with gauge := g } := by
            refine Exact.congr reserved ?_ rfl ?_ rfl
            · simp only [if_true]
              exact Nat.add_right_comm _ _ _ |>.trans (congrArg (· + _) (Nat.add_right_comm _ _ _))
            · exact Nat.add_right_comm _ _ _
          exact dropTaken_charged (confirmTarget_charged booked unknown.1)

theorem discardTarget_charged (charged : Charged m p t q cost c) : Charged m p t q cost (discardTarget target c) :=
  dropTaken_charged (takePending_inHand charged)

theorem drainPackets_charged (charged : Charged m p t q cost c) : Charged m p t q cost (drainPackets now c).2 := by
  have expired : Charged m p t q cost (expirePending now c) := expirePending_charged charged
  have size : ((expirePending now c).targets.map (fun _ t => t.drained)).size = (expirePending now c).targets.size :=
    Std.ExtTreeMap.size_map
  refine Exact.congr expired ?_ rfl ?_ rfl
  · change _ = m + cost + TARGET_COST * (((expirePending now c).targets.map (fun _ t => t.drained)).size + (expirePending now c).pending.size)
    rw [size]
  · change _ = t + ((expirePending now c).targets.map (fun _ t => t.drained)).size
    rw [size]

/-! ### The rows of a minute -/

/-- A bucket is charged for its rows, next to what the others hold. -/
structure Stocked (m p t q : Nat) (g : Gauge) (b : MinuteBucket) : Prop where
  exact : Exact (m + b.cost) p t q g
  cost : b.cost = USER_COST * b.users.size + DOMAIN_COST * b.domains.size
  sane : b.underflow = false

variable {b : MinuteBucket} {key : DomainKey} {user : UserKey} {row : TrafficAnalysisDomainMinute}

theorem Stocked.gauge {g' : Gauge} (stocked : Stocked m p t q g b)
    (same : ∀ m p t q, Exact m p t q g → Exact m p t q g') : Stocked m p t q g' b :=
  ⟨same _ _ _ _ stocked.exact,stocked.cost,stocked.sane⟩

/-- Rows change their contents. -/
theorem Stocked.rows {users : Map UserKey TrafficAnalysisUserMinute} {domains : Map DomainKey TrafficAnalysisDomainMinute}
    (stocked : Stocked m p t q g b) (sameUsers : users.size = b.users.size) (sameDomains : domains.size = b.domains.size) :
    Stocked m p t q g { b with users := users, domains := domains } := by
  refine ⟨stocked.exact,?_,stocked.sane⟩
  change b.cost = USER_COST * users.size + DOMAIN_COST * domains.size
  rw [sameUsers,sameDomains]
  exact stocked.cost

/-- A new row takes the reservation that was made for it. -/
theorem Stocked.newDomain (stocked : Stocked (m + DOMAIN_COST) p t q g b) (absent : b.domains[key]? = none) :
    Stocked m p t q g (newDomain b key) := by
  refine ⟨stocked.exact.congr ?_ rfl rfl rfl,?_,stocked.sane⟩
  · change m + DOMAIN_COST + b.cost = m + (b.cost + DOMAIN_COST)
    omega
  change b.cost + DOMAIN_COST = USER_COST * b.users.size + DOMAIN_COST * (b.domains.insert key (domainRow b.minute key)).size
  rw [size_insert_new absent,stocked.cost,Nat.mul_succ]
  omega

theorem size_withoutRow {domains : Map DomainKey TrafficAnalysisDomainMinute} (held : domains[key]? = some row) :
    domains.size = (withoutRow domains key row).size + 1 := by
  have erased : domains.size = (domains.erase key).size + 1 := by
    refine size_erase_held ?_
    rw [held]
    rfl
  unfold withoutRow
  cases unknown : (domains.erase key)[DomainKey.unknown key.user]? with
  | none => exact erased
  | some there =>
    rw [erased,size_insert_held]
    rw [unknown]
    rfl

theorem evict_stocked {known : List DomainKey} (stocked : Stocked m p t q g b) (absent : b.domains[key]? = none) :
    Stocked m p t q (evict key g b known).2.1 (evict key g b known).2.2 := by
  induction known with
  | nil => exact ⟨stocked.exact,stocked.cost,stocked.sane⟩
  | cons oldKey rest ih =>
    unfold evict
    cases held : b.domains[oldKey]? with
    | none => exact ih
    | some old =>
      have size := size_withoutRow held
      have cost := stocked.cost
      rw [size,Nat.mul_succ] at cost
      have still : (withoutRow b.domains oldKey old)[key]? = none := by
        rw [Option.eq_none_iff_forall_ne_some]
        intro row there
        have found := (lookup_withoutRow there).1
        rw [absent] at found
        cases found
      -- The row that makes way leaves its reservation to the new one.
      refine Stocked.newDomain ⟨?_,?_,?_⟩ still
      · have exact := stocked.exact
        refine ⟨?_,exact.pending,exact.targets,exact.pendingTargets,exact.sane,exact.alone⟩
        refine exact.memory.trans ?_
        dsimp only
        omega
      · dsimp only
        omega
      · simp only [stocked.sane,Bool.false_or,decide_eq_false_iff_not,Nat.not_lt]
        omega

theorem ensureUnknown_stocked (stocked : Stocked m p t q g b) :
    Stocked m p t q (ensureUnknown g b user).2.1 (ensureUnknown g b user).2.2 := by
  unfold ensureUnknown
  dsimp only
  split
  · exact stocked
  · next missing =>
    have absent : b.domains[DomainKey.unknown user]? = none := by simpa using missing
    split
    · exact evict_stocked (stocked.gauge (fun _ _ _ _ => Exact.reason)) absent
    · have reserved : Exact _ p t q (g.reserve DOMAIN_COST).2 := stocked.exact.reserve
      rcases attempt : g.reserve DOMAIN_COST with ⟨succeeded,g'⟩
      rw [attempt] at reserved
      cases succeeded with
      | true => exact Stocked.newDomain ⟨reserved.congr (Nat.add_right_comm _ _ _) rfl rfl rfl,stocked.cost,stocked.sane⟩ absent
      | false => exact evict_stocked ⟨reserved.reason,stocked.cost,stocked.sane⟩ absent

theorem placeDomain_stocked (stocked : Stocked m p t q g b) :
    Stocked m p t q (placeDomain g b key).2.1 (placeDomain g b key).2.2 := by
  unfold placeDomain
  split
  · next missing =>
    have absent : b.domains[key]? = none := by
      simp only [Bool.and_eq_true,Option.isNone_iff_eq_none] at missing
      exact missing.1
    split
    · exact stocked.gauge (fun _ _ _ _ => Exact.limited)
    · have reserved : Exact _ p t q (g.reserve DOMAIN_COST).2 := stocked.exact.reserve
      rcases attempt : g.reserve DOMAIN_COST with ⟨succeeded,g'⟩
      rw [attempt] at reserved
      cases succeeded with
      | true =>
        have opened : Stocked m p t q g' (newDomain b key) :=
          Stocked.newDomain ⟨reserved.congr (Nat.add_right_comm _ _ _) rfl rfl rfl,stocked.cost,stocked.sane⟩ absent
        exact ⟨opened.exact,opened.cost,opened.sane⟩
      | false => exact ⟨reserved.limited,stocked.cost,stocked.sane⟩
  · exact stocked

variable {started : Bool}

theorem creditDomain_stocked (stocked : Stocked m p t q g b) : Stocked m p t q g (creditDomain b key up down started) := by
  unfold creditDomain
  split
  · next row held =>
    refine stocked.rows rfl (size_insert_held ?_)
    rw [held]
    rfl
  · exact stocked

theorem addDomain_stocked (stocked : Stocked m p t q g b) :
    Stocked m p t q (addDomain key up down started (g,b)).1 (addDomain key up down started (g,b)).2 := by
  unfold addDomain
  dsimp only
  split
  · exact stocked
  · have placed := @placeDomain_stocked m p t q g b key stocked
    rcases place : placeDomain g b key with ⟨key',g',b'⟩
    rw [place] at placed
    dsimp only at placed ⊢
    split
    · exact creditDomain_stocked placed
    · have ensured := @ensureUnknown_stocked m p t q g' b' key'.user placed
      rcases ensure : ensureUnknown g' b' key'.user with ⟨made,g'',b''⟩
      rw [ensure] at ensured
      cases made with
      | true => exact creditDomain_stocked ensured
      | false =>
        refine ensured.gauge ?_
        intro m p t q exact
        exact ⟨exact.memory,exact.pending,exact.targets,exact.pendingTargets,exact.sane,exact.alone⟩

theorem addDomains_stocked {parts : List Portion} (stocked : Stocked m p t q g b) :
    Stocked m p t q (addDomains parts (g,b)).1 (addDomains parts (g,b)).2 := by
  induction parts generalizing g b with
  | nil => exact stocked
  | cons part rest ih =>
    have first : Stocked m p t q (addDomain part.key part.up part.down part.started (g,b)).1
        (addDomain part.key part.up part.down part.started (g,b)).2 := addDomain_stocked stocked
    exact ih first

theorem openUser_stocked {nonzero : Bool} (stocked : Stocked m p t q g b) :
    Stocked m p t q (openUser g b user nonzero).1 (openUser g b user nonzero).2 := by
  unfold openUser
  split
  · next missing =>
    simp only [Bool.and_eq_true,Option.isNone_iff_eq_none] at missing
    have reserved : Exact _ p t q (g.reserve USER_COST).2 := stocked.exact.reserve
    rcases attempt : g.reserve USER_COST with ⟨succeeded,g'⟩
    rw [attempt] at reserved
    cases succeeded with
    | false => exact ⟨reserved,stocked.cost,stocked.sane⟩
    | true =>
      refine ensureUnknown_stocked ⟨reserved.congr (Nat.add_assoc _ _ _) rfl rfl rfl,?_,stocked.sane⟩
      change b.cost + USER_COST = USER_COST * (b.users.insert user (userRow b.minute user)).size + DOMAIN_COST * b.domains.size
      rw [size_insert_new missing.1,stocked.cost,Nat.mul_succ]
      omega
  · exact stocked

theorem creditUser_stocked {nonzero : Bool} (stocked : Stocked m p t q g b) :
    Stocked m p t q (creditUser g b user up down started nonzero).1 (creditUser g b user up down started nonzero).2 := by
  unfold creditUser
  split
  · next row held =>
    refine stocked.rows (size_insert_held ?_) rfl
    rw [held]
    rfl
  · split
    · refine stocked.gauge ?_
      intro m p t q exact
      exact ⟨exact.memory,exact.pending,exact.targets,exact.pendingTargets,exact.sane,exact.alone⟩
    · exact stocked

theorem identify_stocked (stocked : Stocked m p t q g b) : Stocked m p t q g (identify b user up down) := by
  unfold identify
  split
  · next row held =>
    refine stocked.rows (size_insert_held ?_) rfl
    rw [held]
    rfl
  · exact stocked

theorem accountFlow_stocked {sample : Sample} (stocked : Stocked m p t q g b) :
    Stocked m p t q (accountFlow parsesIp data sample g b).1 (accountFlow parsesIp data sample g b).2 := by
  have opened := @openUser_stocked m p t q g b (UserKey.of data) (Sample.nonzero sample) stocked
  unfold accountFlow
  dsimp only
  generalize openUser g b (UserKey.of data) (Sample.nonzero sample) = world at opened ⊢
  obtain ⟨g',b'⟩ := world
  dsimp only at opened ⊢
  have credited : Stocked m p t q (creditUser g' b' (UserKey.of data) sample.up sample.down sample.started (Sample.nonzero sample)).1
      (creditUser g' b' (UserKey.of data) sample.up sample.down sample.started (Sample.nonzero sample)).2 := creditUser_stocked opened
  split
  · exact identify_stocked (addDomains_stocked credited)
  · exact identify_stocked credited

end NodeAgent.AnalysisBudget
