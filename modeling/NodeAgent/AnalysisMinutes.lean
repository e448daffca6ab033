import NodeAgent.AnalysisFlows
import NodeAgent.Tally

/-!
The rows of one minute. Each visit of the sampler adds what it took out of a flow to the
row of the user and to the rows of the domains. When the limits leave no room for a row,
its bytes go to the user's unknown row, and when there is no room for that one either, the
row of a known domain makes way, merged into the unknown row of its own user.
-/
namespace NodeAgent.AnalysisMinutes
open NodeAgent.AnalysisRows NodeAgent.AnalysisFlows NodeAgent.FiniteMap NodeAgent.Tally

@[irreducible] def USER_COST : Nat := 1536
@[irreducible] def DOMAIN_COST : Nat := 4096

structure MinuteBucket where
  minute : Int
  users : Map UserKey TrafficAnalysisUserMinute
  domains : Map DomainKey TrafficAnalysisDomainMinute
  /-- The rows that can make way, the latest first. -/
  known : List DomainKey
  cost : Nat
  /-- A row made way whose cost the bucket did not have. -/
  underflow : Bool

def MinuteBucket.new (minute : Int) : MinuteBucket := ⟨minute,∅,∅,[],0,false⟩

def userRow (minute : Int) (user : UserKey) : TrafficAnalysisUserMinute :=
  ⟨user.user,minute,user.proxy,user.network,0,0,0,0,0,user.node⟩

def domainRow (minute : Int) (key : DomainKey) : TrafficAnalysisDomainMinute :=
  ⟨key.user.user,minute,key.user.proxy,key.user.network,key.domain,key.app,0,0,0,key.user.node,key.echPresent,key.destination⟩

def newDomain (b : MinuteBucket) (key : DomainKey) : MinuteBucket :=
  { b with domains := b.domains.insert key (domainRow b.minute key), cost := b.cost + DOMAIN_COST }

/-- A row takes the bytes of one that makes way. -/
def absorb (row old : TrafficAnalysisDomainMinute) : TrafficAnalysisDomainMinute :=
  { row with
    uplinkBytes := row.uplinkBytes + old.uplinkBytes
    downlinkBytes := row.downlinkBytes + old.downlinkBytes
    targetSessions := row.targetSessions + old.targetSessions }

/-- The rows after one of them made way: its bytes go to the unknown row of its user, if
    there is one. -/
def withoutRow (domains : Map DomainKey TrafficAnalysisDomainMinute) (key : DomainKey) (old : TrafficAnalysisDomainMinute) :
    Map DomainKey TrafficAnalysisDomainMinute :=
  match (domains.erase key)[DomainKey.unknown key.user]? with
  | some unknown => (domains.erase key).insert (DomainKey.unknown key.user) (absorb unknown old)
  | none => domains.erase key

/-- The latest known row that still exists makes way for the row of the key. -/
def evict (key : DomainKey) (g : Gauge) (b : MinuteBucket) : List DomainKey → Bool × Gauge × MinuteBucket
  | [] => (false,g,{ b with known := [] })
  | oldKey :: rest =>
    match b.domains[oldKey]? with
    | some old => (true,{ g with limitedEvents := g.limitedEvents + 1 },
        newDomain { b with
          domains := withoutRow b.domains oldKey old
          known := rest
          cost := b.cost - DOMAIN_COST
          underflow := b.underflow || b.cost < DOMAIN_COST } key)
    | none => evict key g b rest

def ensureUnknown (g : Gauge) (b : MinuteBucket) (user : UserKey) : Bool × Gauge × MinuteBucket :=
  let key := DomainKey.unknown user
  if (b.domains[key]?).isSome then (true,g,b)
  else if b.domains.size ≥ g.limits.minuteMaxDomainKeys then evict key (g.reason .domainLimit) b b.known
  else match g.reserve DOMAIN_COST with
  | (true,g) => (true,g,newDomain b key)
  | (false,g) => evict key (g.reason .budget) b b.known

/-- The row that an observation is counted in: its own, or the unknown one when there is no
    room. -/
def placeDomain (g : Gauge) (b : MinuteBucket) (key : DomainKey) : DomainKey × Gauge × MinuteBucket :=
  if (b.domains[key]?).isNone && key.informative then
    if b.domains.size ≥ g.limits.minuteMaxDomainKeys then (DomainKey.unknown key.user,g.limited .domainLimit,b)
    else match g.reserve DOMAIN_COST with
    | (true,g) => (key,g,{ newDomain b key with known := key :: b.known })
    | (false,g) => (DomainKey.unknown key.user,g.limited .budget,b)
  else (key,g,b)

def TrafficAnalysisDomainMinute.plus (row : TrafficAnalysisDomainMinute) (up down : Nat) (started : Bool) : TrafficAnalysisDomainMinute :=
  { row with
    uplinkBytes := row.uplinkBytes + up
    downlinkBytes := row.downlinkBytes + down
    targetSessions := row.targetSessions + started.toNat }

def creditDomain (b : MinuteBucket) (key : DomainKey) (up down : Nat) (started : Bool) : MinuteBucket :=
  match b.domains[key]? with
  | some row => { b with domains := b.domains.insert key (TrafficAnalysisDomainMinute.plus row up down started) }
  | none => b

def addDomain (key : DomainKey) (up down : Nat) (started : Bool) (world : Gauge × MinuteBucket) : Gauge × MinuteBucket :=
  let (g,b) := world
  if up = 0 ∧ down = 0 ∧ started = false then (g,b)
  else
    let (key,g,b) := placeDomain g b key
    if (b.domains[key]?).isSome then (g,creditDomain b key up down started)
    else match ensureUnknown g b key.user with
    | (true,g,b) => (g,creditDomain b key up down started)
    | (false,g,b) => ({ g with droppedEntries := g.droppedEntries + 1 },b)

def TrafficAnalysisUserMinute.plus (row : TrafficAnalysisUserMinute) (up down : Nat) (started : Bool) : TrafficAnalysisUserMinute :=
  { row with
    uplinkBytes := row.uplinkBytes + up
    downlinkBytes := row.downlinkBytes + down
    startedSessions := row.startedSessions + started.toNat }

/-- The row of a user is opened when there is room, together with its unknown row. -/
def openUser (g : Gauge) (b : MinuteBucket) (user : UserKey) (nonzero : Bool) : Gauge × MinuteBucket :=
  if (b.users[user]?).isNone && nonzero then
    match g.reserve USER_COST with
    | (true,g) => (ensureUnknown g { b with users := b.users.insert user (userRow b.minute user), cost := b.cost + USER_COST } user).2
    | (false,g) => (g,b)
  else (g,b)

/-- The bytes of a visit go to the row of the user, or are counted as dropped. -/
def creditUser (g : Gauge) (b : MinuteBucket) (user : UserKey) (up down : Nat) (started nonzero : Bool) : Gauge × MinuteBucket :=
  match b.users[user]? with
  | some row => (g,{ b with users := b.users.insert user (TrafficAnalysisUserMinute.plus row up down started) })
  | none => if nonzero then ({ g with droppedEntries := g.droppedEntries + 1 }.reason .budget,b) else (g,b)

def identify (b : MinuteBucket) (user : UserKey) (up down : Nat) : MinuteBucket :=
  match b.users[user]? with
  | some row => { b with users := b.users.insert user { row with
      identifiedUplinkBytes := row.identifiedUplinkBytes + up
      identifiedDownlinkBytes := row.identifiedDownlinkBytes + down } }
  | none => b

variable (parsesIp : String → Bool) (data : Metadata)

/-- The key of a target, with what its packets were classified as. -/
def targetKey (sample : TargetSample) : DomainKey :=
  let key := identity parsesIp data (some sample.target) true
  match sample.classification with
  | some c => { key with domain := c.domain, app := c.app, echPresent := c.echPresent }
  | none => key

/-- The rows that a visit adds to, each with its bytes. -/
structure Portion where
  key : DomainKey
  up : Nat
  down : Nat
  started : Bool

/-- A visit of a UDP flow is split by target, and a TCP flow has one part. -/
def portions (sample : Sample) : List Portion :=
  if data.udp then
    sample.targets.map (fun t => ⟨targetKey parsesIp data t,t.up,t.down,t.started⟩) ++
      [⟨DomainKey.unknown (UserKey.of data),sample.unknown.up,sample.unknown.down,false⟩]
  else [⟨identity parsesIp data data.destination false,sample.up,sample.down,sample.started⟩]

/-- The targets of a visit with a known domain. -/
def identifiedTargets (sample : Sample) : List TargetSample := sample.targets.filter (fun t => (targetKey parsesIp data t).hasDomain)

/-- The bytes of a visit with a known domain. -/
def identified (sample : Sample) : Counters :=
  if data.udp then
    ⟨((identifiedTargets parsesIp data sample).map TargetSample.up).sum + sample.unknownIdentified.up,
      ((identifiedTargets parsesIp data sample).map TargetSample.down).sum + sample.unknownIdentified.down⟩
  else if (identity parsesIp data data.destination false).hasDomain then ⟨sample.up,sample.down⟩
  else Counters.zero

def Sample.nonzero (sample : Sample) : Bool := sample.up ≠ 0 || sample.down ≠ 0 || sample.started

/-- One visit of the sampler: what it took out of the flow goes to the rows. -/
def accountFlow (sample : Sample) (g : Gauge) (b : MinuteBucket) : Gauge × MinuteBucket :=
  let user := UserKey.of data
  let (g,b) := openUser g b user (Sample.nonzero sample)
  let retained := (b.users[user]?).isSome
  let (g,b) := creditUser g b user sample.up sample.down sample.started (Sample.nonzero sample)
  let (g,b) :=
    if retained then (portions parsesIp data sample).foldl (fun world p => addDomain p.key p.up p.down p.started world) (g,b) else (g,b)
  (g,identify b user (identified parsesIp data sample).up (identified parsesIp data sample).down)

/-! ### Rows that make way -/

/-- A row that makes way, among the rows there are before it does. -/
structure Eviction where
  domains : Map DomainKey TrafficAnalysisDomainMinute
  key : DomainKey
  row : TrafficAnalysisDomainMinute

/-- The row has bytes, and its user has no unknown row that could take them. -/
def Eviction.strands (eviction : Eviction) : Bool :=
  ((eviction.domains.erase eviction.key)[DomainKey.unknown eviction.key.user]?).isNone &&
    (eviction.row.uplinkBytes ≠ 0 || eviction.row.downlinkBytes ≠ 0)

/-- What `evict` takes out. -/
def evicted (domains : Map DomainKey TrafficAnalysisDomainMinute) : List DomainKey → List Eviction
  | [] => []
  | key :: rest =>
    match domains[key]? with
    | some row => [⟨domains,key,row⟩]
    | none => evicted domains rest

def ensureUnknownEvicts (g : Gauge) (b : MinuteBucket) (user : UserKey) : List Eviction :=
  if (b.domains[DomainKey.unknown user]?).isSome then []
  else if b.domains.size ≥ g.limits.minuteMaxDomainKeys then evicted b.domains b.known
  else if (g.reserve DOMAIN_COST).1 then []
  else evicted b.domains b.known

def addDomainEvicts (key : DomainKey) (up down : Nat) (started : Bool) (world : Gauge × MinuteBucket) : List Eviction :=
  if up = 0 ∧ down = 0 ∧ started = false then []
  else
    let (key,g,b) := placeDomain world.1 world.2 key
    if (b.domains[key]?).isSome then [] else ensureUnknownEvicts g b key.user

def addDomainsEvict : List Portion → Gauge × MinuteBucket → List Eviction
  | [], _ => []
  | p :: rest, world => addDomainEvicts p.key p.up p.down p.started world ++ addDomainsEvict rest (addDomain p.key p.up p.down p.started world)

def openUserEvicts (g : Gauge) (b : MinuteBucket) (user : UserKey) (nonzero : Bool) : List Eviction :=
  if (b.users[user]?).isNone && nonzero then
    match g.reserve USER_COST with
    | (true,g) => ensureUnknownEvicts g { b with users := b.users.insert user (userRow b.minute user), cost := b.cost + USER_COST } user
    | (false,_) => []
  else []

/-- The rows that make way in one visit of the sampler, in their order. -/
def accountFlowEvicts (sample : Sample) (g : Gauge) (b : MinuteBucket) : List Eviction :=
  let user := UserKey.of data
  let opened := openUser g b user (Sample.nonzero sample)
  openUserEvicts g b user (Sample.nonzero sample) ++
    if (opened.2.users[user]?).isSome then
      addDomainsEvict (portions parsesIp data sample)
        (creditUser opened.1 opened.2 user sample.up sample.down sample.started (Sample.nonzero sample))
    else []

/-! ### Sums of rows -/

/-- A direction of traffic. -/
inductive Side
  | up
  | down
deriving DecidableEq

def Side.of : Side → Nat → Nat → Nat
  | .up, uplink, _ => uplink
  | .down, _, downlink => downlink

def Side.domain (side : Side) (row : TrafficAnalysisDomainMinute) : Nat := side.of row.uplinkBytes row.downlinkBytes

def Side.user (side : Side) (row : TrafficAnalysisUserMinute) : Nat := side.of row.uplinkBytes row.downlinkBytes

def Side.identified (side : Side) (row : TrafficAnalysisUserMinute) : Nat := side.of row.identifiedUplinkBytes row.identifiedDownlinkBytes

/-- The bytes in the domain rows of a user. -/
def domainSum (side : Side) (domains : Map DomainKey TrafficAnalysisDomainMinute) (user : UserKey) : Nat :=
  tally (fun entry : DomainKey × TrafficAnalysisDomainMinute => entry.1.user) (fun entry => side.domain entry.2) user domains.toList

variable {side : Side} {domains : Map DomainKey TrafficAnalysisDomainMinute} {key : DomainKey} {row old : TrafficAnalysisDomainMinute}
  {user : UserKey}

theorem domainSum_held (held : domains[key]? = some row) :
    domainSum side domains user = (if key.user = user then side.domain row else 0) + domainSum side (domains.erase key) user := by
  unfold domainSum
  rw [tally_perm _ _ _ (perm_toList_erase held),tally_cons]

theorem domainSum_insert : domainSum side (domains.insert key row) user =
    (if key.user = user then side.domain row else 0) + domainSum side (domains.erase key) user := by
  unfold domainSum
  rw [tally_perm _ _ _ (perm_toList_insert domains key row),tally_cons]

theorem domainSum_none (absent : ∀ (key : DomainKey) (row : TrafficAnalysisDomainMinute), domains[key]? = some row → key.user ≠ user) :
    domainSum side domains user = 0 := by
  have nothing (entries : List (DomainKey × TrafficAnalysisDomainMinute)) (foreign : ∀ entry ∈ entries, entry.1.user ≠ user) :
      tally (fun entry : DomainKey × TrafficAnalysisDomainMinute => entry.1.user) (fun entry => side.domain entry.2) user entries = 0 := by
    induction entries with
    | nil => rfl
    | cons entry rest ih =>
      rw [tally_cons,if_neg (foreign entry List.mem_cons_self),ih (fun e member => foreign e (List.mem_cons_of_mem _ member))]
  refine nothing _ ?_
  rintro ⟨key,row⟩ member
  exact absent key row ((mem_toList domains).mp member)

/-- A new row has no bytes. -/
theorem domainSum_newRow {minute : Int} (absent : domains[key]? = none) :
    domainSum side (domains.insert key (domainRow minute key)) user = domainSum side domains user := by
  have empty : side.domain (domainRow minute key) = 0 := by cases side <;> rfl
  rw [domainSum_insert,empty,erase_of_unheld absent]
  simp

theorem domain_absorb : side.domain (absorb row old) = side.domain row + side.domain old := by
  cases side <;> rfl

/-- A row that makes way leaves its bytes to the unknown row of its user, or to nobody. -/
theorem domainSum_withoutRow (held : domains[key]? = some old) :
    domainSum side domains user = domainSum side (withoutRow domains key old) user +
      (if key.user = user ∧ ((domains.erase key)[DomainKey.unknown key.user]?) = none then side.domain old else 0) := by
  rw [domainSum_held held]
  unfold withoutRow
  cases unknown : (domains.erase key)[DomainKey.unknown key.user]? with
  | none =>
    by_cases own : key.user = user
    · simp [own]; omega
    · simp [own]
  | some there =>
    rw [domainSum_insert,domainSum_held unknown,domain_absorb]
    by_cases own : key.user = user
    · simp [own]; omega
    · simp [own]

/-! ### The account of a bucket -/

/-- The domain rows of a user have the bytes of the user's row, less what is still owed to
    them by the visit of `visited` and what was dropped or lost with a row that made way. -/
structure Kept (dropped : Nat) (lost : Bool) (visited : UserKey) (owed : Side → Nat) (g : Gauge) (b : MinuteBucket) : Prop where
  within : ∀ (user : UserKey) (row : TrafficAnalysisUserMinute) (side : Side), b.users[user]? = some row →
    domainSum side b.domains user + (if user = visited then owed side else 0) ≤ side.user row
  exact : g.droppedEntries = dropped → lost = false → ∀ (user : UserKey) (row : TrafficAnalysisUserMinute) (side : Side),
    b.users[user]? = some row → domainSum side b.domains user + (if user = visited then owed side else 0) = side.user row
  gap : lost = true → ∃ (user : UserKey) (row : TrafficAnalysisUserMinute) (side : Side), b.users[user]? = some row ∧
    domainSum side b.domains user + (if user = visited then owed side else 0) < side.user row
  owner : ∀ (key : DomainKey) (row : TrafficAnalysisDomainMinute), b.domains[key]? = some row → (b.users[key.user]?).isSome
  counted : dropped ≤ g.droppedEntries

variable {dropped : Nat} {lost : Bool} {visited : UserKey} {owed : Side → Nat} {g g' : Gauge} {b b' : MinuteBucket}

/-- Nothing depends on the gauge but the number of dropped entries. -/
theorem Kept.gauge (kept : Kept dropped lost visited owed g b) (same : g'.droppedEntries = g.droppedEntries) : Kept dropped lost visited owed g' b :=
  ⟨kept.within,by rw [same]; exact kept.exact,kept.gap,kept.owner,by rw [same]; exact kept.counted⟩

/-- The rows change, but no sum does. -/
theorem Kept.rows (kept : Kept dropped lost visited owed g b) (users : b'.users = b.users)
    (sums : ∀ side user, domainSum side b'.domains user = domainSum side b.domains user)
    (owner : ∀ (key : DomainKey) (row : TrafficAnalysisDomainMinute), b'.domains[key]? = some row → (b.users[key.user]?).isSome) :
    Kept dropped lost visited owed g b' := by
  refine ⟨?_,?_,?_,?_,kept.counted⟩
  · intro user row side there
    rw [sums]
    exact kept.within user row side (users ▸ there)
  · intro same none_lost user row side there
    rw [sums]
    exact kept.exact same none_lost user row side (users ▸ there)
  · intro some_lost
    obtain ⟨user,row,side,there,less⟩ := kept.gap some_lost
    refine ⟨user,row,side,by rw [users]; exact there,?_⟩
    rw [sums]
    exact less
  · intro key row there
    rw [users]
    exact owner key row there

theorem Kept.newDomain (kept : Kept dropped lost visited owed g b) (absent : b.domains[key]? = none) (own : (b.users[key.user]?).isSome) :
    Kept dropped lost visited owed g (newDomain b key) := by
  refine kept.rows rfl (fun side user => domainSum_newRow absent) ?_
  intro other row there
  change (b.domains.insert key (domainRow b.minute key))[other]? = some row at there
  rw [lookup_insert] at there
  split at there
  · next same => rw [← same]; exact own
  · exact kept.owner other row there

theorem lookup_withoutRow {other : DomainKey} (there : (withoutRow domains key old)[other]? = some row) :
    (domains[other]?).isSome ∧ other ≠ key := by
  have erased {row : TrafficAnalysisDomainMinute} (found : (domains.erase key)[other]? = some row) : (domains[other]?).isSome ∧ other ≠ key := by
    rw [lookup_erase] at found
    split at found
    · cases found
    · next different => exact ⟨by rw [found]; rfl,Ne.symm different⟩
  unfold withoutRow at there
  split at there
  · next unknown held =>
    rw [lookup_insert] at there
    split at there
    · next same => rw [← same] at erased ⊢; exact erased held
    · exact erased there
  · exact erased there

/-- A known row makes way. -/
theorem Kept.withoutRow (kept : Kept dropped lost visited owed g b) (held : b.domains[key]? = some old) {known : List DomainKey} {cost : Nat}
    {underflow : Bool} :
    Kept dropped (lost || Eviction.strands ⟨b.domains,key,old⟩) visited owed g { b with
      domains := withoutRow b.domains key old
      known := known
      cost := cost
      underflow := underflow } := by
  have sums (side : Side) (user : UserKey) : domainSum side b.domains user = domainSum side (AnalysisMinutes.withoutRow b.domains key old) user +
      (if key.user = user ∧ ((b.domains.erase key)[DomainKey.unknown key.user]?) = none then side.domain old else 0) :=
    domainSum_withoutRow held
  -- Where the bytes are nobody's, the user's row has more than its domain rows from now on.
  have homeless (stranded : Eviction.strands ⟨b.domains,key,old⟩ = true) : ∃ side : Side, 0 < side.domain old ∧
      (b.domains.erase key)[DomainKey.unknown key.user]? = none := by
    simp only [Eviction.strands,Bool.and_eq_true,Option.isNone_iff_eq_none,Bool.or_eq_true,decide_eq_true_eq] at stranded
    rcases stranded.2 with up | down
    · exact ⟨.up,Nat.pos_of_ne_zero up,stranded.1⟩
    · exact ⟨.down,Nat.pos_of_ne_zero down,stranded.1⟩
  have none_stranded (kept_all : Eviction.strands ⟨b.domains,key,old⟩ = false) (side : Side) (user : UserKey) :
      domainSum side (AnalysisMinutes.withoutRow b.domains key old) user = domainSum side b.domains user := by
    rw [sums side user]
    split
    · next nobody =>
      have nothing : side.domain old = 0 := by
        simp only [Eviction.strands,nobody.2,Option.isNone_none,Bool.true_and,Bool.or_eq_false_iff,decide_eq_false_iff_not,not_not] at kept_all
        cases side
        · exact kept_all.1
        · exact kept_all.2
      rw [nothing]
      rfl
    · rfl
  refine ⟨?_,?_,?_,?_,kept.counted⟩
  · intro user row side there
    have before := kept.within user row side there
    have sum := sums side user
    dsimp only
    omega
  · intro same none_lost user row side there
    simp only [Bool.or_eq_false_iff] at none_lost
    dsimp only
    rw [none_stranded none_lost.2 side user]
    exact kept.exact same none_lost.1 user row side there
  · intro some_lost
    simp only [Bool.or_eq_true] at some_lost
    rcases some_lost with earlier | now
    · obtain ⟨user,row,side,there,less⟩ := kept.gap earlier
      refine ⟨user,row,side,there,?_⟩
      have sum := sums side user
      dsimp only
      omega
    · obtain ⟨side,bytes,unowned⟩ := homeless now
      obtain ⟨row,there⟩ := Option.isSome_iff_exists.mp (kept.owner key old held)
      refine ⟨key.user,row,side,there,?_⟩
      have before := kept.within key.user row side there
      have sum := sums side key.user
      rw [if_pos ⟨rfl,unowned⟩] at sum
      dsimp only
      omega
  · intro other row there
    obtain ⟨found,-⟩ := lookup_withoutRow there
    obtain ⟨row',found⟩ := Option.isSome_iff_exists.mp found
    exact kept.owner other row' found

theorem evict_kept {known : List DomainKey} (kept : Kept dropped lost visited owed g b) (absent : b.domains[key]? = none)
    (own : (b.users[key.user]?).isSome) :
    Kept dropped (lost || (evicted b.domains known).any Eviction.strands) visited owed (evict key g b known).2.1 (evict key g b known).2.2 := by
  induction known with
  | nil =>
    rw [evicted,List.any_nil,Bool.or_false]
    exact kept.rows rfl (fun _ _ => rfl) kept.owner
  | cons oldKey rest ih =>
    unfold evict evicted
    cases held : b.domains[oldKey]? with
    | none => exact ih
    | some old =>
      rw [List.any_cons,List.any_nil,Bool.or_false]
      have still : (withoutRow b.domains oldKey old)[key]? = none := by
        rw [Option.eq_none_iff_forall_ne_some]
        intro row there
        have found := (lookup_withoutRow there).1
        rw [absent] at found
        cases found
      exact (kept.withoutRow held).newDomain still own |>.gauge rfl

theorem evict_users {known : List DomainKey} : (evict key g b known).2.2.users = b.users := by
  induction known with
  | nil => rfl
  | cons oldKey rest ih =>
    unfold evict
    cases b.domains[oldKey]? with
    | none => exact ih
    | some old => rfl

/-- Where a row made way, the new one is there. -/
theorem evict_opened {known : List DomainKey} (made : (evict key g b known).1 = true) :
    ((evict key g b known).2.2.domains[key]?).isSome := by
  induction known with
  | nil => cases made
  | cons oldKey rest ih =>
    unfold evict at made ⊢
    cases held : b.domains[oldKey]? with
    | none =>
      rw [held] at made
      exact ih made
    | some old =>
      simp [newDomain]

@[simp] theorem reserve_dropped (g : Gauge) (bytes : Nat) : (g.reserve bytes).2.droppedEntries = g.droppedEntries := by
  unfold Gauge.reserve
  dsimp only
  split <;> rfl

@[simp] theorem reason_dropped (g : Gauge) (r : Reason) : (g.reason r).droppedEntries = g.droppedEntries := rfl

@[simp] theorem limited_dropped (g : Gauge) (r : Reason) : (g.limited r).droppedEntries = g.droppedEntries := rfl

theorem ensureUnknown_kept (kept : Kept dropped lost visited owed g b) (own : (b.users[user]?).isSome) :
    Kept dropped (lost || (ensureUnknownEvicts g b user).any Eviction.strands) visited owed (ensureUnknown g b user).2.1 (ensureUnknown g b user).2.2 := by
  unfold ensureUnknown ensureUnknownEvicts
  dsimp only
  split
  · rw [List.any_nil,Bool.or_false]
    exact kept
  · next missing =>
    have absent : b.domains[DomainKey.unknown user]? = none := by simpa using missing
    split
    · exact evict_kept (kept.gauge rfl) absent own
    · have reserved := reserve_dropped g DOMAIN_COST
      rcases attempt : g.reserve DOMAIN_COST with ⟨succeeded,g'⟩
      rw [attempt] at reserved
      cases succeeded with
      | true =>
        rw [if_pos rfl,List.any_nil,Bool.or_false]
        exact (kept.gauge reserved).newDomain absent own
      | false =>
        rw [if_neg Bool.false_ne_true]
        exact evict_kept (kept.gauge reserved) absent own

theorem ensureUnknown_users : (ensureUnknown g b user).2.2.users = b.users := by
  unfold ensureUnknown
  dsimp only
  split
  · rfl
  · split
    · exact evict_users
    · split
      · rfl
      · exact evict_users

theorem ensureUnknown_opened (made : (ensureUnknown g b user).1 = true) :
    ((ensureUnknown g b user).2.2.domains[DomainKey.unknown user]?).isSome := by
  unfold ensureUnknown at made ⊢
  dsimp only at made ⊢
  split at made
  · next there => rwa [if_pos there]
  · next missing =>
    rw [if_neg missing]
    split at made
    · next full =>
      rw [if_pos full]
      exact evict_opened made
    · next room =>
      rw [if_neg room]
      rcases attempt : g.reserve DOMAIN_COST with ⟨succeeded,g'⟩
      rw [attempt] at made
      cases succeeded with
      | true => simp [newDomain]
      | false => exact evict_opened made

theorem placeDomain_kept (kept : Kept dropped lost visited owed g b) (own : (b.users[key.user]?).isSome) :
    Kept dropped lost visited owed (placeDomain g b key).2.1 (placeDomain g b key).2.2 := by
  unfold placeDomain
  split
  · next missing =>
    have absent : b.domains[key]? = none := by
      simp only [Bool.and_eq_true,Option.isNone_iff_eq_none] at missing
      exact missing.1
    split
    · exact kept.gauge rfl
    · have reserved := reserve_dropped g DOMAIN_COST
      rcases attempt : g.reserve DOMAIN_COST with ⟨succeeded,g'⟩
      rw [attempt] at reserved
      cases succeeded with
      | true =>
        have opened := (kept.gauge reserved).newDomain absent own
        exact opened.rows rfl (fun _ _ => rfl) opened.owner
      | false => exact kept.gauge reserved
  · exact kept

theorem placeDomain_users : (placeDomain g b key).2.2.users = b.users := by
  unfold placeDomain
  split
  · split
    · rfl
    · split <;> rfl
  · rfl

/-- The row is one of the same user, and if it is missing it is the unknown one. -/
theorem placeDomain_key : (placeDomain g b key).1.user = key.user ∧
    ((placeDomain g b key).2.2.domains[(placeDomain g b key).1]? = none → (placeDomain g b key).1 = DomainKey.unknown key.user) := by
  unfold placeDomain
  split
  · split
    · exact ⟨rfl,fun _ => rfl⟩
    · split
      · refine ⟨rfl,?_⟩
        intro missing
        simp [newDomain] at missing
      · exact ⟨rfl,fun _ => rfl⟩
  · next known =>
    refine ⟨rfl,?_⟩
    intro missing
    rw [missing] at known
    exact informative_eq_false.mp (by simpa using known)

variable {up down : Nat} {started : Bool} {later : Side → Nat}

/-- A row takes its part of what is owed. -/
theorem creditDomain_kept (kept : Kept dropped lost visited owed g b) (there : (b.domains[key]?).isSome) (own : key.user = visited)
    (part : ∀ side, owed side = side.of up down + later side) : Kept dropped lost visited later g (creditDomain b key up down started) := by
  obtain ⟨row,held⟩ := Option.isSome_iff_exists.mp there
  have credited : creditDomain b key up down started =
      { b with domains := b.domains.insert key (TrafficAnalysisDomainMinute.plus row up down started) } := by
    unfold creditDomain
    rw [held]
  have plus (side : Side) : side.domain (TrafficAnalysisDomainMinute.plus row up down started) = side.domain row + side.of up down := by
    cases side <;> rfl
  have sums (side : Side) (user : UserKey) :
      domainSum side (b.domains.insert key (TrafficAnalysisDomainMinute.plus row up down started)) user + (if user = visited then later side else 0) =
        domainSum side b.domains user + (if user = visited then owed side else 0) := by
    rw [domainSum_insert,domainSum_held held,plus,part,own]
    by_cases same : user = visited
    · simp only [same,if_true]
      omega
    · simp [same,Ne.symm same]
  rw [credited]
  refine ⟨?_,?_,?_,?_,kept.counted⟩
  · intro user row side there
    dsimp only
    rw [sums]
    exact kept.within user row side there
  · intro same none_lost user row side there
    dsimp only
    rw [sums]
    exact kept.exact same none_lost user row side there
  · intro some_lost
    obtain ⟨user,row,side,there,less⟩ := kept.gap some_lost
    refine ⟨user,row,side,there,?_⟩
    dsimp only
    rw [sums]
    exact less
  · intro other row there
    rw [lookup_insert] at there
    split at there
    · next same =>
      rw [← same]
      exact kept.owner key _ held
    · exact kept.owner other row there

theorem creditDomain_users : (creditDomain b key up down started).users = b.users := by
  unfold creditDomain
  split <;> rfl

/-- What is owed is counted as dropped instead. -/
theorem Kept.drop (kept : Kept dropped lost visited owed g b) (less : ∀ side, later side ≤ owed side) :
    Kept dropped lost visited later { g with droppedEntries := g.droppedEntries + 1 } b := by
  have paid (side : Side) (user : UserKey) : (if user = visited then later side else 0) ≤ (if user = visited then owed side else 0) := by
    split
    · exact less side
    · exact Nat.le_refl 0
  refine ⟨?_,?_,?_,kept.owner,Nat.le_succ_of_le kept.counted⟩
  · intro user row side there
    have before := kept.within user row side there
    have smaller := paid side user
    omega
  · intro same
    have counted := kept.counted
    dsimp only at same
    omega
  · intro some_lost
    obtain ⟨user,row,side,there,gap⟩ := kept.gap some_lost
    have smaller := paid side user
    exact ⟨user,row,side,there,by omega⟩

theorem addDomain_kept (kept : Kept dropped lost visited owed g b) (own : key.user = visited) (row : (b.users[visited]?).isSome)
    (part : ∀ side, owed side = side.of up down + later side) :
    Kept dropped (lost || (addDomainEvicts key up down started (g,b)).any Eviction.strands) visited later
      (addDomain key up down started (g,b)).1 (addDomain key up down started (g,b)).2 := by
  unfold addDomain addDomainEvicts
  dsimp only
  split
  · next nothing =>
    rw [List.any_nil,Bool.or_false]
    have same : owed = later := by
      funext side
      rw [part side,nothing.1,nothing.2.1]
      cases side <;> exact Nat.zero_add _
    rw [← same]
    exact kept
  · have placed : Kept dropped lost visited owed (placeDomain g b key).2.1 (placeDomain g b key).2.2 := by
      refine placeDomain_kept kept ?_
      rw [own]
      exact row
    have users := @placeDomain_users key g b
    have named := @placeDomain_key key g b
    rcases place : placeDomain g b key with ⟨key',g',b'⟩
    rw [place] at placed users named
    dsimp only at placed users named ⊢
    split
    · next there =>
      rw [List.any_nil,Bool.or_false]
      exact creditDomain_kept placed there (named.1.trans own) part
    · next missing =>
      have absent : b'.domains[key']? = none := by simpa using missing
      have unknown : key' = DomainKey.unknown key'.user := by
        rw [named.1]
        exact named.2 absent
      have ensured : Kept dropped (lost || (ensureUnknownEvicts g' b' key'.user).any Eviction.strands) visited owed
          (ensureUnknown g' b' key'.user).2.1 (ensureUnknown g' b' key'.user).2.2 := by
        refine ensureUnknown_kept placed ?_
        rw [named.1,own,users]
        exact row
      have opened := @ensureUnknown_opened key'.user g' b'
      rcases ensure : ensureUnknown g' b' key'.user with ⟨made,g'',b''⟩
      rw [ensure] at ensured opened
      cases made with
      | true =>
        refine creditDomain_kept ensured ?_ (named.1.trans own) part
        rw [unknown]
        exact opened rfl
      | false =>
        refine ensured.drop (fun side => ?_)
        have less := part side
        omega

theorem addDomain_users {world : Gauge × MinuteBucket} : (addDomain key up down started world).2.users = world.2.users := by
  unfold addDomain
  dsimp only
  split
  · rfl
  · split
    · rw [creditDomain_users]
      exact placeDomain_users
    · have users := @ensureUnknown_users (placeDomain world.1 world.2 key).1.user (placeDomain world.1 world.2 key).2.1
        (placeDomain world.1 world.2 key).2.2
      split
      · next ensured =>
        rw [ensured] at users
        rw [creditDomain_users]
        exact users.trans placeDomain_users
      · next ensured =>
        rw [ensured] at users
        exact users.trans placeDomain_users

/-- The bytes of some parts of a visit. -/
def portionSum (side : Side) (parts : List Portion) : Nat := (parts.map (fun p => side.of p.up p.down)).sum

/-- The rows of a visited user after some of its parts have been added. -/
def addDomains (parts : List Portion) (world : Gauge × MinuteBucket) : Gauge × MinuteBucket :=
  parts.foldl (fun world p => addDomain p.key p.up p.down p.started world) world

theorem addDomains_users {parts : List Portion} {world : Gauge × MinuteBucket} : (addDomains parts world).2.users = world.2.users := by
  induction parts generalizing world with
  | nil => rfl
  | cons p rest ih =>
    change (addDomains rest (addDomain p.key p.up p.down p.started world)).2.users = world.2.users
    rw [ih,addDomain_users]

theorem addDomains_kept {parts : List Portion} (kept : Kept dropped lost visited (fun side => portionSum side parts) g b)
    (own : ∀ p ∈ parts, p.key.user = visited) (row : (b.users[visited]?).isSome) :
    Kept dropped (lost || (addDomainsEvict parts (g,b)).any Eviction.strands) visited (fun _ => 0)
      (addDomains parts (g,b)).1 (addDomains parts (g,b)).2 := by
  induction parts generalizing g b lost with
  | nil =>
    rw [addDomainsEvict,List.any_nil,Bool.or_false]
    exact kept
  | cons p rest ih =>
    rw [addDomainsEvict,List.any_append,← Bool.or_assoc]
    have first : Kept dropped (lost || (addDomainEvicts p.key p.up p.down p.started (g,b)).any Eviction.strands) visited
        (fun side => portionSum side rest) (addDomain p.key p.up p.down p.started (g,b)).1
        (addDomain p.key p.up p.down p.started (g,b)).2 := by
      refine addDomain_kept kept (own p List.mem_cons_self) row ?_
      intro side
      simp [portionSum]
    have still : ((addDomain p.key p.up p.down p.started (g,b)).2.users[visited]?).isSome := by
      rw [addDomain_users]
      exact row
    exact ih first (fun q member => own q (List.mem_cons_of_mem p member)) still

/-- Between two visits nothing is owed to anybody. -/
theorem Kept.settled {other : UserKey} (kept : Kept dropped lost visited (fun _ => 0) g b) : Kept dropped lost other (fun _ => 0) g b := by
  refine ⟨?_,?_,?_,kept.owner,kept.counted⟩
  · simpa using kept.within
  · simpa using kept.exact
  · simpa using kept.gap

theorem userRow_empty {minute : Int} : side.user (userRow minute user) = 0 := by
  cases side <;> rfl

theorem openUser_kept {nonzero : Bool} (kept : Kept dropped lost visited (fun _ => 0) g b) :
    Kept dropped (lost || (openUserEvicts g b user nonzero).any Eviction.strands) visited (fun _ => 0)
      (openUser g b user nonzero).1 (openUser g b user nonzero).2 := by
  unfold openUser openUserEvicts
  split
  · next missing =>
    simp only [Bool.and_eq_true,Option.isNone_iff_eq_none] at missing
    have reserved := reserve_dropped g USER_COST
    rcases attempt : g.reserve USER_COST with ⟨succeeded,g'⟩
    rw [attempt] at reserved
    cases succeeded with
    | false =>
      dsimp only
      rw [List.any_nil,Bool.or_false]
      exact kept.gauge reserved
    | true =>
      -- No domain row is there for a user without a row.
      have none_there (side : Side) : domainSum side b.domains user = 0 := by
        refine domainSum_none ?_
        rintro key row held rfl
        have own := kept.owner key row held
        rw [missing.1] at own
        cases own
      refine ensureUnknown_kept ?_ (by simp)
      refine ⟨?_,?_,?_,?_,by rw [reserved]; exact kept.counted⟩
      · intro other row side there
        rw [lookup_insert] at there
        split at there
        · next same =>
          cases there
          rw [← same,none_there]
          simp
        · exact kept.within other row side there
      · intro same none_lost other row side there
        rw [lookup_insert] at there
        split at there
        · next same =>
          cases there
          rw [← same,none_there,userRow_empty]
          simp
        · exact kept.exact (reserved.symm.trans same) none_lost other row side there
      · intro some_lost
        obtain ⟨other,row,side,there,less⟩ := kept.gap some_lost
        refine ⟨other,row,side,?_,less⟩
        rw [lookup_insert,if_neg]
        · exact there
        · rintro rfl
          rw [missing.1] at there
          cases there
      · intro key row held
        have own := kept.owner key row held
        rw [lookup_insert]
        split
        · rfl
        · exact own
  · rw [List.any_nil,Bool.or_false]
    exact kept

variable {nonzero : Bool}

/-- The bytes of a visit stand in the user's row and are owed to its domain rows. -/
theorem creditUser_kept (kept : Kept dropped lost visited (fun _ => 0) g b) (there : (b.users[visited]?).isSome) :
    Kept dropped lost visited (fun side => side.of up down) (creditUser g b visited up down started nonzero).1
      (creditUser g b visited up down started nonzero).2 := by
  obtain ⟨row,held⟩ := Option.isSome_iff_exists.mp there
  have credited : creditUser g b visited up down started nonzero =
      (g,{ b with users := b.users.insert visited (TrafficAnalysisUserMinute.plus row up down started) }) := by
    unfold creditUser
    rw [held]
  have plus (side : Side) : side.user (TrafficAnalysisUserMinute.plus row up down started) = side.user row + side.of up down := by
    cases side <;> rfl
  rw [credited]
  refine ⟨?_,?_,?_,?_,kept.counted⟩
  · intro user current side there
    rw [lookup_insert] at there
    split at there
    · next same =>
      cases there
      have before := kept.within visited row side held
      rw [← same,plus,if_pos rfl]
      simp only [if_true] at before
      dsimp only
      omega
    · next other =>
      rw [if_neg (Ne.symm other)]
      simpa using kept.within user current side there
  · intro same none_lost user current side there
    rw [lookup_insert] at there
    split at there
    · next equal =>
      cases there
      have before := kept.exact same none_lost visited row side held
      rw [← equal,plus,if_pos rfl]
      simp only [if_true] at before
      dsimp only
      omega
    · next other =>
      rw [if_neg (Ne.symm other)]
      simpa using kept.exact same none_lost user current side there
  · intro some_lost
    obtain ⟨user,current,side,there,less⟩ := kept.gap some_lost
    by_cases same : visited = user
    · subst same
      rw [held] at there
      cases there
      refine ⟨visited,_,side,by rw [lookup_insert,if_pos rfl],?_⟩
      rw [plus,if_pos rfl]
      simp only [if_true] at less
      dsimp only
      omega
    · refine ⟨user,current,side,by rw [lookup_insert,if_neg same]; exact there,?_⟩
      rw [if_neg (Ne.symm same)]
      simpa using less
  · intro key current there
    rw [lookup_insert]
    split
    · rfl
    · exact kept.owner key current there

theorem identify_kept (kept : Kept dropped lost visited owed g b) : Kept dropped lost visited owed g (identify b user up down) := by
  unfold identify
  cases held : b.users[user]? with
  | none => exact kept
  | some row =>
    have same (side : Side) : side.user { row with
        identifiedUplinkBytes := row.identifiedUplinkBytes + up
        identifiedDownlinkBytes := row.identifiedDownlinkBytes + down } = side.user row := by
      cases side <;> rfl
    refine ⟨?_,?_,?_,?_,kept.counted⟩
    · intro other current side there
      rw [lookup_insert] at there
      split at there
      · next equal =>
        cases there
        rw [← equal,same]
        exact kept.within user row side held
      · exact kept.within other current side there
    · intro undropped none_lost other current side there
      rw [lookup_insert] at there
      split at there
      · next equal =>
        cases there
        rw [← equal,same]
        exact kept.exact undropped none_lost user row side held
      · exact kept.exact undropped none_lost other current side there
    · intro some_lost
      obtain ⟨other,current,side,there,less⟩ := kept.gap some_lost
      by_cases equal : user = other
      · subst equal
        rw [held] at there
        cases there
        exact ⟨user,_,side,by rw [lookup_insert,if_pos rfl],by rw [same]; exact less⟩
      · exact ⟨other,current,side,by rw [lookup_insert,if_neg equal]; exact there,less⟩
    · intro key current there
      rw [lookup_insert]
      split
      · rfl
      · exact kept.owner key current there

/-! ### Visits -/

/-- A visit whose parts have all of its bytes, and no more of them with a known domain. -/
structure Fair (parsesIp : String → Bool) (data : Metadata) (sample : Sample) : Prop where
  whole : ∀ side, portionSum side (portions parsesIp data sample) = side.of sample.up sample.down
  named : ∀ side : Side, side.of (identified parsesIp data sample).up (identified parsesIp data sample).down ≤ side.of sample.up sample.down

variable {parsesIp : String → Bool} {data : Metadata} {sample : Sample}

theorem targetKey_user {t : TargetSample} : (targetKey parsesIp data t).user = UserKey.of data := by
  unfold targetKey
  cases t.classification with
  | none => exact identity_user parsesIp data _ _
  | some c => exact identity_user parsesIp data _ _

theorem portions_user {p : Portion} (member : p ∈ portions parsesIp data sample) : p.key.user = UserKey.of data := by
  unfold portions at member
  split at member
  · rcases List.mem_append.mp member with target | rest
    · obtain ⟨t,_,rfl⟩ := List.mem_map.mp target
      exact targetKey_user
    · rw [List.mem_singleton.mp rest]
      rfl
  · rw [List.mem_singleton.mp member]
    exact identity_user parsesIp data _ _

theorem openUser_users {nonzero : Bool} : (openUser g b user nonzero).2.users = b.users ∨
    (b.users[user]? = none ∧ (openUser g b user nonzero).2.users = b.users.insert user (userRow b.minute user)) := by
  unfold openUser
  split
  · next missing =>
    simp only [Bool.and_eq_true,Option.isNone_iff_eq_none] at missing
    split
    · exact .inr ⟨missing.1,ensureUnknown_users⟩
    · exact .inl rfl
  · exact .inl rfl

theorem accountFlow_kept (kept : Kept dropped lost visited (fun _ => 0) g b) (fair : Fair parsesIp data sample) :
    Kept dropped (lost || (accountFlowEvicts parsesIp data sample g b).any Eviction.strands) visited (fun _ => 0)
      (accountFlow parsesIp data sample g b).1 (accountFlow parsesIp data sample g b).2 := by
  have opened : Kept dropped (lost || (openUserEvicts g b (UserKey.of data) (Sample.nonzero sample)).any Eviction.strands) (UserKey.of data)
      (fun _ => 0) (openUser g b (UserKey.of data) (Sample.nonzero sample)).1
      (openUser g b (UserKey.of data) (Sample.nonzero sample)).2 := openUser_kept kept.settled
  unfold accountFlow accountFlowEvicts
  dsimp only
  rw [List.any_append,← Bool.or_assoc]
  generalize (lost || (openUserEvicts g b (UserKey.of data) (Sample.nonzero sample)).any Eviction.strands) = lost at opened ⊢
  generalize openUser g b (UserKey.of data) (Sample.nonzero sample) = world at opened ⊢
  obtain ⟨g',b'⟩ := world
  dsimp only at opened ⊢
  by_cases there : (b'.users[UserKey.of data]?).isSome
  · rw [if_pos there,if_pos there]
    have whole : (fun side : Side => portionSum side (portions parsesIp data sample)) = fun side => side.of sample.up sample.down :=
      funext fair.whole
    have credited : Kept dropped lost (UserKey.of data) (fun side => portionSum side (portions parsesIp data sample))
        (creditUser g' b' (UserKey.of data) sample.up sample.down sample.started (Sample.nonzero sample)).1
        (creditUser g' b' (UserKey.of data) sample.up sample.down sample.started (Sample.nonzero sample)).2 := by
      rw [whole]
      exact creditUser_kept opened there
    refine (identify_kept (addDomains_kept credited (fun p member => portions_user member) ?_)).settled
    obtain ⟨row,held⟩ := Option.isSome_iff_exists.mp there
    unfold creditUser
    rw [held]
    simp
  · rw [if_neg there,if_neg there,List.any_nil,Bool.or_false]
    have missing : b'.users[UserKey.of data]? = none := by simpa using there
    have turned : Kept dropped lost (UserKey.of data) (fun _ => 0)
        (creditUser g' b' (UserKey.of data) sample.up sample.down sample.started (Sample.nonzero sample)).1
        (creditUser g' b' (UserKey.of data) sample.up sample.down sample.started (Sample.nonzero sample)).2 := by
      unfold creditUser
      rw [missing]
      dsimp only
      split
      · exact (opened.drop (fun _ => Nat.le_refl 0)).gauge rfl
      · exact opened
    exact (identify_kept turned).settled

/-- No row has more bytes of known domains than bytes. -/
def Bounded (b : MinuteBucket) : Prop := ∀ (user : UserKey) (row : TrafficAnalysisUserMinute) (side : Side),
  b.users[user]? = some row → side.identified row ≤ side.user row

theorem accountFlow_bounded (bounded : Bounded b) (fair : Fair parsesIp data sample) : Bounded (accountFlow parsesIp data sample g b).2 := by
  have opened : Bounded (openUser g b (UserKey.of data) (Sample.nonzero sample)).2 := by
    intro user row side there
    rcases @openUser_users (UserKey.of data) g b (Sample.nonzero sample) with same | ⟨_,inserted⟩
    · rw [same] at there
      exact bounded user row side there
    · rw [inserted,lookup_insert] at there
      split at there
      · cases there
        cases side <;> exact Nat.le_refl 0
      · exact bounded user row side there
  unfold accountFlow
  dsimp only
  generalize openUser g b (UserKey.of data) (Sample.nonzero sample) = world at opened ⊢
  obtain ⟨g',b'⟩ := world
  dsimp only at opened ⊢
  cases held : b'.users[UserKey.of data]? with
  | none =>
    have credited : creditUser g' b' (UserKey.of data) sample.up sample.down sample.started (Sample.nonzero sample) =
        (if Sample.nonzero sample then ({ g' with droppedEntries := g'.droppedEntries + 1 }.reason .budget,b') else (g',b')) := by
      unfold creditUser
      rw [held]
    have unchanged : (creditUser g' b' (UserKey.of data) sample.up sample.down sample.started (Sample.nonzero sample)).2 = b' := by
      rw [credited]
      split <;> rfl
    rw [if_neg (by simp),unchanged]
    unfold identify
    rw [held]
    exact opened
  | some row =>
    have credited : creditUser g' b' (UserKey.of data) sample.up sample.down sample.started (Sample.nonzero sample) =
        (g',{ b' with users := b'.users.insert (UserKey.of data) (TrafficAnalysisUserMinute.plus row sample.up sample.down sample.started) }) := by
      unfold creditUser
      rw [held]
    rw [if_pos (by simp),credited]
    have users := @addDomains_users (portions parsesIp data sample) (g',{ b' with
      users := b'.users.insert (UserKey.of data) (TrafficAnalysisUserMinute.plus row sample.up sample.down sample.started) })
    unfold addDomains at users
    dsimp only at users ⊢
    have found : ((portions parsesIp data sample).foldl (fun world p => addDomain p.key p.up p.down p.started world) (g',{ b' with
        users := b'.users.insert (UserKey.of data) (TrafficAnalysisUserMinute.plus row sample.up sample.down sample.started) })).2.users[UserKey.of data]? =
        some (TrafficAnalysisUserMinute.plus row sample.up sample.down sample.started) := by
      rw [users,lookup_insert,if_pos rfl]
    intro user current side there
    unfold identify at there
    rw [found] at there
    dsimp only at there
    rw [lookup_insert,users] at there
    split at there
    · have before := opened (UserKey.of data) row side held
      have named := fair.named side
      cases there
      cases side
      · change row.identifiedUplinkBytes + (identified parsesIp data sample).up ≤ row.uplinkBytes + sample.up
        exact Nat.add_le_add before named
      · change row.identifiedDownlinkBytes + (identified parsesIp data sample).down ≤ row.downlinkBytes + sample.down
        exact Nat.add_le_add before named
    · next other =>
      rw [lookup_insert,if_neg other] at there
      exact opened user current side there

/-! ### What a visit does to the rows of the users -/

/-- The bytes in the row of a user. -/
def rowBytes (side : Side) (user : UserKey) (b : MinuteBucket) : Nat := (b.users[user]?).elim 0 side.user

theorem evict_dropped {known : List DomainKey} : (evict key g b known).2.1.droppedEntries = g.droppedEntries := by
  induction known with
  | nil => rfl
  | cons oldKey rest ih =>
    unfold evict
    cases b.domains[oldKey]? with
    | none => exact ih
    | some old => rfl

theorem ensureUnknown_dropped : (ensureUnknown g b user).2.1.droppedEntries = g.droppedEntries := by
  unfold ensureUnknown
  dsimp only
  split
  · rfl
  · split
    · exact evict_dropped
    · have reserved := reserve_dropped g DOMAIN_COST
      rcases attempt : g.reserve DOMAIN_COST with ⟨succeeded,g'⟩
      rw [attempt] at reserved
      cases succeeded with
      | true => exact reserved
      | false => exact evict_dropped.trans reserved

theorem placeDomain_dropped : (placeDomain g b key).2.1.droppedEntries = g.droppedEntries := by
  unfold placeDomain
  split
  · split
    · rfl
    · have reserved := reserve_dropped g DOMAIN_COST
      rcases attempt : g.reserve DOMAIN_COST with ⟨succeeded,g'⟩
      rw [attempt] at reserved
      cases succeeded with
      | true => exact reserved
      | false => exact reserved
  · rfl

theorem addDomain_dropped {world : Gauge × MinuteBucket} :
    world.1.droppedEntries ≤ (addDomain key up down started world).1.droppedEntries := by
  have placed := @placeDomain_dropped key world.1 world.2
  unfold addDomain
  dsimp only
  split
  · exact Nat.le_refl _
  · split
    · exact Nat.le_of_eq placed.symm
    · have ensured := @ensureUnknown_dropped (placeDomain world.1 world.2 key).1.user (placeDomain world.1 world.2 key).2.1
        (placeDomain world.1 world.2 key).2.2
      split
      · next attempt =>
        rw [attempt] at ensured
        exact Nat.le_of_eq (ensured.trans placed).symm
      · next attempt =>
        rw [attempt] at ensured
        exact Nat.le_succ_of_le (Nat.le_of_eq (ensured.trans placed).symm)

theorem addDomains_dropped {parts : List Portion} {world : Gauge × MinuteBucket} :
    world.1.droppedEntries ≤ (addDomains parts world).1.droppedEntries := by
  induction parts generalizing world with
  | nil => exact Nat.le_refl _
  | cons p rest ih => exact Nat.le_trans addDomain_dropped (@ih (addDomain p.key p.up p.down p.started world))

theorem openUser_dropped {nonzero : Bool} : (openUser g b user nonzero).1.droppedEntries = g.droppedEntries := by
  unfold openUser
  split
  · have reserved := reserve_dropped g USER_COST
    rcases attempt : g.reserve USER_COST with ⟨succeeded,g'⟩
    rw [attempt] at reserved
    cases succeeded with
    | true => exact ensureUnknown_dropped.trans reserved
    | false => exact reserved
  · rfl

/-- A new row has no bytes. -/
theorem openUser_rowBytes {nonzero : Bool} {other : UserKey} : rowBytes side other (openUser g b user nonzero).2 = rowBytes side other b := by
  unfold rowBytes
  rcases @openUser_users user g b nonzero with same | ⟨missing,inserted⟩
  · rw [same]
  · rw [inserted,lookup_insert]
    split
    · next own =>
      rw [← own,missing]
      exact userRow_empty
    · rfl

theorem identify_rowBytes {other : UserKey} : rowBytes side other (identify b user up down) = rowBytes side other b := by
  unfold identify rowBytes
  cases held : b.users[user]? with
  | none => rfl
  | some row =>
    dsimp only
    rw [lookup_insert]
    split
    · next own =>
      rw [← own,held]
      cases side <;> rfl
    · rfl

theorem identify_isSome {other : UserKey} : ((identify b user up down).users[other]?).isSome = (b.users[other]?).isSome := by
  unfold identify
  cases held : b.users[user]? with
  | none => rfl
  | some row =>
    dsimp only
    rw [lookup_insert]
    split
    · next own =>
      rw [← own,held]
      rfl
    · rfl

/-- All bytes of a visit go to the row of its user, unless it has none afterwards. -/
theorem accountFlow_rows : ∀ (user : UserKey) (side : Side), rowBytes side user (accountFlow parsesIp data sample g b).2 =
    rowBytes side user b + (if user = UserKey.of data ∧ ((accountFlow parsesIp data sample g b).2.users[UserKey.of data]?).isSome then
      side.of sample.up sample.down else 0) := by
  intro user side
  rw [← @openUser_rowBytes side (UserKey.of data) g b (Sample.nonzero sample) user]
  unfold accountFlow
  dsimp only
  rw [identify_rowBytes,identify_isSome]
  generalize openUser g b (UserKey.of data) (Sample.nonzero sample) = world
  obtain ⟨g',b'⟩ := world
  cases held : b'.users[UserKey.of data]? with
  | none =>
    have unchanged : (creditUser g' b' (UserKey.of data) sample.up sample.down sample.started (Sample.nonzero sample)).2 = b' := by
      unfold creditUser
      rw [held]
      dsimp only
      split <;> rfl
    rw [if_neg (by simp),unchanged,held]
    simp
  | some row =>
    have credited : creditUser g' b' (UserKey.of data) sample.up sample.down sample.started (Sample.nonzero sample) =
        (g',{ b' with users := b'.users.insert (UserKey.of data) (TrafficAnalysisUserMinute.plus row sample.up sample.down sample.started) }) := by
      unfold creditUser
      rw [held]
    rw [if_pos (by simp),credited]
    have users := @addDomains_users (portions parsesIp data sample) (g',{ b' with
      users := b'.users.insert (UserKey.of data) (TrafficAnalysisUserMinute.plus row sample.up sample.down sample.started) })
    unfold addDomains at users
    unfold rowBytes
    rw [users]
    dsimp only
    rw [lookup_insert,lookup_insert,if_pos rfl]
    by_cases own : UserKey.of data = user
    · rw [if_pos own,← own,held]
      cases side <;> simp [Side.user,Side.of,TrafficAnalysisUserMinute.plus]
    · rw [if_neg own,if_neg (fun both => own both.1.symm),Nat.add_zero]

/-- Entries are only ever added to the dropped ones, and a visit that brought something and
    found no row is. -/
theorem accountFlow_dropped : g.droppedEntries + (!((accountFlow parsesIp data sample g b).2.users[UserKey.of data]?).isSome &&
      Sample.nonzero sample).toNat ≤ (accountFlow parsesIp data sample g b).1.droppedEntries := by
  rw [← @openUser_dropped (UserKey.of data) g b (Sample.nonzero sample)]
  unfold accountFlow
  dsimp only
  rw [identify_isSome]
  generalize openUser g b (UserKey.of data) (Sample.nonzero sample) = world
  obtain ⟨g',b'⟩ := world
  cases held : b'.users[UserKey.of data]? with
  | none =>
    rw [if_neg (show ¬((none : Option TrafficAnalysisUserMinute).isSome = true) by simp)]
    unfold creditUser
    rw [held]
    cases Sample.nonzero sample with
    | true => simp [held]
    | false => simp
  | some row =>
    have credited : creditUser g' b' (UserKey.of data) sample.up sample.down sample.started (Sample.nonzero sample) =
        (g',{ b' with users := b'.users.insert (UserKey.of data) (TrafficAnalysisUserMinute.plus row sample.up sample.down sample.started) }) := by
      unfold creditUser
      rw [held]
    rw [if_pos (by simp),credited]
    have users := @addDomains_users (portions parsesIp data sample) (g',{ b' with
      users := b'.users.insert (UserKey.of data) (TrafficAnalysisUserMinute.plus row sample.up sample.down sample.started) })
    have counted := @addDomains_dropped (portions parsesIp data sample) (g',{ b' with
      users := b'.users.insert (UserKey.of data) (TrafficAnalysisUserMinute.plus row sample.up sample.down sample.started) })
    unfold addDomains at users counted
    rw [users,lookup_insert,if_pos rfl]
    exact counted

end NodeAgent.AnalysisMinutes
