import NodeAgent.RegistryCoherence

/-!
Every sequence of registry mutations, accepted or rejected. The maps agree after
each, no index access fails, and a lookup answers exactly for the enabled users
that hold the presented credential (`registry_coherent`).
-/
namespace NodeAgent.RegistryRuns
open NodeAgent.Api NodeAgent.Credential NodeAgent.FiniteMap NodeAgent.Registry NodeAgent.RegistryCoherence
  NodeAgent.Transition

variable {d : Derivations} {r r' : MemoryUserRegistry}

inductive Event
  | upsert (spec : UserSpec)
  | remove (tag id : String)
  /-- A removal publishes the final snapshot of its generation. -/
  | complete (generation : Nat) (info : UserInfo)
  /-- A removal that has its snapshot clears the tombstone. -/
  | clear (generation : Nat)
  /-- Connections and metering leave these counters on a record. -/
  | activity (address : Nat) (tx rx observedAt : UInt64) (conns totalConns : Nat)

/-- `none` is a failed `expect`. -/
def step (d : Derivations) (r : MemoryUserRegistry) : Event → Option MemoryUserRegistry
  | .upsert spec => (upsert d r spec).map Prod.snd
  | .remove tag id => (beginRemove d r tag id).map Prod.snd
  | .complete generation info =>
    some { r with generations := r.generations.modify generation (fun tombstone => { tombstone with result := some info }) }
  | .clear generation => some (clearDrainingGeneration r generation)
  | .activity address tx rx observedAt conns totalConns =>
    some (modifyContext r address (fun context =>
      { context with tx := tx, rx := rx, lastTrafficObservedAtUnixMillis := observedAt, conns := conns, totalConns := totalConns }))

theorem indexed_new (d : Derivations) (kinds : CredentialKinds) : Indexed d (new kinds) := by
  have nobody (id : String) : (new kinds).users[id]? = none := by simp [new]
  refine ⟨?_,?_,?_,?_,?_,?_,?_,?_,?_,?_,?_⟩
  · intro k
    cases held : kinds.indexes k <;> simp [new,held]
  · cases held : kinds.anytlsPassword <;> simp [new,held]
  · intro k key entry
    rw [nobody]
    cases held : kinds.indexes k <;> simp [lookup,new,held]
  · intro id entry held; simp [nobody] at held
  · intro id entry k held; simp [nobody] at held
  · intro start
    have empty : (new kinds).users = ∅ := rfl
    rw [empty,count_empty]
    cases held : kinds.anytlsPassword <;> simp [prefixAt,new,held,nonzero]
  · intro id entry held; simp [nobody] at held
  · intro id entry held; simp [nobody] at held
  · intro id generation held; simp [new] at held
  · intro id entry held; simp [nobody] at held
  · intro id id' entry entry' held; simp [nobody] at held

theorem upsertLocked_ok {spec : UserSpec} {entry : Entry} {writes : List Write} (inv : Indexed d r)
    (planned : upsertLocked d r spec = .ok (entry,writes)) :
    spec.resolvedId = some entry.context.id ∧ Accepted r entry ∧
      writes = upsertWrites d r r.users[entry.context.id]? entry spec := by
  obtain ⟨valid,validated,same⟩ := except_bind_ok planned
  cases same
  obtain ⟨resolved,accepted⟩ := validate_ok inv validated
  exact ⟨resolved,accepted,rfl⟩

/-- The loop of `from_users` never fails an index access and keeps the maps in agreement. -/
theorem insertUsers_indexed (inv : Indexed d r) (users : List UserSpec) :
    ∃ result, insertUsers d r users = some result ∧ ∀ r', result = .ok r' → Indexed d r' := by
  induction users generalizing r with
  | nil => exact ⟨.ok r,rfl,fun r' same => by cases same; exact inv⟩
  | cons user rest ih =>
    unfold insertUsers
    split
    · exact ⟨_,rfl,fun r' same => by cases same⟩
    split
    · exact ⟨_,rfl,fun r' same => by cases same⟩
    split
    · exact ⟨_,rfl,fun r' same => by cases same⟩
    · next entry writes planned =>
      obtain ⟨_,accepted,rfl⟩ := upsertLocked_ok inv planned
      obtain ⟨middle,ran⟩ := upsert_total inv user accepted
      obtain ⟨result,done,kept⟩ := ih (indexed_upsert inv accepted ran)
      exact ⟨result,by rw [ran,Option.bind_some,done],kept⟩

/-- `from_users` builds a coherent registry or reports an error. -/
theorem fromUsers_coherent (d : Derivations) (kinds : CredentialKinds) (users : List UserSpec) :
    ∃ result, fromUsers d kinds users = some result ∧ ∀ r, result = .ok r → Coherent d r := by
  obtain ⟨result,done,kept⟩ := insertUsers_indexed (indexed_new d kinds) users
  unfold fromUsers
  rw [done]
  cases result with
  | error error => exact ⟨_,rfl,fun r same => by cases same⟩
  | ok built =>
    refine ⟨_,rfl,fun r same => ?_⟩
    cases same
    exact coherent_republish (kept built rfl) rfl

/-- An upsert ends with a coherent registry; a rejected one changed nothing. -/
theorem upsert_spec (inv : Coherent d r) (spec : UserSpec) :
    ∃ result r', upsert d r spec = some (result,r') ∧ Coherent d r' ∧ ∀ error, result = .error error → r' = r := by
  unfold upsert
  split
  · exact ⟨_,_,rfl,inv,fun _ _ => rfl⟩
  · next entry writes planned =>
    obtain ⟨_,accepted,rfl⟩ := upsertLocked_ok inv.toIndexed planned
    obtain ⟨middle,ran⟩ := upsert_total inv.toIndexed spec accepted
    have indexed := indexed_upsert inv.toIndexed accepted ran
    have republished : ∃ r', run d middle [.republishVmess] = some r' := ⟨_,rfl⟩
    obtain ⟨r',last⟩ := republished
    have whole : run d r (upsertWrites d r r.users[entry.context.id]? entry spec ++ [.republishVmess]) = some r' := by
      rw [run_append,ran,Option.bind_some,last]
    exact ⟨_,r',by rw [whole]; rfl,coherent_republish indexed last,fun error same => by cases same⟩

/-- A removal ends its locked part with a coherent registry; an unknown user changes
    nothing. -/
theorem beginRemove_spec (inv : Coherent d r) (tag id : String) :
    ∃ result r', beginRemove d r tag id = some (result,r') ∧ Coherent d r' ∧ ∀ error, result = .error error → r' = r := by
  unfold beginRemove
  split
  · next entry held =>
    obtain ⟨r',ran⟩ := retirement_total inv.toIndexed held
    exact ⟨_,r',by rw [ran]; rfl,coherent_retirement inv.toIndexed held ran,fun error same => by cases same⟩
  · split
    · exact ⟨_,r,rfl,inv,fun _ _ => rfl⟩
    · exact ⟨_,r,rfl,inv,fun _ _ => rfl⟩

theorem coherent_clear (inv : Coherent d r) (generation : Nat) : Coherent d (clearDrainingGeneration r generation) := by
  unfold clearDrainingGeneration
  split
  · next tombstone found =>
    split
    · next current =>
      refine ⟨⟨inv.allocated,inv.prefixAllocated,inv.indexed,inv.named,inv.usable,inv.prefixes,inv.derived,?_,?_,
        inv.recorded,inv.separate⟩,inv.candidates⟩
      · intro id entry held
        rw [lookup_erase]
        split
        · rfl
        · exact inv.disjoint id entry held
      · intro id other held
        rw [lookup_erase] at held
        split at held
        · cases held
        · exact inv.tombstoned id other held
    · exact inv
  · exact inv

/-- Record counters are no part of the agreement. -/
theorem coherent_modifyContext (inv : Coherent d r) (address : Nat) (change : UserContext → UserContext) :
    Coherent d (modifyContext r address change) := by
  refine ⟨⟨inv.allocated,inv.prefixAllocated,inv.indexed,inv.named,inv.usable,inv.prefixes,inv.derived,inv.disjoint,
    inv.tombstoned,?_,inv.separate⟩,inv.candidates⟩
  intro id entry held
  simpa [modifyContext] using inv.recorded id entry held

theorem coherent_complete (inv : Coherent d r) (generation : Nat) (result : Option UserInfo) :
    Coherent d { r with generations := r.generations.modify generation (fun tombstone => { tombstone with result := result }) } := by
  refine ⟨⟨inv.allocated,inv.prefixAllocated,inv.indexed,inv.named,inv.usable,inv.prefixes,inv.derived,inv.disjoint,?_,
    inv.recorded,inv.separate⟩,inv.candidates⟩
  intro id other held
  obtain ⟨tombstone,found,named⟩ := inv.tombstoned id other held
  by_cases same : generation = other
  · subst same
    exact ⟨{ tombstone with result := result },by simp [found],named⟩
  · exact ⟨tombstone,by simp [same,found],named⟩

/-- No step fails, and every step keeps the maps in agreement. -/
theorem step_coherent (inv : Coherent d r) (event : Event) : ∃ r', step d r event = some r' ∧ Coherent d r' := by
  cases event with
  | upsert spec =>
    obtain ⟨result,r',done,kept,_⟩ := upsert_spec inv spec
    exact ⟨r',by simp [step,done],kept⟩
  | remove tag id =>
    obtain ⟨result,r',done,kept,_⟩ := beginRemove_spec inv tag id
    exact ⟨r',by simp [step,done],kept⟩
  | complete generation info => exact ⟨_,rfl,coherent_complete inv generation (some info)⟩
  | clear generation => exact ⟨_,rfl,coherent_clear inv generation⟩
  | activity address tx rx observedAt conns totalConns => exact ⟨_,rfl,coherent_modifyContext inv address _⟩

/-! ### Lookups -/

/-- An enabled user of the table. -/
def EnabledUser (r : MemoryUserRegistry) (entry : Entry) : Prop :=
  r.users[entry.context.id]? = some entry ∧ isEnabled r entry.context

/-- Each lookup answers exactly for the enabled users that hold what is presented. -/
structure LookupsExact (d : Derivations) (r : MemoryUserRegistry) : Prop where
  uuid : ∀ uuid context, findUuid r uuid = some context ↔
    ∃ entry, EnabledUser r entry ∧ entry.context = context ∧ entry.uuid = some uuid
  trojan : ∀ hash context, findTrojanHash r hash = some context ↔
    ∃ entry, EnabledUser r entry ∧ entry.context = context ∧ entry.trojanHash = some hash
  password : ∀ password context, findPassword r password = some context ↔
    ∃ entry, EnabledUser r entry ∧ entry.context = context ∧ entry.password = some password
  shadowsocks : ∀ hash context psk, findShadowsocksPskHash r hash = some (context,psk) ↔
    ∃ entry, EnabledUser r entry ∧ entry.context = context ∧ entry.shadowsocks = some ⟨hash,psk⟩
  tuic : ∀ uuid context password, findTuicUuid r uuid = some (context,password) ↔
    ∃ entry, EnabledUser r entry ∧ entry.context = context ∧ entry.uuid = some uuid ∧ entry.tuicPassword = some password
  anytls : ∀ hash context, findPasswordSha256 r hash = some context ↔
    ∃ entry, EnabledUser r entry ∧ entry.context = context ∧ entry.anytlsHash = some hash
  anytlsPrefix : ∀ start, hasPasswordSha256Prefix r start = true ↔
    ∃ entry, r.users[entry.context.id]? = some entry ∧ startsWith d start entry
  naive : ∀ encoded context, findNaiveBasic r encoded = some context ↔
    ∃ entry, EnabledUser r entry ∧ entry.context = context ∧ entry.naiveEncoded = some encoded
  /-- An auth id names no one user, so any user whose key opens it may be returned. -/
  vmess : ∀ authId, ((findVmessAuthId d r authId).isSome ↔
      ∃ entry uuid, EnabledUser r entry ∧ entry.uuid = some uuid ∧ (d.vmessOpen uuid authId).isSome) ∧
    ∀ context key timestamp, findVmessAuthId d r authId = some (context,key,timestamp) →
      ∃ entry uuid, EnabledUser r entry ∧ entry.context = context ∧ entry.uuid = some uuid ∧
        d.vmessOpen uuid authId = some timestamp ∧ key = d.vmessInstructionKey uuid

theorem find_exact (inv : Indexed d r) (k : Kind) (presented : k.Key) (context : ContextRef) :
    find r k presented = some context ↔
      ∃ entry, EnabledUser r entry ∧ entry.context = context ∧ entry.key k = some presented := by
  unfold find
  simp only [Option.bind_eq_bind,Option.bind_eq_some_iff,accept]
  constructor
  · rintro ⟨entry,led,expected,carries,accepted⟩
    split at accepted
    · cases accepted
    next confirmed =>
    cases accepted
    simp only [not_or,not_not,Bool.not_eq_true,Bool.not_eq_false'] at confirmed
    obtain ⟨held,carried⟩ := (inv.indexed k presented entry).mp led
    exact ⟨entry,⟨held,by simpa using confirmed.2⟩,rfl,carried⟩
  · rintro ⟨entry,⟨held,enabled⟩,rfl,carries⟩
    exact ⟨entry,(inv.indexed k presented entry).mpr ⟨held,carries⟩,presented,carries,by simp [enabled]⟩

theorem findShadowsocksPskHash_exact (inv : Indexed d r) (hash : Bytes) (context : ContextRef) (psk : Bytes) :
    findShadowsocksPskHash r hash = some (context,psk) ↔
      ∃ entry, EnabledUser r entry ∧ entry.context = context ∧ entry.shadowsocks = some ⟨hash,psk⟩ := by
  unfold findShadowsocksPskHash
  simp only [Option.bind_eq_bind,Option.bind_eq_some_iff]
  constructor
  · rintro ⟨entry,led,credential,carries,accepted⟩
    split at accepted
    · cases accepted
    next confirmed =>
    cases accepted
    simp only [not_or,not_not] at confirmed
    obtain ⟨held,_⟩ := (inv.indexed .psk hash entry).mp led
    refine ⟨entry,⟨held,by simpa using confirmed.2⟩,rfl,?_⟩
    rw [carries,← confirmed.1]
  · rintro ⟨entry,⟨held,enabled⟩,rfl,carries⟩
    have key : entry.key .psk = some hash := by simp [Entry.key,Credentials.key,carries]
    exact ⟨entry,(inv.indexed .psk hash entry).mpr ⟨held,key⟩,_,carries,by simp [enabled]⟩

theorem findTuicUuid_exact (inv : Indexed d r) (uuid : Bytes) (context : ContextRef) (password : String) :
    findTuicUuid r uuid = some (context,password) ↔
      ∃ entry, EnabledUser r entry ∧ entry.context = context ∧ entry.uuid = some uuid ∧
        entry.tuicPassword = some password := by
  unfold findTuicUuid
  simp only [Option.bind_eq_bind,Option.bind_eq_some_iff]
  constructor
  · rintro ⟨entry,led,secret,keyed,expected,carries,accepted⟩
    split at accepted
    · cases accepted
    next confirmed =>
    cases accepted
    simp only [not_or,not_not] at confirmed
    obtain ⟨held,carried⟩ := (inv.indexed .uuid uuid entry).mp led
    exact ⟨entry,⟨held,by simpa using confirmed.2⟩,rfl,carried,keyed⟩
  · rintro ⟨entry,⟨held,enabled⟩,rfl,carries,keyed⟩
    exact ⟨entry,(inv.indexed .uuid uuid entry).mpr ⟨held,carries⟩,password,keyed,uuid,carries,by simp [enabled]⟩

theorem hasPrefix_exact (inv : Indexed d r) (start : Bytes) :
    hasPasswordSha256Prefix r start = true ↔ ∃ entry, r.users[entry.context.id]? = some entry ∧ startsWith d start entry := by
  have counted := inv.prefixes start
  have held : hasPasswordSha256Prefix r start = true ↔ 0 < count (startsWith d start) r.users := by
    change (prefixAt r start).isSome = true ↔ _
    rw [counted,nonzero,Nat.pos_iff_ne_zero]
    split <;> simp_all
  rw [held,count_pos]
  constructor
  · rintro ⟨id,entry,there,starts⟩
    exact ⟨entry,by rw [inv.named id entry there]; exact there,starts⟩
  · rintro ⟨entry,there,starts⟩
    exact ⟨_,entry,there,starts⟩

theorem findVmessAuthId_sound (inv : Coherent d r) {authId : Bytes} {context : ContextRef} {key : Bytes}
    {timestamp : UInt64} (found : findVmessAuthId d r authId = some (context,key,timestamp)) :
    ∃ entry uuid, EnabledUser r entry ∧ entry.context = context ∧ entry.uuid = some uuid ∧
      d.vmessOpen uuid authId = some timestamp ∧ key = d.vmessInstructionKey uuid := by
  obtain ⟨entry,member,accepted⟩ := List.exists_of_findSome?_eq_some found
  obtain ⟨held,_⟩ := (inv.candidates entry).mp member
  unfold acceptVmess at accepted
  simp only [Option.bind_eq_bind,Option.bind_eq_some_iff] at accepted
  obtain ⟨uuid,derived,opened,opens,accepted⟩ := accepted
  split at accepted
  · cases accepted
  next enabled =>
  cases accepted
  rw [inv.derived _ entry held] at derived
  exact ⟨entry,uuid,⟨held,by simpa using enabled⟩,rfl,derived,opens,rfl⟩

theorem findVmessAuthId_isSome (inv : Coherent d r) (authId : Bytes) :
    (findVmessAuthId d r authId).isSome ↔
      ∃ entry uuid, EnabledUser r entry ∧ entry.uuid = some uuid ∧ (d.vmessOpen uuid authId).isSome := by
  constructor
  · intro found
    obtain ⟨⟨context,key,timestamp⟩,found⟩ := Option.isSome_iff_exists.mp found
    obtain ⟨entry,uuid,user,_,carries,opens,_⟩ := findVmessAuthId_sound inv found
    exact ⟨entry,uuid,user,carries,by simp [opens]⟩
  · rintro ⟨entry,uuid,⟨held,enabled⟩,carries,opens⟩
    have member := (inv.candidates entry).mpr ⟨held,by simp [carries]⟩
    obtain ⟨timestamp,opens⟩ := Option.isSome_iff_exists.mp opens
    have derived : entry.vmess = some uuid := by rw [inv.derived _ entry held,carries]
    have accepted : acceptVmess d r authId entry = some (entry.context,d.vmessInstructionKey uuid,timestamp) := by
      simp [acceptVmess,derived,opens,enabled]
    exact List.findSome?_isSome_iff.mpr ⟨entry,member,by simp [accepted]⟩

theorem lookupsExact (inv : Coherent d r) : LookupsExact d r where
  uuid := find_exact inv.toIndexed .uuid
  trojan := find_exact inv.toIndexed .trojan
  password := find_exact inv.toIndexed .password
  shadowsocks := findShadowsocksPskHash_exact inv.toIndexed
  tuic := findTuicUuid_exact inv.toIndexed
  anytls := find_exact inv.toIndexed .anytls
  anytlsPrefix := hasPrefix_exact inv.toIndexed
  naive := find_exact inv.toIndexed .naive
  vmess := fun authId =>
    ⟨findVmessAuthId_isSome inv authId,fun _ _ _ found => findVmessAuthId_sound inv found⟩

/-- After every sequence of mutations the maps agree, lookups are exact, a rejected
    upsert changes nothing, and no index access fails. -/
theorem registry_coherent (d : Derivations) (kinds : CredentialKinds) (users : List UserSpec) :
    (∃ built, fromUsers d kinds users = some built) ∧
    ∀ start events r, fromUsers d kinds users = some (.ok start) → Run (step d) start events r →
      Coherent d r ∧ LookupsExact d r ∧
      (∀ spec error r', upsert d r spec = some (.error error,r') → r' = r) ∧
      (∀ event, ∃ r', step d r event = some r') := by
  obtain ⟨built,done,kept⟩ := fromUsers_coherent d kinds users
  refine ⟨⟨built,done⟩,fun start events r started run => ?_⟩
  rw [done,Option.some.injEq] at started
  have inv : Coherent d r := by
    refine run.invariant (kept start started) (fun s e s' before taken => ?_)
    obtain ⟨s'',same,after⟩ := step_coherent before e
    rw [same,Option.some.injEq] at taken
    exact taken ▸ after
  refine ⟨inv,lookupsExact inv,?_,?_⟩
  · intro spec error r' rejected
    obtain ⟨result,r'',same,_,unchanged⟩ := upsert_spec inv spec
    rw [same] at rejected
    cases rejected
    exact unchanged error rfl
  · intro event
    obtain ⟨r',taken,_⟩ := step_coherent inv event
    exact ⟨r',taken⟩

/-! ### A registry of cleartext passwords -/

/-- The kinds of a Hysteria2 inbound. -/
def plainPassword : CredentialKinds := ⟨false,false,true,.none,false,false,false⟩

/-- Derivations for a registry that indexes passwords as sent, where none is called. -/
def underived : Derivations where
  parseUuid _ := .error "not a uuid"
  decodeShadowsocksPsk _ := .error "not a psk"
  shadowsocksPskHash psk := psk
  trojanPasswordHash _ := []
  passwordSha256 _ := []
  passwordSha256Prefix hash := hash.take 8
  naiveBasicCredential _ _ := []
  vmessOpen _ _ := none
  vmessInstructionKey uuid := uuid

def passwordUser (id password : String) : UserSpec := ⟨some id,none,some password,true,none,none,none⟩

/-- A registry that could be built. -/
theorem fromUsers_of_toOption {d : Derivations} {kinds : CredentialKinds} {users : List UserSpec} {r : MemoryUserRegistry}
    (built : (fromUsers d kinds users).bind Except.toOption = some r) : fromUsers d kinds users = some (.ok r) := by
  obtain ⟨result,done,ok⟩ := Option.bind_eq_some_iff.mp built
  rw [done]
  cases result with
  | error error => cases ok
  | ok start =>
    cases ok
    rfl

theorem registry_coherent_two_users :
    ∃ start r, fromUsers underived plainPassword [passwordUser "alice" "secret"] = some (.ok start) ∧
      Run (step underived) start [.upsert (passwordUser "bob" "hidden"),.remove "in" "alice"] r ∧
      Coherent underived r ∧ LookupsExact underived r := by
  have built : ((fromUsers underived plainPassword [passwordUser "alice" "secret"]).bind Except.toOption).isSome = true := by
    decide
  obtain ⟨start,built⟩ := Option.isSome_iff_exists.mp built
  have done := fromUsers_of_toOption built
  obtain ⟨-,every⟩ := registry_coherent underived plainPassword [passwordUser "alice" "secret"]
  obtain ⟨_,_,_,total⟩ := every start [] start done .nil
  obtain ⟨second,added⟩ := total (.upsert (passwordUser "bob" "hidden"))
  obtain ⟨_,_,_,total⟩ := every start _ second done (.snoc .nil added)
  obtain ⟨r,removed⟩ := total (.remove "in" "alice")
  have run : Run (step underived) start [.upsert (passwordUser "bob" "hidden"),.remove "in" "alice"] r :=
    .snoc (.snoc .nil added) removed
  obtain ⟨coherent,exact_,_,_⟩ := every start _ r done run
  exact ⟨start,r,done,run,coherent,exact_⟩

end NodeAgent.RegistryRuns
