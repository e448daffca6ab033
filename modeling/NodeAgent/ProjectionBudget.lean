import NodeAgent.ProjectionImages

/-!
Projections that share caches and a budget. Every cache holds what a computation without it
would give, so that the order of the calls cannot be seen in their results, and a call fails
exactly when what it is billed for does not fit into the ledger of the configuration.
-/
namespace NodeAgent.ClientChains
open NodeAgent.Api NodeAgent.Json NodeAgent.FiniteMap NodeAgent.OutboundAdapter NodeAgent.Outbounds NodeAgent.Fallible

variable {ext : Externals} {catalog : Catalog} {o p t : ValidatedOutbound} {α β : Type}

/-! ### The ledger -/

/-- More hops or bytes than a configuration may have. -/
def CompileError.isProjection : CompileError → Bool
  | .projection _ _ _ => true
  | _ => false

/-- What a configuration has been charged for: hops and bytes, and the URLTests that it runs. -/
structure Ledger where
  used : ClientChainProjectionCost
  groups : Map Nat CachedUrltestAction
  candidates : Nat

/-- What one projection is charged for. A URLTest is measured once for all its uses. -/
inductive Bill
  | plain (cost : ClientChainProjectionCost)
  | urltest (id : Nat) (sample : CachedUrltestAction)

def Ledger.fits (l : Ledger) (cost : ClientChainProjectionCost) : Prop :=
  l.used.hops + cost.hops ≤ MAX_PROJECTED_CLIENT_CHAIN_HOPS ∧ l.used.bytes + cost.bytes ≤ MAX_PROJECTED_CLIENT_CHAIN_BYTES

def Ledger.charge (l : Ledger) (cost : ClientChainProjectionCost) : Ledger :=
  { l with used := ⟨l.used.hops + cost.hops,l.used.bytes + cost.bytes⟩ }

def Ledger.enrol (l : Ledger) (id : Nat) (sample : CachedUrltestAction) : Ledger :=
  { l with groups := l.groups.insert id sample, candidates := l.candidates + probes sample }

def Ledger.admits (l : Ledger) : Bill → Prop
  | .plain cost => l.fits cost
  | .urltest id sample => l.fits sample.cost ∧ ((l.groups[id]?).isSome ∨
      l.groups.size < MAX_PROJECTED_URLTEST_GROUPS ∧ l.candidates + probes sample ≤ MAX_PROJECTED_URLTEST_CANDIDATES)

def Ledger.settle (l : Ledger) : Bill → Ledger
  | .plain cost => l.charge cost
  | .urltest id sample => if (l.groups[id]?).isSome then l.charge sample.cost else (l.charge sample.cost).enrol id sample

/-- The ledger of a budget. -/
def ClientChainProjectionBudget.ledger (budget : ClientChainProjectionBudget) : Ledger :=
  ⟨budget.used,budget.urltestSamples,budget.urltestCandidates⟩

theorem ensureCanReserve_spec {b : ClientChainProjectionBudget} {cost : ClientChainProjectionCost} {context : String} :
    Ensures (ensureCanReserve cost context) b (Outcome (fun _ b' => b' = b ∧ b.ledger.fits cost)
      (fun e b' => b' = b ∧ e.isLimit ∧ ¬ b.ledger.fits cost)) := by
  refine Ensures.look_bind ?_
  dsimp only
  split
  · next exceeded =>
    refine ⟨rfl,rfl,?_⟩
    rintro ⟨few,small⟩
    dsimp only [ClientChainProjectionBudget.ledger] at few small
    omega
  · next within =>
    refine ⟨rfl,?_,?_⟩
    · exact Nat.le_of_not_lt (fun exceeded => within (.inl exceeded))
    · exact Nat.le_of_not_lt (fun exceeded => within (.inr exceeded))

theorem reserve_spec {b : ClientChainProjectionBudget} {cost : ClientChainProjectionCost} {context : String} :
    Ensures (reserve cost context) b (Outcome (fun _ b' => b' = { b with used := (b.ledger.charge cost).used } ∧ b.ledger.fits cost)
      (fun e b' => b' = b ∧ e.isLimit ∧ ¬ b.ledger.fits cost)) := by
  refine Ensures.bind ensureCanReserve_spec ?_ (fun _ _ failed => failed)
  rintro _ b' ⟨rfl,fits⟩
  exact ⟨rfl,fits⟩

variable (ext catalog) in
/-- What the projection of an outbound gives and what it is billed for. -/
inductive Projects (o : ValidatedOutbound) : CompiledOutboundAction → Bill → Prop
  | plain {t : ValidatedOutbound} {hops : List Value} (ends : Terminal ext catalog o t) (kind : t.kind ≠ .urltest) (chain : ChainOf ext catalog o hops) :
      Projects o ⟨clientChains [hops],none⟩ (.plain ((projectionOf ext hops).cost 0))
  | urltest {t : ValidatedOutbound} {sample : CachedUrltestAction} (ends : Terminal ext catalog o t) (kind : t.kind = .urltest)
      (image : UrltestImage ext catalog t sample) : Projects o sample.action (.urltest t.id sample)

theorem Projects.unique {action action' : CompiledOutboundAction} {bill bill' : Bill} (first : Projects ext catalog o action bill)
    (second : Projects ext catalog o action' bill') : action = action' ∧ bill = bill' := by
  cases first with
  | plain ends kind chain =>
    cases second with
    | plain _ _ chain' =>
      rw [chain.unique chain']
      exact ⟨rfl,rfl⟩
    | urltest ends' kind' _ =>
      cases ends.unique ends'
      exact absurd kind' kind
  | urltest ends kind image =>
    cases second with
    | plain ends' kind' _ =>
      cases ends.unique ends'
      exact absurd kind kind'
    | urltest ends' _ image' =>
      cases ends.unique ends'
      rw [image.unique image']
      exact ⟨rfl,rfl⟩

theorem exists_projection (acc : Accepted ext catalog) (known : Known catalog o) : ∃ action bill, Projects ext catalog o action bill := by
  obtain ⟨t,ends⟩ := exists_terminal acc _ o known (Nat.le_refl _)
  have known_t := ends.known acc known
  by_cases kind : t.kind = .urltest
  · obtain ⟨sample,image⟩ := exists_urltestImage acc known_t kind
    exact ⟨_,_,.urltest ends kind image⟩
  · obtain ⟨hops,chain⟩ := exists_chain acc known_t (plain_of_kind acc known_t ⟨ends.kind,kind⟩)
    exact ⟨_,_,.plain ends kind (ends.chain chain)⟩

/-! ### Caches -/

variable (ext catalog) in
/-- The caches hold what they stand for. -/
structure Valid (b : ClientChainProjectionBudget) : Prop where
  immediate : Cached ext catalog b.selectorImmediate
  adapter : Cached ext catalog b.adapterCache
  terminals : ∀ (id : Nat) (t : ValidatedOutbound), b.selectorTerminals[id]? = some t → ∃ o, Known catalog o ∧ o.id = id ∧ Terminal ext catalog o t
  samples : ∀ (id : Nat) (s : CompiledClientChainSample), b.compiledSamples[id]? = some s →
    ∃ o hops, Known catalog o ∧ o.id = id ∧ ChainOf ext catalog o hops ∧ s = sampleOf ext hops
  urltests : ∀ (id : Nat) (a : CachedUrltestAction), b.urltestSamples[id]? = some a → ∃ o, Known catalog o ∧ o.id = id ∧ UrltestImage ext catalog o a
  candidates : b.urltestCandidates = total (fun _ a => probes a) b.urltestSamples
  capacity : b.urltestCandidates ≤ MAX_PROJECTED_URLTEST_CANDIDATES

/-- A URLTest that was not measured yet. -/
theorem Valid.enrol {b : ClientChainProjectionBudget} {sample : CachedUrltestAction} {used : ClientChainProjectionCost} (valid : Valid ext catalog b)
    (known : Known catalog o) (image : UrltestImage ext catalog o sample) (fresh : b.urltestSamples[o.id]? = none)
    (few : b.urltestCandidates + probes sample ≤ MAX_PROJECTED_URLTEST_CANDIDATES) :
    Valid ext catalog { b with
      used := used
      urltestSamples := b.urltestSamples.insert o.id sample
      urltestCandidates := b.urltestCandidates + probes sample } := by
  refine { valid with urltests := ?_, candidates := ?_, capacity := few }
  · intro id a there
    rw [lookup_insert] at there
    split at there
    · next same =>
      cases there
      exact ⟨o,known,same,image⟩
    · exact valid.urltests id a there
  · have inserted := total_insert b.urltestSamples o.id sample (fun _ a => probes a)
    rw [fresh,← valid.candidates] at inserted
    exact inserted.symm

variable (ext catalog) in
/-- The operation succeeds on every valid budget, and charges nothing. -/
def Quiet (p : Projecting α) (A : α → ClientChainProjectionBudget → Prop) : Prop :=
  ∀ b, Valid ext catalog b → Ensures p b (Outcome (fun a b' => A a b' ∧ Valid ext catalog b' ∧ b'.ledger = b.ledger) (fun _ _ => False))

theorem Quiet.bind {p : Projecting α} {f : α → Projecting β} {A : α → ClientChainProjectionBudget → Prop} {B : β → ClientChainProjectionBudget → Prop}
    (first : Quiet ext catalog p A) (next : ∀ a, (∃ b, A a b) → Quiet ext catalog (f a) B) : Quiet ext catalog (p >>= f) B := by
  intro b valid
  refine Ensures.bind (first b valid) ?_ (fun _ _ failed => failed)
  rintro a b' ⟨holds,valid',same⟩
  refine (next a ⟨b',holds⟩ b' valid').mono ?_
  intro result b'' outcome
  cases result with
  | error e => exact outcome
  | ok c => exact ⟨outcome.1,outcome.2.1,outcome.2.2.trans same⟩

section Catalogs
variable (acc : Accepted ext catalog)
include acc

theorem immediateSelectorOutbound_quiet (known : Known catalog o) (kind : o.kind = .selector) :
    Quiet ext catalog (immediateSelectorOutbound ext catalog o) (fun p _ => Immediate ext catalog o p) := by
  intro b valid
  refine Ensures.look_bind ?_
  cases hit : b.selectorImmediate[o.id]? with
  | some p =>
    obtain ⟨o',known',same,selects⟩ := valid.immediate o.id p hit
    cases acc.indexed.ids o'.tag o.tag o' o known' known same
    exact ⟨selects,valid,rfl⟩
  | none =>
    obtain ⟨d,p,parsed,_,_,there,_⟩ := Accepted.selector acc known kind
    have selects : Immediate ext catalog o p := ⟨kind,d,parsed,there⟩
    dsimp only
    rw [parsed]
    refine Ensures.pure_bind ?_
    rw [there]
    exact ⟨selects,{ valid with
      immediate := valid.immediate.insert known selects
      adapter := valid.adapter.insert known selects },rfl⟩

omit acc in
theorem compress_terminals {path : List ValidatedOutbound} {terminals : Map Nat ValidatedOutbound}
    (held : ∀ (id : Nat) (t : ValidatedOutbound), terminals[id]? = some t → ∃ o, Known catalog o ∧ o.id = id ∧ Terminal ext catalog o t)
    (leads : ∀ a ∈ path, Known catalog a ∧ Terminal ext catalog a t) :
    ∀ (id : Nat) (t' : ValidatedOutbound), (compress t path terminals)[id]? = some t' → ∃ o, Known catalog o ∧ o.id = id ∧ Terminal ext catalog o t' := by
  induction path generalizing terminals with
  | nil => exact held
  | cons a rest ih =>
    refine ih ?_ (fun a' later => leads a' (List.mem_cons_of_mem _ later))
    intro id t' there
    rw [lookup_insert] at there
    split at there
    · next same =>
      cases there
      obtain ⟨known,ends⟩ := leads a List.mem_cons_self
      exact ⟨a,known,same,ends⟩
    · exact held id t' there

/-- Selectors are followed to their end; those on the way lead there too. -/
theorem resolveStaticSelectorOutbound_quiet (room : Nat) : ∀ (o : ValidatedOutbound) (path : List ValidatedOutbound), Known catalog o →
    depthOf ext catalog o.tag ≤ room →
    (∀ a ∈ path, Known catalog a ∧ depthOf ext catalog o.tag < depthOf ext catalog a.tag ∧ ∀ t, Terminal ext catalog o t → Terminal ext catalog a t) →
    Quiet ext catalog (resolveStaticSelectorOutbound ext catalog o room path) (fun t _ => Terminal ext catalog o t) := by
  induction room with
  | zero =>
    intro o path known within
    have positive := depthOf_pos acc known
    omega
  | succ room ih =>
    intro o path known within leads b valid
    rw [resolveStaticSelectorOutbound]
    refine Ensures.look_bind ?_
    have along {t : ValidatedOutbound} (ends : Terminal ext catalog o t) : ∀ a ∈ path.reverse, Known catalog a ∧ Terminal ext catalog a t := by
      intro a member
      obtain ⟨known',_,follow⟩ := leads a (List.mem_reverse.mp member)
      exact ⟨known',follow t ends⟩
    cases hit : b.selectorTerminals[o.id]? with
    | some t =>
      obtain ⟨o',known',same,ends⟩ := valid.terminals o.id t hit
      cases acc.indexed.ids o'.tag o.tag o' o known' known same
      exact ⟨ends,{ valid with terminals := compress_terminals valid.terminals (along ends) },rfl⟩
    | none =>
      have acyclic : ¬ (path.any (fun active => active.id = o.id)) = true := by
        intro found
        obtain ⟨a,member,same⟩ := List.any_eq_true.mp found
        obtain ⟨known',less,_⟩ := leads a member
        cases acc.indexed.ids a.tag o.tag a o known' known (by simpa using same)
        omega
      dsimp only
      rw [if_neg acyclic]
      split
      · next kind =>
        refine ⟨.here kind,{ valid with terminals := compress_terminals ?_ (along (.here kind)) },rfl⟩
        intro id t there
        rw [lookup_insert] at there
        split at there
        · next same =>
          cases there
          exact ⟨o,known,same,.here kind⟩
        · exact valid.terminals id t there
      · next kind =>
        have kind : o.kind = .selector := Decidable.not_not.mp kind
        refine Quiet.bind (A := fun p _ => Immediate ext catalog o p) (immediateSelectorOutbound_quiet acc known kind) ?_ b valid
        rintro p ⟨_,selects⟩
        obtain ⟨known',less⟩ := immediate_known acc known selects
        have rest := ih p (o :: path) known' (by omega) (by
          intro a member
          rcases List.mem_cons.mp member with rfl | earlier
          · exact ⟨known,less,fun t ends => .through selects ends⟩
          · obtain ⟨known'',less',follow⟩ := leads a earlier
            exact ⟨known'',by omega,fun t ends => follow t (.through selects ends)⟩)
        intro b' valid'
        refine (rest b' valid').mono ?_
        intro result b'' outcome
        cases result with
        | error e => exact outcome
        | ok t => exact ⟨.through selects outcome.1,outcome.2⟩

/-- The chains of an outbound that is none of those chosen at run time. -/
theorem prepareOutboundClientChains_quiet (known : Known catalog o) (plain : HasShape ext catalog o.tag .plain) :
    Quiet ext catalog (prepareOutboundClientChains ext catalog o)
      (fun _ b => ∃ hops, ChainOf ext catalog o hops ∧ b.compiledSamples[o.id]? = some (sampleOf ext hops)) := by
  intro b valid
  refine Ensures.look_bind ?_
  split
  · next cached =>
    obtain ⟨s,hit⟩ := Option.isSome_iff_exists.mp cached
    obtain ⟨o',hops,known',same,chain,rfl⟩ := valid.samples o.id s hit
    cases acc.indexed.ids o'.tag o.tag o' o known' known same
    exact ⟨⟨hops,chain,hit⟩,valid,rfl⟩
  · have compiled := compileWithDns_compiles acc MAX_OUTBOUND_REFERENCE_DEPTH o [] true known plain (depthOf_le acc known)
      (fun a _ member => absurd member List.not_mem_nil) b.adapterCache valid.adapter
    have adapted : Ensures (adapt ext o.tag (compileClientChainsCached ext catalog o)) b
        (Outcome (fun value b' => ∃ hops cache, value = clientChains [hops] ∧ ChainOf ext catalog o hops ∧ Cached ext catalog cache ∧
          b' = { b with adapterCache := cache }) (fun _ _ => False)) := by
      have chains : Ensures (compileClientChainsCached ext catalog o) b.adapterCache
          (Outcome (fun value cache => ∃ hops, value = clientChains [hops] ∧ ChainOf ext catalog o hops ∧ Cached ext catalog cache) (fun _ _ => False)) := by
        refine Ensures.bind compiled ?_ (fun _ _ failed => failed)
        rintro hops cache ⟨chain,cached⟩
        exact ⟨hops,rfl,chain,cached⟩
      unfold Ensures at chains ⊢
      unfold adapt
      generalize compileClientChainsCached ext catalog o b.adapterCache = run at chains ⊢
      obtain ⟨result,cache⟩ := run
      cases result with
      | error e => exact chains.elim
      | ok value =>
        obtain ⟨hops,value_eq,chain,cached⟩ := chains
        exact ⟨hops,cache,value_eq,chain,cached,rfl⟩
    refine Ensures.bind adapted ?_ (fun _ _ failed => failed)
    rintro value b' ⟨hops,cache,rfl,chain,cached,rfl⟩
    rw [inspect_sample]
    refine Ensures.pure_bind (Ensures.change ?_)
    refine ⟨⟨hops,chain,by rw [lookup_insert,if_pos rfl]; rfl⟩,{ valid with adapter := cached, samples := ?_ },rfl⟩
    intro id s there
    rw [lookup_insert] at there
    split at there
    · next same =>
      cases there
      exact ⟨o,hops,known,same,chain,rfl⟩
    · exact valid.samples id s there

theorem realOutbound_quiet (known : Known catalog o) : Quiet ext catalog (realOutbound ext catalog o) (fun p _ => Real ext catalog o p) := by
  unfold realOutbound
  split
  · next kind =>
    intro b valid
    refine (immediateSelectorOutbound_quiet acc known kind b valid).mono ?_
    intro result b' outcome
    cases result with
    | error e => exact outcome
    | ok p => exact ⟨by simpa [Real,kind] using outcome.1,outcome.2⟩
  · next kind => exact fun b valid => ⟨by simp [Real,kind],valid,rfl⟩

/-! ### The members of a URLTest -/

/-- Known outbounds are as different as their tags. -/
theorem id_iff_tag (known : Known catalog o) (known' : Known catalog p) : o.id = p.id ↔ o.tag = p.tag := by
  constructor
  · intro same
    rw [acc.indexed.ids o.tag p.tag o p known known' same]
  · intro same
    rw [Known,same,known'] at known
    cases known
    rfl

omit acc in
theorem forall₂_split {γ δ : Type} {R : γ → δ → Prop} {done rest : List γ} {x : γ} {ys : List δ} (all : List.Forall₂ R (done ++ x :: rest) ys) :
    ∃ y, R x y ∧ ys.take (done ++ [x]).length = ys.take done.length ++ [y] ∧ ys = ys.take done.length ++ y :: ys.drop (done.length + 1) := by
  induction done generalizing ys with
  | nil =>
    cases all with
    | @cons _ y _ ys' one others => exact ⟨y,one,by simp,by simp⟩
  | cons d done ih =>
    cases all with
    | @cons _ y _ ys' _ others =>
      obtain ⟨z,holds,taken,whole⟩ := ih others
      refine ⟨z,holds,?_,?_⟩
      · simpa using taken
      · simpa using whole

variable {b : ClientChainProjectionBudget} (valid : Valid ext catalog b)
include valid

/-- The members are told apart by the outbounds that they are measured as, and none is left
    out as long as the candidates of all URLTests are not too many. -/
theorem addCandidates_spec {members : List String} {resolved : List Candidate} (resolution : List.Forall₂ (Resolves ext catalog) members resolved) :
    Ensures (foldEach (addCandidate ext catalog o) [] members) b (Outcome
      (fun candidates b' => candidates = firstByReal resolved ∧ b.urltestCandidates + candidates.length ≤ MAX_PROJECTED_URLTEST_CANDIDATES ∧
        Valid ext catalog b' ∧ b'.ledger = b.ledger)
      (fun e b' => e.isLimit ∧ ¬ e.isProjection ∧ MAX_PROJECTED_URLTEST_CANDIDATES < b.urltestCandidates + (firstByReal resolved).length ∧
        Valid ext catalog b' ∧ b'.ledger = b.ledger)) := by
  have known_reals : ∀ c ∈ resolved, Known catalog c.real :=
    forall₂_right resolution (fun tag _ c resolves => resolves.2.known acc (known_of acc resolves.1).1)
  refine Ensures.foldEach (fun done candidates b' => candidates = firstByReal (resolved.take done.length) ∧
    b.urltestCandidates + candidates.length ≤ MAX_PROJECTED_URLTEST_CANDIDATES ∧ Valid ext catalog b' ∧ b'.ledger = b.ledger)
    ⟨rfl,by simpa using valid.capacity,valid,rfl⟩ ?_ ?_
  · rintro done tag rest candidates b' split ⟨rfl,room,valid',same⟩
    rw [split] at resolution
    obtain ⟨c,resolves,taken,whole⟩ := forall₂_split resolution
    have known := (known_of acc resolves.1).1
    have among : c ∈ resolved := by
      rw [whole]
      simp
    unfold addCandidate
    rw [resolves.1]
    refine Ensures.bind (realOutbound_quiet acc known b' valid') ?_ (fun _ _ failed => failed.elim)
    rintro real b'' ⟨stands,valid'',same'⟩
    have this_real : real = c.real := by
      have unique := Resolves.unique resolves (⟨resolves.1,stands⟩ : Resolves ext catalog tag ⟨c.member,real⟩)
      rw [unique]
    subst this_real
    have seen : (firstByReal (resolved.take done.length)).any (fun c' => c'.real.id = c.real.id) = true ↔
        ∃ c' ∈ firstByReal (resolved.take done.length), c'.real.tag = c.real.tag := by
      rw [List.any_eq_true]
      refine exists_congr (fun c' => and_congr_right (fun member => ?_))
      rw [decide_eq_true_iff,id_iff_tag acc (known_reals c' (List.mem_of_mem_take (mem_firstByReal member))) (known_reals c among)]
    dsimp only
    split
    · next repeated =>
      refine ⟨?_,room,valid'',same'.trans same⟩
      rw [taken,firstByReal_append,if_pos (seen.mp repeated)]
    · next new =>
      have grown : firstByReal (resolved.take (done ++ [tag]).length) = firstByReal (resolved.take done.length) ++ [c] := by
        rw [taken,firstByReal_append,if_neg (fun earlier => new (seen.mpr earlier))]
      have counted : b''.urltestCandidates = b.urltestCandidates := congrArg Ledger.candidates (same'.trans same)
      refine Ensures.look_bind ?_
      rw [counted]
      split
      · next exceeded =>
        refine ⟨rfl,Bool.false_ne_true,?_,valid'',same'.trans same⟩
        have fewer := @firstByReal_length (resolved.take (done ++ [tag]).length) (resolved.drop (done ++ [tag]).length)
        rw [List.take_append_drop,grown,List.length_append,List.length_singleton] at fewer
        omega
      · next within =>
        refine ⟨grown.symm,?_,valid'',same'.trans same⟩
        rw [List.length_append,List.length_singleton]
        omega
  · rintro candidates b' ⟨rfl,room,valid',same⟩
    rw [List.take_of_length_le (Nat.le_of_eq resolution.length_eq.symm)] at room ⊢
    exact ⟨rfl,room,valid',same⟩

/-- The members are expanded one by one, and the cost of the first of them is checked
    before the next one. -/
theorem expandMembers_spec {candidates : List Candidate} {hops : List (List Value)} {bytes : Nat}
    (plain : ∀ c ∈ candidates, Known catalog c.member ∧ HasShape ext catalog c.member.tag .plain)
    (chains : List.Forall₂ (fun c h => ChainOf ext catalog c.member h) candidates hops) :
    Ensures (foldEach (expandMember ext catalog o bytes) ⟨.default,[]⟩ candidates) b (Outcome
      (fun expansion b' => expansion = ⟨totalProjection ext hops,hops.map (fun h => clientChains [h])⟩ ∧ Valid ext catalog b' ∧ b'.ledger = b.ledger)
      (fun e b' => e.isLimit ∧ ¬ b.ledger.fits ((totalProjection ext hops).cost bytes) ∧ Valid ext catalog b' ∧ b'.ledger = b.ledger)) := by
  refine Ensures.foldEach (fun done expansion b' =>
    expansion = ⟨totalProjection ext (hops.take done.length),(hops.take done.length).map (fun h => clientChains [h])⟩ ∧
    Valid ext catalog b' ∧ b'.ledger = b.ledger) ⟨rfl,valid,rfl⟩ ?_ ?_
  · rintro done c rest expansion b' split ⟨rfl,valid',same⟩
    obtain ⟨known,fixed⟩ := plain c (by rw [split]; simp)
    rw [split] at chains
    obtain ⟨h,chain,taken,_⟩ := forall₂_split chains
    unfold expandMember
    have resolving := resolveStaticSelectorOutbound_quiet acc MAX_OUTBOUND_REFERENCE_DEPTH c.member [] known (depthOf_le acc known)
      (fun a member => absurd member List.not_mem_nil)
    refine Ensures.bind (resolving b' valid') ?_ (fun _ _ failed => failed.elim)
    rintro t b₁ ⟨ends,valid₁,same₁⟩
    have settled := ends.plain acc known fixed
    have known_t := ends.known acc known
    rw [if_neg settled]
    refine Ensures.bind (prepareOutboundClientChains_quiet acc known_t (plain_of_kind acc known_t ⟨ends.kind,settled⟩) b₁ valid₁) ?_
      (fun _ _ failed => failed.elim)
    rintro _ b₂ ⟨⟨h',chain',hit⟩,valid₂,same₂⟩
    cases chain.unique (ends.chain chain')
    refine Ensures.look_bind ?_
    rw [hit]
    have unchanged : b₂.ledger = b.ledger := same₂.trans (same₁.trans same)
    have grown : (totalProjection ext (hops.take done.length)).append (projectionOf ext h) = totalProjection ext (hops.take (done ++ [c]).length) := by
      rw [taken,totalProjection_append]
    dsimp only [sampleOf]
    rw [grown]
    refine Ensures.bind ensureCanReserve_spec ?_ ?_
    · rintro _ b₃ ⟨rfl,_⟩
      refine ⟨?_,valid₂,unchanged⟩
      rw [taken,List.map_append]
      rfl
    · rintro e b₃ ⟨rfl,limit,exceeded⟩
      refine ⟨limit,?_,valid₂,unchanged⟩
      rw [unchanged] at exceeded
      rintro ⟨few,small⟩
      have prefix_cost := @totalProjection_cost ext (hops.take (done ++ [c]).length) (hops.drop (done ++ [c]).length) bytes
      rw [List.take_append_drop] at prefix_cost
      exact exceeded ⟨by omega,by omega⟩
  · rintro expansion b' ⟨rfl,valid',same⟩
    rw [List.take_of_length_le (Nat.le_of_eq chains.length_eq.symm)]
    exact ⟨rfl,valid',same⟩

/-! ### Calls -/

omit acc valid in
theorem probes_image {a : CachedUrltestAction} {d : UrltestDefinition} {resolved : List Candidate} {hops : List (List Value)}
    (image : a = ⟨identified ext o (hops.map (fun h => .object [("chain",.array h)])) (withHistory d.selection (firstByReal resolved)),
      (totalProjection ext hops).cost (serializedJsonLen ext (.object (withHistory d.selection (firstByReal resolved))))⟩) :
    probes a = hops.length := by
  rw [image]
  simp [probes,identified,chainsOf]

omit acc valid in
theorem flatMap_chains {hops : List (List Value)} :
    (hops.map (fun h => clientChains [h])).flatMap chainsOf = hops.map (fun h => Value.object [("chain",.array h)]) := by
  induction hops with
  | nil => rfl
  | cons h rest ih =>
    rw [List.map_cons,List.flatMap_cons,ih]
    rfl

omit valid in
/-- The candidates of a URLTest have fixed chains. -/
theorem urltest_candidates {d : UrltestDefinition} {resolved : List Candidate} (known : Known catalog o) (kind : o.kind = .urltest)
    (parsed : parseUrltestDefinition ext o = .ok d) (resolution : List.Forall₂ (Resolves ext catalog) d.members resolved) :
    ∀ c ∈ firstByReal resolved, Known catalog c.member ∧ HasShape ext catalog c.member.tag .plain := by
  obtain ⟨d',parsed',members⟩ := urltest_members acc known kind
  rw [parsed] at parsed'
  cases parsed'
  intro c among
  refine forall₂_right (P := fun (c : Candidate) => Known catalog c.member ∧ HasShape ext catalog c.member.tag .plain) resolution ?_ c (mem_firstByReal among)
  intro tag member c' resolves
  obtain ⟨p,there,fixed⟩ := members tag member
  rw [resolves.1] at there
  cases there
  exact ⟨(known_of acc resolves.1).1,fixed⟩

variable (ext catalog) in
/-- A call gives the image of its outbound and is billed for it, or the bill does not fit. -/
def Meets (p : Projecting CompiledOutboundAction) (b : ClientChainProjectionBudget) (action : CompiledOutboundAction) (bill : Bill) : Prop :=
  Ensures p b (Outcome
    (fun result b' => result = action ∧ b.ledger.admits bill ∧ Valid ext catalog b' ∧ b'.ledger = b.ledger.settle bill)
    (fun e b' => e.isLimit ∧ ¬ b.ledger.admits bill ∧ Valid ext catalog b' ∧ b'.ledger = b.ledger))

theorem compileUrltestAction_meets {sample : CachedUrltestAction} (known : Known catalog o) (image : UrltestImage ext catalog o sample)
    (kind : o.kind = .urltest) : Meets ext catalog (compileUrltestAction ext catalog o) b sample.action (.urltest o.id sample) := by
  refine Ensures.look_bind ?_
  cases hit : b.urltestSamples[o.id]? with
  | some held =>
    obtain ⟨o',known',same,image'⟩ := valid.urltests o.id held hit
    cases acc.indexed.ids o'.tag o.tag o' o known' known same
    cases image.unique image'
    have cached : (b.ledger.groups[o.id]?).isSome := by simp [ClientChainProjectionBudget.ledger,hit]
    refine Ensures.bind reserve_spec ?_ ?_
    · rintro _ b' ⟨rfl,fits⟩
      refine ⟨rfl,⟨fits,.inl cached⟩,{ valid with },?_⟩
      rw [Ledger.settle,if_pos cached]
      rfl
    · rintro e b' ⟨rfl,limit,exceeded⟩
      exact ⟨limit,fun admitted => exceeded admitted.1,valid,rfl⟩
  | none =>
    have fresh : ¬ (b.ledger.groups[o.id]?).isSome := by simp [ClientChainProjectionBudget.ledger,hit]
    refine Ensures.look_bind ?_
    split
    · next full =>
      refine ⟨rfl,?_,valid,rfl⟩
      rintro ⟨_,cached | ⟨room,_⟩⟩
      · exact fresh cached
      · exact absurd full (Nat.not_le_of_lt room)
    · next room =>
      obtain ⟨d,resolved,hops,parsed,resolution,chains,made⟩ := image
      have counted : probes sample = (firstByReal resolved).length := by rw [probes_image made,chains.length_eq]
      have plain := urltest_candidates acc known kind parsed resolution
      rw [parsed]
      refine Ensures.pure_bind ?_
      refine Ensures.bind (addCandidates_spec acc valid resolution) ?_ ?_
      · rintro candidates b₁ ⟨rfl,few,valid₁,same₁⟩
        refine Ensures.bind (expandMembers_spec acc valid₁ plain chains) ?_ ?_
        · rintro expansion b₂ ⟨rfl,valid₂,same₂⟩
          have unchanged : b₂.ledger = b.ledger := same₂.trans same₁
          have cost_eq : (totalProjection ext hops).cost (serializedJsonLen ext (.object (withHistory d.selection (firstByReal resolved)))) = sample.cost := by
            rw [made]
          dsimp only
          rw [cost_eq,flatMap_chains]
          refine Ensures.bind reserve_spec ?_ ?_
          · rintro _ b₃ ⟨rfl,fits⟩
            have groups : b₂.urltestSamples = b.urltestSamples := congrArg Ledger.groups unchanged
            have count : b₂.urltestCandidates = b.urltestCandidates := congrArg Ledger.candidates unchanged
            have action_eq : identified ext o (hops.map (fun h => .object [("chain",.array h)])) (withHistory d.selection (firstByReal resolved)) = sample.action := by
              rw [made]
            have fits' : b.ledger.fits sample.cost := unchanged ▸ fits
            refine Ensures.change_bind ?_
            rw [action_eq,← counted]
            refine ⟨rfl,⟨fits',.inr ⟨Nat.lt_of_not_ge room,counted ▸ few⟩⟩,?_,?_⟩
            · exact valid₂.enrol known ⟨d,resolved,hops,parsed,resolution,chains,made⟩ (by rw [groups]; exact hit) (by rw [counted,count]; exact few)
            · rw [Ledger.settle,if_neg fresh,← unchanged]
              rfl
          · rintro e b₃ ⟨rfl,limit,exceeded⟩
            rw [unchanged] at exceeded
            exact ⟨limit,fun admitted => exceeded admitted.1,valid₂,unchanged⟩
        · rintro e b₂ ⟨limit,exceeded,valid₂,same₂⟩
          refine ⟨limit,?_,valid₂,same₂.trans same₁⟩
          rw [same₁] at exceeded
          rintro ⟨fits,_⟩
          rw [made] at fits
          exact exceeded fits
      · rintro e b₁ ⟨limit,_,exceeded,valid₁,same₁⟩
        refine ⟨limit,?_,valid₁,same₁⟩
        rintro ⟨_,cached | ⟨_,few⟩⟩
        · exact fresh cached
        · rw [counted] at few
          exact absurd exceeded (Nat.not_lt_of_le few)

theorem outboundClientAction_meets {action : CompiledOutboundAction} {bill : Bill} (known : Known catalog o) (projects : Projects ext catalog o action bill) :
    Meets ext catalog (outboundClientAction ext catalog o) b action bill := by
  have resolving := resolveStaticSelectorOutbound_quiet acc MAX_OUTBOUND_REFERENCE_DEPTH o [] known (depthOf_le acc known)
    (fun a member => absurd member List.not_mem_nil)
  unfold outboundClientAction
  refine Ensures.bind (resolving b valid) ?_ (fun _ _ failed => failed.elim)
  rintro t b₁ ⟨ends,valid₁,same₁⟩
  have known_t := ends.known acc known
  cases projects with
  | urltest ends' kind image =>
    cases ends.unique ends'
    rw [if_pos kind]
    have met := compileUrltestAction_meets acc valid₁ known_t image kind
    unfold Meets at met
    rw [same₁] at met
    exact met
  | plain ends' kind chain =>
    cases ends.unique ends'
    rw [if_neg kind]
    refine Ensures.bind (prepareOutboundClientChains_quiet acc known_t (plain_of_kind acc known_t ⟨ends.kind,kind⟩) b₁ valid₁) ?_
      (fun _ _ failed => failed.elim)
    rintro _ b₂ ⟨⟨hops,chain',hit⟩,valid₂,same₂⟩
    cases chain.unique (ends.chain chain')
    have unchanged : b₂.ledger = b.ledger := same₂.trans same₁
    refine Ensures.look_bind ?_
    rw [hit]
    refine Ensures.bind reserve_spec ?_ ?_
    · rintro _ b₃ ⟨rfl,fits⟩
      rw [unchanged] at fits
      refine ⟨rfl,fits,{ valid₂ with },?_⟩
      rw [Ledger.settle,← unchanged]
      rfl
    · rintro e b₃ ⟨rfl,limit,exceeded⟩
      rw [unchanged] at exceeded
      exact ⟨limit,exceeded,valid₂,unchanged⟩

end Catalogs

end NodeAgent.ClientChains
