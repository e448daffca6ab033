import NodeAgent.JsonTexts
import NodeAgent.ProjectionPlans

/-!
Costs of projections. The budget counts the hops and the bytes of every action that is put
into a configuration; here they are read off what is put there. An operation is charged for a
list of bills, in their order, and is refused for its size only when one of them does not fit.
-/
namespace NodeAgent.ClientChains
open NodeAgent.Api NodeAgent.Json NodeAgent.FiniteMap NodeAgent.OutboundAdapter NodeAgent.Outbounds NodeAgent.Fallible

variable {ext : Externals} {catalog : Catalog} {o p t : ValidatedOutbound} {α β : Type}

/-! ### Sums of costs -/

attribute [ext] ClientChainProjectionCost

instance : Add ClientChainProjectionCost := ⟨fun a b => ⟨a.hops + b.hops,a.bytes + b.bytes⟩⟩

instance : Zero ClientChainProjectionCost := ⟨⟨0,0⟩⟩

@[simp] theorem cost_add_hops (a b : ClientChainProjectionCost) : (a + b).hops = a.hops + b.hops := rfl

@[simp] theorem cost_add_bytes (a b : ClientChainProjectionCost) : (a + b).bytes = a.bytes + b.bytes := rfl

@[simp] theorem cost_zero_hops : (0 : ClientChainProjectionCost).hops = 0 := rfl

@[simp] theorem cost_zero_bytes : (0 : ClientChainProjectionCost).bytes = 0 := rfl

instance : AddCommMonoid ClientChainProjectionCost where
  add_assoc a b c := by ext <;> simp [Nat.add_assoc]
  zero_add a := by ext <;> simp
  add_zero a := by ext <;> simp
  add_comm a b := by ext <;> simp [Nat.add_comm]
  nsmul := nsmulRec

/-- A configuration of this cost may be emitted. -/
def ClientChainProjectionCost.Within (cost : ClientChainProjectionCost) : Prop :=
  cost.hops ≤ MAX_PROJECTED_CLIENT_CHAIN_HOPS ∧ cost.bytes ≤ MAX_PROJECTED_CLIENT_CHAIN_BYTES

theorem ClientChainProjectionCost.Within.less {a b : ClientChainProjectionCost} (within : (a + b).Within) : a.Within := by
  obtain ⟨few,small⟩ := within
  simp only [cost_add_hops,cost_add_bytes] at few small
  exact ⟨by omega,by omega⟩

/-! ### The cost of an action -/

/-- The hops of one entry of a client-chain array. -/
def chainHops (chain : Value) : Nat :=
  match chain.get "chain" with
  | some (.array hops) => hops.length
  | _ => 0

def hopCount (chains : Value) : Nat := ((chainsOf chains).map chainHops).sum

section Measures
variable (ext)

/-- The bytes of an entry of an object, its name apart. -/
def fieldBytes (fields : Fields) (name : String) : Nat := ((Fields.get fields name).map (serializedJsonLen ext)).getD 0

/-- What an object embeds: a client-chain array and the policy to choose between its chains. -/
def embeddedCost (chainField : String) (fields : Fields) : ClientChainProjectionCost :=
  ⟨((Fields.get fields chainField).map hopCount).getD 0,fieldBytes ext fields chainField + fieldBytes ext fields "client_chain_selection"⟩

def actionCost (action : CompiledOutboundAction) : ClientChainProjectionCost :=
  ⟨hopCount action.clientChains,
    serializedJsonLen ext action.clientChains + ((action.clientChainSelection.map (fun selection => serializedJsonLen ext (.object selection))).getD 0)⟩

end Measures

def Bill.cost : Bill → ClientChainProjectionCost
  | .plain cost => cost
  | .urltest _ sample => sample.cost

/-! ### The identity of a URLTest -/

/-- What a check gives when it succeeds. -/
def Yields (P : α → Prop) (r : Except String α) : Prop := ∀ a, r = .ok a → P a

theorem Yields.bind {P : β → Prop} {r : Except String α} {f : α → Except String β} (next : ∀ a, Yields P (f a)) : Yields P (r >>= f) := by
  intro b done
  obtain ⟨a,_,rest⟩ := bind_ok done
  exact next a b rest

theorem Yields.ok {P : α → Prop} {a : α} (holds : P a) : Yields P (.ok a) := by
  intro a' done
  cases done
  exact holds

theorem Yields.error {P : α → Prop} {e : String} : Yields P (.error e) := by
  intro a done
  cases done

def PLACEHOLDER : String := "node-agent-urltest-v1:0000000000000000000000000000000000000000000000000000000000000000"

/-- The policy has the name of a URLTest in its place. -/
def Placeholder (d : UrltestDefinition) : Prop := d.selection.Ordered ∧ Fields.get d.selection "shared_id" = some (.string PLACEHOLDER)

theorem parseUrltestDefinition_placeholder : Yields Placeholder (parseUrltestDefinition ext o) := by
  have holds (members : List String) (url : String) (interval idle tolerance : Nat) : Placeholder ⟨members,Fields.of [("type",.string "urltest"),
      ("shared_id",.string PLACEHOLDER),("url",.string url),("use_native_roots",.bool true),("reselect_on_connection_failure",.bool false),
      ("interval_millis",.number (.natural interval)),("idle_timeout_millis",.number (.natural idle)),
      ("tolerance_millis",.number (.natural tolerance))]⟩ := ⟨of_ordered _,by simp [Fields.of]⟩
  unfold parseUrltestDefinition
  dsimp only
  -- All ways through the checks end at the one policy.
  repeat' first
    | exact Yields.ok (holds _ _ _ _ _)
    | exact Yields.error
    | refine Yields.bind (fun _ => ?_)
    | split

theorem toString_digest (text : String) : (s!"node-agent-urltest-v1:{text}") = "node-agent-urltest-v1:" ++ text := rfl

open Classical in
variable (ext catalog) in
/-- What the projection of an outbound is billed for. -/
noncomputable def billOf (o : ValidatedOutbound) : Bill :=
  if found : ∃ bill action, Projects ext catalog o action bill then found.choose else .plain 0

theorem billOf_eq {action : CompiledOutboundAction} {bill : Bill} (projects : Projects ext catalog o action bill) : billOf ext catalog o = bill := by
  have found : ∃ bill action, Projects ext catalog o action bill := ⟨bill,action,projects⟩
  rw [billOf,dif_pos found]
  obtain ⟨action',projects'⟩ := found.choose_spec
  exact (projects'.unique projects).2

/-- What is relied on of the JSON writer and the digest. -/
structure WritesJson (ext : Externals) : Prop where
  compact : Compact ext.serialize
  /-- A digest is written in 64 hexadecimal digits. -/
  digest : ∀ text : String, (ext.sha256 text).utf8ByteSize = 64 ∧ (ext.sha256 text).toList.all plainChar

section Texts
variable (texts : WritesJson ext)
include texts

theorem chains_length (hops : List (List Value)) : serializedJsonLen ext (.array (hops.map (fun h => .object [("chain",.array h)]))) =
    (hops.map (fun h => (projectionOf ext h).chainElementBytes)).sum + 2 + (hops.length - 1) := by
  rw [serializedJsonLen,array_length texts.compact,List.map_map,List.length_map]
  rfl

omit texts in
theorem inspect_chains (hops : List (List Value)) :
    ClientChainsProjection.inspect ext (.array (hops.map (fun h => .object [("chain",.array h)]))) = .ok (totalProjection ext hops) := by
  suffices general : ∀ (rest done : List (List Value)),
      inspectChains ext (totalProjection ext done) (rest.map (fun h => .object [("chain",.array h)])) = .ok (totalProjection ext (done ++ rest)) from
    general hops []
  intro rest
  induction rest with
  | nil => exact fun done => by rw [List.append_nil]; rfl
  | cons h rest ih =>
    intro done
    have one : inspectChain ext (.object [("chain",.array h)]) = .ok (projectionOf ext h) := rfl
    rw [List.map_cons,inspectChains,one,ok_bind,← totalProjection_append,ih (done ++ [h])]
    simp

omit texts in
theorem chains_hops (hops : List (List Value)) : hopCount (.array (hops.map (fun h => .object [("chain",.array h)]))) = (hops.map List.length).sum := by
  rw [hopCount,chainsOf,List.map_map]
  rfl

/-- The digest is as long as the text that it takes the place of. -/
theorem identified_length {d : UrltestDefinition} (held : Placeholder d) (candidates : List Candidate) (text : String) :
    serializedJsonLen ext (.object (Fields.insert (withHistory d.selection candidates) "shared_id" (.string s!"node-agent-urltest-v1:{ext.sha256 text}"))) =
      serializedJsonLen ext (.object (withHistory d.selection candidates)) := by
  obtain ⟨ordered,there⟩ := held
  have still : Fields.get (withHistory d.selection candidates) "shared_id" = some (.string PLACEHOLDER) := by
    simp [withHistory,there]
  obtain ⟨long,digits⟩ := texts.digest text
  have own : (s!"node-agent-urltest-v1:{ext.sha256 text}").toList.all plainChar := by
    rw [toString_digest,String.toList_append,List.all_append,digits]
    decide
  refine replace_length texts.compact ordered.insert.insert still ?_
  rw [string_length texts.compact own,string_length texts.compact (by decide),toString_digest,String.utf8ByteSize_append,long]
  decide

omit texts in
/-- Every action has a list of chains. -/
theorem Projects.chains {action : CompiledOutboundAction} {bill : Bill} (projects : Projects ext catalog o action bill) :
    ∃ hops : List (List Value), action.clientChains = .array (hops.map (fun h => .object [("chain",.array h)])) := by
  cases projects with
  | plain ends kind chain => exact ⟨[_],rfl⟩
  | urltest ends kind image =>
    obtain ⟨d,resolved,hops,_,_,_,made⟩ := image
    exact ⟨hops,by rw [made]; rfl⟩

/-- What is billed for a projection is what its action costs where it is embedded. -/
theorem Projects.cost {action : CompiledOutboundAction} {bill : Bill} (projects : Projects ext catalog o action bill) :
    bill.cost = actionCost ext action := by
  cases projects with
  | plain ends kind chain =>
    next hops =>
    have bytes := chains_length texts [hops]
    have count := chains_hops [hops]
    ext
    · exact count.symm
    · change _ = serializedJsonLen ext (.array ([hops].map (fun h => .object [("chain",.array h)]))) + 0
      rw [bytes]
      simp [Bill.cost,ClientChainsProjection.cost,projectionOf]
  | urltest ends kind image =>
    obtain ⟨d,resolved,hops,parsed,_,_,made⟩ := image
    have policy := identified_length texts (parseUrltestDefinition_placeholder d parsed) (firstByReal resolved)
    rw [made]
    ext
    · exact (chains_hops hops).symm
    · simp only [Bill.cost,actionCost,identified,Option.map_some,Option.getD_some,chains_length texts,policy]
      rfl

end Texts

/-! ### Charges -/

/-- The first bill that does not fit is among these. -/
def Ledger.Refuses (l : Ledger) (bills : List Bill) : Prop :=
  ∃ done bill rest l', bills = done ++ bill :: rest ∧ l.Settles done l' ∧ ¬ l'.fits bill.cost

theorem settle_used {l : Ledger} {bill : Bill} : (l.settle bill).used = l.used + bill.cost := by
  cases bill with
  | plain cost => rfl
  | urltest id sample =>
    rw [Ledger.settle]
    split <;> rfl

theorem admits_fits {l : Ledger} {bill : Bill} (admits : l.admits bill) : (l.used + bill.cost).Within := by
  cases bill with
  | plain cost => exact admits
  | urltest id sample => exact admits.1

theorem Ledger.Settles.used {l l' : Ledger} {bills : List Bill} (settles : l.Settles bills l') : l'.used = l.used + (bills.map Bill.cost).sum := by
  induction settles with
  | nil => simp
  | cons _ _ ih => rw [ih,settle_used,List.map_cons,List.sum_cons,add_assoc]

theorem Ledger.Settles.within {l l' : Ledger} {bills : List Bill} (settles : l.Settles bills l') (within : l.used.Within) : l'.used.Within := by
  induction settles with
  | nil => exact within
  | cons fits _ ih => exact ih (settle_used ▸ admits_fits fits)

theorem Ledger.Refuses.exceeds {l : Ledger} {bills : List Bill} (refuses : l.Refuses bills) : ¬ (l.used + (bills.map Bill.cost).sum).Within := by
  obtain ⟨done,bill,rest,l',rfl,settles,unfit⟩ := refuses
  intro within
  rw [List.map_append,List.map_cons,List.sum_append,List.sum_cons,← add_assoc,← add_assoc,← settles.used] at within
  exact unfit within.less

theorem Ledger.Refuses.append {l : Ledger} {bills more : List Bill} (refuses : l.Refuses bills) : l.Refuses (bills ++ more) := by
  obtain ⟨done,bill,rest,l',rfl,settles,unfit⟩ := refuses
  exact ⟨done,bill,rest ++ more,l',by simp,settles,unfit⟩

theorem Ledger.Settles.refuses {l l' : Ledger} {bills more : List Bill} (settles : l.Settles bills l') (refuses : l'.Refuses more) :
    l.Refuses (bills ++ more) := by
  obtain ⟨done,bill,rest,l'',rfl,after,unfit⟩ := refuses
  exact ⟨bills ++ done,bill,rest,l'',by simp,settles.append after,unfit⟩

variable (ext catalog) in
/-- The operation is charged for the bills and gives something good when it succeeds; it is
    refused for its size at one of the bills only. -/
def Charges (p : Projecting α) (bills : List Bill) (good : α → Prop) : Prop :=
  ∀ b, Valid ext catalog b → Ensures p b (Outcome (fun a b' => good a ∧ Valid ext catalog b' ∧ b.ledger.Settles bills b'.ledger)
    (fun e _ => e.isProjection → b.ledger.Refuses bills))

section Rules
variable {q : Projecting α} {f : α → Projecting β} {bills more : List Bill} {good : α → Prop} {fine : β → Prop}

theorem Charges.mono {better : α → Prop} (charges : Charges ext catalog q bills good) (weaker : ∀ a, good a → better a) :
    Charges ext catalog q bills better := by
  intro b valid
  refine (charges b valid).mono ?_
  rintro (e | a) b' holds
  · exact holds
  · exact ⟨weaker a holds.1,holds.2⟩

theorem Charges.pure {a : α} (holds : good a) : Charges ext catalog (Pure.pure a) [] good := fun _ valid => ⟨holds,valid,.nil⟩

theorem Charges.fail {e : CompileError} (other : ¬ e.isProjection) : Charges ext catalog (Fallible.fail e : Projecting α) bills good :=
  fun _ _ projection => absurd projection other

/-- What follows a check is charged only when the check succeeds. -/
theorem Charges.check_bind {r : Except String α} (next : ∀ a, r = .ok a → Charges ext catalog (f a) bills fine) :
    Charges ext catalog (ClientChains.check r >>= f) bills fine := by
  cases r with
  | error e => exact fun _ _ projection => absurd projection Bool.false_ne_true
  | ok a => exact next a rfl

theorem Charges.bind (first : Charges ext catalog q bills good) (next : ∀ a, good a → Charges ext catalog (f a) more fine) :
    Charges ext catalog (q >>= f) (bills ++ more) fine := by
  intro b valid
  refine Ensures.bind (first b valid) ?_ ?_
  · rintro a b' ⟨holds,valid',settles⟩
    refine (next a holds b' valid').mono ?_
    rintro (e | c) b'' result
    · exact fun projection => settles.refuses (result projection)
    · exact ⟨result.1,result.2.1,settles.append result.2.2⟩
  · exact fun e _ refused projection => (refused projection).append

theorem Charges.andThen (first : Charges ext catalog q bills good) (next : ∀ a, good a → Charges ext catalog (f a) [] fine) :
    Charges ext catalog (q >>= f) bills fine := by
  have both := first.bind next
  rwa [List.append_nil] at both

/-- A loop is charged for its elements, one after the other. -/
theorem Charges.foldEach {body : β → α → Projecting β} {xs : List α} (charge : α → List Bill) (inv : List α → β → Prop) {start : β}
    (holds : inv [] start) (each : ∀ done x rest b, xs = done ++ x :: rest → inv done b →
      Charges ext catalog (body b x) (charge x) (inv (done ++ [x]))) :
    Charges ext catalog (Fallible.foldEach body start xs) (xs.flatMap charge) (inv xs) := by
  suffices general : ∀ (rest done : List α) (b : β), xs = done ++ rest → inv done b →
      Charges ext catalog (Fallible.foldEach body b rest) (rest.flatMap charge) (inv xs) from general xs [] start rfl holds
  intro rest
  induction rest with
  | nil =>
    intro done b split holds
    rw [List.append_nil] at split
    exact .pure (split ▸ holds)
  | cons x rest ih =>
    intro done b split holds
    refine (each done x rest b split holds).bind ?_
    intro b' holds'
    exact ih (done ++ [x]) b' (by rw [split]; simp) holds'

end Rules

theorem Charges.reserve {cost : ClientChainProjectionCost} {context : String} :
    Charges ext catalog (ClientChains.reserve cost context) [.plain cost] (fun _ => True) := by
  intro b valid
  refine reserve_spec.mono ?_
  rintro (e | _) b' outcome
  · exact fun _ => ⟨[],.plain cost,[],b.ledger,rfl,.nil,outcome.2.2⟩
  · obtain ⟨rfl,fits⟩ := outcome
    exact ⟨trivial,{ valid with },.cons fits .nil⟩

section Catalogs
variable (acc : Accepted ext catalog)
include acc

/-- A URLTest is refused for its size only when all of it does not fit. -/
theorem compileUrltestAction_refused {b : ClientChainProjectionBudget} {sample : CachedUrltestAction} (valid : Valid ext catalog b)
    (known : Known catalog o) (image : UrltestImage ext catalog o sample) (kind : o.kind = .urltest) :
    Ensures (compileUrltestAction ext catalog o) b (Outcome (fun _ _ => True) (fun e _ => e.isProjection → ¬ b.ledger.fits sample.cost)) := by
  refine Ensures.look_bind ?_
  cases hit : b.urltestSamples[o.id]? with
  | some held =>
    obtain ⟨o',known',same,image'⟩ := valid.urltests o.id held hit
    cases acc.indexed.ids o'.tag o.tag o' o known' known same
    cases image.unique image'
    exact Ensures.bind reserve_spec (fun _ _ _ => trivial) (fun _ _ refused _ => refused.2.2)
  | none =>
    refine Ensures.look_bind ?_
    split
    · exact fun projection => absurd projection Bool.false_ne_true
    · obtain ⟨d,resolved,hops,parsed,resolution,chains,made⟩ := image
      have plain := urltest_candidates acc known kind parsed resolution
      have cost_eq : (totalProjection ext hops).cost (serializedJsonLen ext (.object (withHistory d.selection (firstByReal resolved)))) = sample.cost := by
        rw [made]
      rw [parsed]
      refine Ensures.pure_bind ?_
      refine Ensures.bind (addCandidates_spec acc valid resolution) ?_ (fun _ _ refused projection => absurd projection refused.2.1)
      rintro candidates b₁ ⟨rfl,_,valid₁,same₁⟩
      rw [← same₁]
      refine Ensures.bind (expandMembers_spec acc valid₁ plain chains) ?_ ?_
      · rintro expansion b₂ ⟨rfl,valid₂,same₂⟩
        dsimp only
        rw [cost_eq,← same₂]
        exact Ensures.bind reserve_spec (fun _ _ _ => trivial) (fun _ _ refused _ => refused.2.2)
      · rintro e b₂ ⟨_,exceeded,_,_⟩ _
        rw [← cost_eq]
        exact exceeded

theorem outboundClientAction_refused {b : ClientChainProjectionBudget} {action : CompiledOutboundAction} {bill : Bill}
    (valid : Valid ext catalog b) (known : Known catalog o) (projects : Projects ext catalog o action bill) :
    Ensures (outboundClientAction ext catalog o) b (Outcome (fun _ _ => True) (fun e _ => e.isProjection → ¬ b.ledger.fits bill.cost)) := by
  have resolving := resolveStaticSelectorOutbound_quiet acc MAX_OUTBOUND_REFERENCE_DEPTH o [] known (depthOf_le acc known)
    (fun a member => absurd member List.not_mem_nil)
  unfold ClientChains.outboundClientAction
  refine Ensures.bind (resolving b valid) ?_ (fun _ _ failed => failed.elim)
  rintro t b₁ ⟨ends,valid₁,same₁⟩
  have known_t := ends.known acc known
  rw [← same₁]
  cases projects with
  | urltest ends' kind image =>
    cases ends.unique ends'
    rw [if_pos kind]
    exact compileUrltestAction_refused acc valid₁ known_t image kind
  | plain ends' kind chain =>
    cases ends.unique ends'
    rw [if_neg kind]
    refine Ensures.bind (prepareOutboundClientChains_quiet acc known_t (plain_of_kind acc known_t ⟨ends.kind,kind⟩) b₁ valid₁) ?_
      (fun _ _ failed => failed.elim)
    rintro _ b₂ ⟨⟨hops,chain',hit⟩,_,same₂⟩
    cases chain.unique (ends.chain chain')
    rw [← same₂]
    refine Ensures.look_bind ?_
    rw [hit]
    exact Ensures.bind reserve_spec (fun _ _ _ => trivial) (fun _ _ refused _ => refused.2.2)

theorem Charges.outboundClientAction {action : CompiledOutboundAction} {bill : Bill} (known : Known catalog o)
    (projects : Projects ext catalog o action bill) : Charges ext catalog (ClientChains.outboundClientAction ext catalog o) [bill] (· = action) := by
  intro b valid
  have met := outboundClientAction_meets acc valid known projects
  refine (met.and (outboundClientAction_refused acc valid known projects)).mono ?_
  rintro (e | a) b' ⟨outcome,refused⟩
  · exact fun projection => ⟨[],bill,[],b.ledger,rfl,.nil,refused projection⟩
  · obtain ⟨same,admits,valid',settled⟩ := outcome
    exact ⟨same,valid',settled ▸ .cons admits .nil⟩

end Catalogs

end NodeAgent.ClientChains
