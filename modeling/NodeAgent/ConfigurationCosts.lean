import NodeAgent.CompiledSurfaces
import NodeAgent.ProjectionCosts
import NodeAgent.Utf8Bytes

/-!
The budget of a configuration. What has been reserved when a topology is compiled is what the
emitted configuration carries: the client chains of every rule and every DNS server, copies
of servers included. The outbounds whose chains are embedded are known beforehand, so that a
refusal is one of the whole projection.
-/
namespace NodeAgent.Compile
open NodeAgent.Api NodeAgent.Json NodeAgent.FiniteMap NodeAgent.OutboundAdapter NodeAgent.Outbounds NodeAgent.ClientChains NodeAgent.RouteRules
open NodeAgent.DnsServers NodeAgent.Inbounds NodeAgent.Fallible
open NodeAgent.Runtime (CompiledInbound)

/-! ### What a configuration carries -/

section Measures
variable (ext : Externals)

def objectCost (chainField : String) : Value → ClientChainProjectionCost
  | .object fields => embeddedCost ext chainField fields
  | _ => 0

def elements : Option Value → List Value
  | some (.array values) => values
  | _ => []

/-- The rules of an inbound. -/
def rulesCost (rules : List Value) : ClientChainProjectionCost := (rules.map (objectCost ext "client_chains")).sum

/-- The servers of a `dns` object. -/
def dnsCost (dns : Value) : ClientChainProjectionCost := ((elements (dns.get "servers")).map (objectCost ext "client_chain")).sum

def inboundCost (config : Value) : ClientChainProjectionCost :=
  rulesCost ext (elements (config.get "rules")) + ((config.get "dns").map (dnsCost ext)).getD 0

def configurationCost (runtime : RuntimeConfig) : ClientChainProjectionCost :=
  (runtime.urltestProbeDns.map (dnsCost ext)).getD 0 + (runtime.inbounds.map (fun inbound => inboundCost ext inbound.spec.config)).sum

end Measures

/-! ### What is embedded -/

section Embedded
variable (ext : Externals) (outbounds : Catalog)

/-- The outbound that a rule names. -/
def ruleOutbound (rule : RouteRule) : Option ValidatedOutbound :=
  if rule.action ∈ ["","route"] ∧ ¬ rule.outbound.isEmpty then outbounds[rule.outbound]? else none

/-- What a rule embeds into an inbound. -/
def embeddedByRule (inboundTag : String) (rule : RouteRule) : List ValidatedOutbound :=
  if appliesTo inboundTag rule then (ruleOutbound outbounds rule).toList else []

/-- The outbound of every rule of an inbound, and the one for what no rule matches. -/
def embeddedInRules (route : Option Route) (inboundTag : String) : List ValidatedOutbound :=
  (routeRules route).flatMap (embeddedByRule outbounds inboundTag) ++
    (finalOutbound ext outbounds route).toOption.toList

def detourOutbound (server : DnsServer) : Option ValidatedOutbound :=
  if server.detour.isEmpty then none else outbounds[server.detour]?

/-- The detour of the server with a tag. -/
def sourceOutbound (dns : Option Dns) (tag : String) : Option ValidatedOutbound :=
  ((serverList dns).find? (fun server => server.tag = tag)).bind (detourOutbound outbounds)

/-- The query options of a rule, unless it has none. -/
def askedQuery (rule : DnsRule) (index : Nat) : Option DnsServerQueryProfile :=
  if rule.action = "route" then (parseDnsServerQueryProfile ext rule index).toOption.filter (fun query => !query.isDefault) else none

/-- The variant that a rule asks for on an inbound. -/
def askedVariant (strategies : IpStrategies) (inboundTag : Option String) (entry : DnsRule × Nat) : Option DnsServerVariantKey :=
  if dnsRuleApplies inboundTag entry.1 then
    (askedQuery ext entry.1 entry.2).map (fun query => ⟨entry.1.server,strategies.get entry.1.server,query⟩)
  else none

/-- The variants that are asked for and were not there before. -/
def newVariants : List DnsServerVariantKey → List DnsServerVariantKey → List DnsServerVariantKey
  | _, [] => []
  | there, key :: rest => if key ∈ there then newVariants there rest else key :: newVariants (key :: there) rest

/-- The detours of the servers that variants are copies of. -/
def embeddedByVariants (dns : Option Dns) (keys : List DnsServerVariantKey) : List ValidatedOutbound :=
  keys.flatMap (fun key => (sourceOutbound outbounds dns key.sourceTag).toList)

/-- The outbounds of the servers of one `dns` object. -/
def embeddedInDns (dns : Option Dns) (strategies : IpStrategies) (projection : OutboundDnsProjection) (inboundTag : Option String) :
    List ValidatedOutbound :=
  (serverList dns).flatMap (fun server => (detourOutbound projection.outbounds server).toList) ++
    embeddedByVariants projection.outbounds dns (projection.variants.map DnsServerVariant.key) ++
    embeddedByVariants projection.outbounds dns (newVariants (projection.variants.map DnsServerVariant.key)
      ((dnsRules dns).zipIdx.filterMap (askedVariant ext strategies inboundTag)))

/-- What the inbound with a tag embeds. -/
def embeddedInInbound (surface : Surface) (tag : String) : List ValidatedOutbound :=
  embeddedInRules ext surface.projection.outbounds surface.route tag ++ embeddedInDns ext surface.dns surface.strategies surface.projection (some tag)

/-- The outbounds whose chains are embedded into a configuration, one for every copy. -/
def embedded (surface : Surface) (inboundTags : List String) : List ValidatedOutbound :=
  embeddedInDns ext surface.dns surface.strategies surface.projection none ++ inboundTags.flatMap (embeddedInInbound ext surface)

end Embedded

/-! ### Rules -/

section Charged
variable {ext : Externals} {dext : DnsExternals} {outbounds : Catalog} {ruleSets : RuleSets} {route : Option Route} {o : ValidatedOutbound}
variable (acc : Accepted ext outbounds) (texts : WritesJson ext)

/-- The cost of the outbounds that are embedded. -/
noncomputable def costOf (ext : Externals) (outbounds : Catalog) (os : List ValidatedOutbound) : ClientChainProjectionCost :=
  (os.map (fun o => (billOf ext outbounds o).cost)).sum

omit acc texts in
@[simp] theorem costOf_nil : costOf ext outbounds [] = 0 := rfl

omit acc texts in
@[simp] theorem costOf_append (os ps : List ValidatedOutbound) : costOf ext outbounds (os ++ ps) = costOf ext outbounds os + costOf ext outbounds ps := by
  simp [costOf]

omit acc texts in
@[simp] theorem costOf_singleton : costOf ext outbounds [o] = (billOf ext outbounds o).cost := by
  simp [costOf]

omit acc texts in
theorem embedded_apply {target : Fields} {chainField : String} {action : CompiledOutboundAction}
    (unset : Fields.get target "client_chain_selection" = none) (different : chainField ≠ "client_chain_selection") :
    embeddedCost ext chainField (applyOutboundAction target chainField action) = actionCost ext action := by
  unfold embeddedCost fieldBytes applyOutboundAction actionCost
  cases action.clientChainSelection with
  | none => simp [Fields.insertSome,unset,different]
  | some selection => simp [Fields.insertSome,Ne.symm different]

include acc texts in
theorem withOutbound_charges {compiled : Fields} {outbound : Option ValidatedOutbound} (known : ∀ o, outbound = some o → Known outbounds o)
    (unset : Fields.get compiled "client_chain_selection" = none) (bare : Fields.get compiled "client_chains" = none) :
    Charges ext outbounds (withOutbound ext outbounds compiled outbound) (outbound.toList.map (billOf ext outbounds))
      (fun fields => embeddedCost ext "client_chains" fields = costOf ext outbounds outbound.toList) := by
  cases outbound with
  | none =>
    refine .pure ?_
    simp [embeddedCost,fieldBytes,unset,bare]
    rfl
  | some o =>
    obtain ⟨action,bill,projects⟩ := exists_projection acc (known o rfl)
    rw [Option.toList_some,List.map_singleton,billOf_eq projects]
    refine (Charges.outboundClientAction acc (known o rfl) projects).andThen ?_
    rintro _ rfl
    refine .pure ?_
    rw [embedded_apply unset (by decide),costOf_singleton,billOf_eq projects]
    exact (projects.cost texts).symm

/-- The outbound of a rule is the one that it names. -/
theorem compileRuleAction_spec {rule : RouteRule} {index : Nat} {action : String} {outbound : Option ValidatedOutbound}
    (done : compileRuleAction ext outbounds rule index = .ok (action,outbound)) : outbound = ruleOutbound outbounds rule := by
  unfold compileRuleAction at done
  unfold ruleOutbound
  split at done
  · next reject =>
    split at done
    · cases done
    · next unnamed =>
      cases done
      rw [if_neg]
      exact fun named => named.2 (by simpa using unnamed)
  split at done
  · next routed =>
    split at done
    · cases done
    split at done
    · next unnamed =>
      cases done
      rw [if_neg]
      simp [unnamed]
    · next named =>
      split at done
      · cases done
      · next there =>
        cases done
        rw [if_pos ⟨routed,by simpa using named⟩,there]
  · cases done

theorem ruleOutbound_known (indexed : Indexed outbounds) {rule : RouteRule} (names : ruleOutbound outbounds rule = some o) : Known outbounds o := by
  unfold ruleOutbound at names
  split at names
  · rw [Known,indexed.tags _ _ names]
    exact names
  · cases names

include acc texts in
theorem compileRouteRule_charges (rule : RouteRule) (index : Nat) :
    Charges ext outbounds (compileRouteRule ext outbounds ruleSets rule index) ((ruleOutbound outbounds rule).toList.map (billOf ext outbounds))
      (fun value => objectCost ext "client_chains" value = costOf ext outbounds (ruleOutbound outbounds rule).toList) := by
  unfold compileRouteRule
  refine .check_bind (fun _ _ => .check_bind ?_)
  rintro ⟨action,outbound⟩ acted
  cases compileRuleAction_spec acted
  refine .check_bind (fun matchConfig _ => ?_)
  refine (withOutbound_charges acc texts (fun o names => ruleOutbound_known acc.indexed names) ?_ ?_).andThen ?_
  · simp [ruleWith,Fields.of,Fields.get]
  · simp [ruleWith,Fields.of,Fields.get]
  · intro fields cost
    refine .pure ?_
    rw [← cost]
    split <;> simp [objectCost,embeddedCost,fieldBytes]

include acc texts in
theorem addRule_charges (inboundTag : String) (sniffEnabled : Bool) (rules : List Value) (entry : RouteRule × Nat) :
    Charges ext outbounds (addRule ext outbounds ruleSets inboundTag sniffEnabled rules entry)
      ((embeddedByRule outbounds inboundTag entry.1).map (billOf ext outbounds))
      (fun rules' => rulesCost ext rules' = rulesCost ext rules + costOf ext outbounds (embeddedByRule outbounds inboundTag entry.1)) := by
  unfold addRule embeddedByRule
  cases appliesTo inboundTag entry.1 with
  | false => exact .pure (by simp)
  | true =>
    rw [if_neg (by decide),if_pos rfl]
    split
    · exact .fail Bool.false_ne_true
    · refine (compileRouteRule_charges acc texts entry.1 entry.2).andThen ?_
      intro value cost
      refine .pure ?_
      simp [rulesCost,cost]

omit acc texts in
theorem flatMap_zipIdx {α β : Type} (xs : List α) (f : α → List β) : xs.zipIdx.flatMap (fun entry => f entry.1) = xs.flatMap f := by
  conv_rhs => rw [← List.zipIdx_map_fst 0 xs,List.flatMap_map]

omit acc texts in
theorem finalOutbound_known (indexed : Indexed outbounds) (done : finalOutbound ext outbounds route = .ok o) : Known outbounds o := by
  unfold finalOutbound at done
  dsimp only at done
  have named {tag : String} (there : outbounds[tag]? = some o) : Known outbounds o := by
    rw [Known,indexed.tags _ _ there]
    exact there
  split at done
  · split at done
    · cases done
    · next there =>
      cases done
      exact named there
  · split at done
    · cases done
    · next there =>
      cases done
      exact named there

include acc texts in
theorem compileRulesForInbound_charges (inboundTag : String) (sniffEnabled : Bool) :
    Charges ext outbounds (compileRulesForInbound ext outbounds ruleSets route inboundTag sniffEnabled)
      ((embeddedInRules ext outbounds route inboundTag).map (billOf ext outbounds))
      (fun rules => rulesCost ext rules = costOf ext outbounds (embeddedInRules ext outbounds route inboundTag)) := by
  unfold compileRulesForInbound embeddedInRules
  rw [List.map_append,List.map_flatMap]
  have loop : Charges ext outbounds (foldEach (addRule ext outbounds ruleSets inboundTag sniffEnabled) [] (routeRules route).zipIdx)
      ((routeRules route).zipIdx.flatMap (fun entry : RouteRule × Nat => (embeddedByRule outbounds inboundTag entry.1).map (billOf ext outbounds)))
      (fun rules => rulesCost ext rules =
        costOf ext outbounds ((routeRules route).zipIdx.flatMap (fun entry : RouteRule × Nat => embeddedByRule outbounds inboundTag entry.1))) := by
    refine Charges.foldEach _ (fun done rules => rulesCost ext rules =
      costOf ext outbounds (done.flatMap (fun entry : RouteRule × Nat => embeddedByRule outbounds inboundTag entry.1))) rfl ?_
    intro done entry rest rules _ cost
    refine (addRule_charges acc texts inboundTag sniffEnabled rules entry).mono ?_
    intro rules' cost'
    rw [cost',cost,List.flatMap_append,costOf_append,List.flatMap_singleton]
  rw [flatMap_zipIdx (routeRules route) (embeddedByRule outbounds inboundTag),
    flatMap_zipIdx (routeRules route) (fun rule => (embeddedByRule outbounds inboundTag rule).map (billOf ext outbounds))] at loop
  refine loop.bind ?_
  intro rules cost
  refine .check_bind (fun outbound final => ?_)
  have known : ∀ o, some outbound = some o → Known outbounds o := by
    rintro o ⟨⟩
    exact finalOutbound_known acc.indexed final
  rw [final]
  refine (withOutbound_charges acc texts known ?_ ?_).andThen ?_
  · simp [ruleWith,Fields.of,Fields.get]
  · simp [ruleWith,Fields.of,Fields.get]
  · intro fields cost'
    refine .pure ?_
    rw [costOf_append,← cost]
    simp only [rulesCost,List.map_append,List.sum_append,List.map_singleton,List.sum_singleton,objectCost]
    rw [cost']
    rfl

/-! ### Servers -/

/-- The client chains of a server are those of its detour. -/
def Carries (ext : Externals) (outbounds : Catalog) (fields : Fields) (detour : Option ValidatedOutbound) : Prop :=
  match detour with
  | none => Fields.get fields "client_chain" = none ∧ Fields.get fields "client_chain_selection" = none
  | some o => ∃ action bill, Projects ext outbounds o action bill ∧ Fields.get fields "client_chain" = some action.clientChains ∧
      Fields.get fields "client_chain_selection" = action.clientChainSelection.map .object

/-- A copy is billed for what the projection was billed for. -/
noncomputable def copyOf (ext : Externals) (outbounds : Catalog) (o : ValidatedOutbound) : Bill := .plain (billOf ext outbounds o).cost

theorem copies_cost (os : List ValidatedOutbound) : ((os.map (copyOf ext outbounds)).map Bill.cost).sum = costOf ext outbounds os := by
  rw [List.map_map]
  rfl

include texts in
theorem carries_cost {fields : Fields} {detour : Option ValidatedOutbound} (carries : Carries ext outbounds fields detour) :
    embeddedCost ext "client_chain" fields = costOf ext outbounds detour.toList := by
  cases detour with
  | none =>
    obtain ⟨bare,unset⟩ := carries
    simp only [embeddedCost,fieldBytes,bare,unset]
    rfl
  | some o =>
    obtain ⟨action,bill,projects,chains,selection⟩ := carries
    rw [Option.toList_some,costOf_singleton,billOf_eq projects,projects.cost texts]
    simp only [embeddedCost,fieldBytes,actionCost,chains,selection]
    cases action.clientChainSelection <;> rfl

theorem plainServer_bare {strategies : IpStrategies} {server : DnsServer} {url : String} :
    Fields.get (plainServer strategies server url) "client_chain" = none ∧
      Fields.get (plainServer strategies server url) "client_chain_selection" = none := by
  simp [plainServer,Fields.of,Fields.get]

theorem detourOutbound_known (indexed : Indexed outbounds) {server : DnsServer} (names : detourOutbound outbounds server = some o) : Known outbounds o := by
  unfold detourOutbound at names
  split at names
  · cases names
  · rw [Known,indexed.tags _ _ names]
    exact names

include acc in
theorem withDetour_charges {strategies : IpStrategies} {server : DnsServer} {url : String} :
    Charges ext outbounds (withDetour ext outbounds server (plainServer strategies server url))
      ((detourOutbound outbounds server).toList.map (billOf ext outbounds))
      (fun fields => Carries ext outbounds fields (detourOutbound outbounds server)) := by
  obtain ⟨bare,unset⟩ := @plainServer_bare strategies server url
  unfold withDetour
  split
  · next direct =>
    rw [detourOutbound,if_pos direct]
    exact .pure ⟨bare,unset⟩
  · next behind =>
    split
    · exact .fail Bool.false_ne_true
    · rw [detourOutbound,if_neg behind]
      cases there : outbounds[server.detour]? with
      | none => exact .fail Bool.false_ne_true
      | some o =>
        have known : Known outbounds o := by
          rw [Known,acc.indexed.tags _ _ there]
          exact there
        obtain ⟨action,bill,projects⟩ := exists_projection acc known
        rw [Option.toList_some,List.map_singleton,billOf_eq projects]
        refine (Charges.outboundClientAction acc known projects).andThen ?_
        rintro made rfl
        refine .pure ⟨made,bill,projects,?_,?_⟩
        · cases selection : made.clientChainSelection <;> simp [applyOutboundAction,Fields.insertSome,selection]
        · cases selection : made.clientChainSelection <;> simp [applyOutboundAction,Fields.insertSome,selection,unset]

/-- The cost of servers before they are put into an object. -/
def serversCost (ext : Externals) (servers : List Fields) : ClientChainProjectionCost := (servers.map (embeddedCost ext "client_chain")).sum

theorem serversCost_append (servers : List Fields) (fields : Fields) :
    serversCost ext (servers ++ [fields]) = serversCost ext servers + embeddedCost ext "client_chain" fields := by
  simp [serversCost]

/-- The servers compiled so far. -/
structure Served (ext : Externals) (outbounds : Catalog) (done : List DnsServer) (so_far : CompiledDnsServers) : Prop where
  found : ∀ tag, so_far.servers[tag]? = done.find? (fun server => server.tag = tag)
  carried : ∀ (tag : String) (fields : Fields), so_far.byTag[tag]? = some fields →
    ∃ server, done.find? (fun server => server.tag = tag) = some server ∧ Carries ext outbounds fields (detourOutbound outbounds server)
  cost : serversCost ext so_far.compiled = costOf ext outbounds (done.flatMap (fun server => (detourOutbound outbounds server).toList))

theorem find_append {done : List DnsServer} {server : DnsServer} {tag : String} (fresh : done.find? (fun other => other.tag = server.tag) = none) :
    (done ++ [server]).find? (fun other => other.tag = tag) = if server.tag = tag then some server else done.find? (fun other => other.tag = tag) := by
  rw [List.find?_append]
  split
  · next same => simp [← same,fresh]
  · next different => simp [different]

include acc texts in
theorem addDnsServer_charges {strategies : IpStrategies} {done : List DnsServer} {so_far : CompiledDnsServers} {server : DnsServer}
    (served : Served ext outbounds done so_far) :
    Charges ext outbounds (addDnsServer ext outbounds strategies so_far server) ((detourOutbound outbounds server).toList.map (billOf ext outbounds))
      (Served ext outbounds (done ++ [server])) := by
  refine .check_bind (fun _ _ => .check_bind (fun _ unused => .check_bind (fun url _ => ?_)))
  have fresh : done.find? (fun other => other.tag = server.tag) = none := by
    rw [← served.found]
    simpa [refuse] using unused
  refine (withDetour_charges acc).andThen ?_
  intro fields carries
  refine .pure ⟨?_,?_,?_⟩
  · intro tag
    rw [lookup_insert,find_append fresh,served.found]
  · intro tag fields' there
    rw [lookup_insert] at there
    rw [find_append fresh]
    split at there
    · next same =>
      cases there
      rw [if_pos same]
      exact ⟨server,rfl,carries⟩
    · next different =>
      rw [if_neg different]
      exact served.carried tag fields' there
  · rw [serversCost_append,served.cost,carries_cost texts carries,List.flatMap_append,costOf_append,List.flatMap_singleton]

/-! ### Copies of servers -/

include texts in
theorem reserveEmbeddedOutboundAction_charges {source : Fields} {detour : Option ValidatedOutbound} {context : String}
    (carries : Carries ext outbounds source detour) :
    Charges ext outbounds (reserveEmbeddedOutboundAction ext source "client_chain" context) (detour.toList.map (copyOf ext outbounds)) (fun _ => True) := by
  unfold reserveEmbeddedOutboundAction
  cases detour with
  | none =>
    rw [carries.1]
    exact .pure trivial
  | some o =>
    obtain ⟨action,bill,projects,chains,selection⟩ := carries
    obtain ⟨hops,listed⟩ := projects.chains
    rw [chains,listed]
    refine .check_bind (fun projection inspected => ?_)
    rw [inspect_chains] at inspected
    cases inspected
    have cost : (totalProjection ext hops).cost (((Fields.get source "client_chain_selection").map (serializedJsonLen ext)).getD 0) =
        (billOf ext outbounds o).cost := by
      rw [billOf_eq projects,projects.cost texts,selection,actionCost,listed,chains_hops,chains_length texts]
      cases action.clientChainSelection <;> rfl
    dsimp only
    rw [cost]
    exact .reserve

theorem variantServer_get {source : Fields} {variant : DnsServerVariant} {name : String}
    (other : name ∈ ["client_chain","client_chain_selection"]) : Fields.get (variantServer source variant) name = Fields.get source name := by
  have names : ∀ field ∈ ["tag","__acp_source_tag","ip_strategy","disable_cache","rewrite_ttl","client_subnet"], field ≠ name := by
    rintro field member rfl
    revert other
    revert field
    decide
  simp only [List.forall_mem_cons] at names
  obtain ⟨tag,source_tag,strategy,cache,ttl,subnet,_⟩ := names
  unfold variantServer applyDnsServerQueryProfile
  cases variant.key.query.disableCache <;> cases variant.key.query.rewriteTtl <;> cases variant.key.query.clientSubnet <;>
    simp [Fields.insertSome,tag,source_tag,strategy,cache,ttl,subnet]

theorem variantServer_cost (source : Fields) (variant : DnsServerVariant) :
    embeddedCost ext "client_chain" (variantServer source variant) = embeddedCost ext "client_chain" source := by
  unfold embeddedCost fieldBytes
  rw [variantServer_get (by decide),variantServer_get (by decide)]

/-- The variants that have been emitted. -/
structure Emitted (ext : Externals) (there : List DnsServerVariantKey) (cost : ClientChainProjectionCost) (emitted : EmittedDnsServers) : Prop where
  keys : ∀ key, (emitted.variant key).isSome ↔ key ∈ there
  cost_eq : serversCost ext emitted.compiled = cost

section Copies
variable {dns : Option Dns} {so_far : CompiledDnsServers} (served : Served ext outbounds (serverList dns) so_far)
include served

omit served in
theorem emit_spec {emitted : EmittedDnsServers} {there : List DnsServerVariantKey} {cost more : ClientChainProjectionCost} {source : Fields}
    {variant : DnsServerVariant} (held : Emitted ext there cost emitted) (added : embeddedCost ext "client_chain" source = more) :
    Emitted ext (variant.key :: there) (cost + more) ⟨emitted.compiled ++ [variantServer source variant],
      (variant.key,variant.tag) :: emitted.profileVariants,emitted.emittedTags ++ [variant.tag]⟩ := by
  refine ⟨?_,?_⟩
  · intro key
    have earlier := held.keys key
    unfold EmittedDnsServers.variant at earlier ⊢
    by_cases same : variant.key = key
    · simp [same]
    · rw [List.find?_cons_of_neg (by simpa using same),earlier]
      simp [Ne.symm same]
  · rw [serversCost_append,held.cost_eq,variantServer_cost,added]

theorem source_carries {tag : String} {source : Fields} (there : so_far.byTag[tag]? = some source) :
    Carries ext outbounds source (sourceOutbound outbounds dns tag) := by
  obtain ⟨server,found,carries⟩ := served.carried tag source there
  rw [sourceOutbound,found]
  exact carries

include texts in
theorem emitVariant_charges {emitted : EmittedDnsServers} {there : List DnsServerVariantKey} {cost : ClientChainProjectionCost}
    {variant : DnsServerVariant} (held : Emitted ext there cost emitted) :
    Charges ext outbounds (emitVariant ext so_far.byTag emitted variant)
      ((sourceOutbound outbounds dns variant.key.sourceTag).toList.map (copyOf ext outbounds))
      (Emitted ext (variant.key :: there) (cost + costOf ext outbounds (sourceOutbound outbounds dns variant.key.sourceTag).toList)) := by
  unfold emitVariant
  cases found : so_far.byTag[variant.key.sourceTag]? with
  | none => exact .fail Bool.false_ne_true
  | some source =>
    have carries := source_carries served found
    refine (reserveEmbeddedOutboundAction_charges texts carries).andThen (fun _ _ => ?_)
    split
    · exact .fail Bool.false_ne_true
    · exact .pure (emit_spec held (carries_cost texts carries))

include texts in
theorem variantForRule_charges {emitted : EmittedDnsServers} {there : List DnsServerVariantKey} {cost : ClientChainProjectionCost}
    {key : DnsServerVariantKey} {index : Nat} (held : Emitted ext there cost emitted) :
    Charges ext outbounds (variantForRule ext so_far.byTag emitted key index)
      ((embeddedByVariants outbounds dns (newVariants there [key])).map (copyOf ext outbounds))
      (fun result => Emitted ext (newVariants there [key] ++ there)
        (cost + costOf ext outbounds (embeddedByVariants outbounds dns (newVariants there [key]))) result.2) := by
  unfold variantForRule
  cases known : emitted.variant key with
  | some tag =>
    have member : key ∈ there := (held.keys key).mp (by rw [known]; rfl)
    simp only [newVariants,if_pos member]
    exact .pure (by simpa [embeddedByVariants] using held)
  | none =>
    have fresh : key ∉ there := by
      intro member
      have impossible := (held.keys key).mpr member
      rw [known] at impossible
      cases impossible
    simp only [newVariants,if_neg fresh,embeddedByVariants,List.flatMap_singleton]
    split
    · exact .fail Bool.false_ne_true
    · cases found : so_far.byTag[key.sourceTag]? with
      | none => exact .fail Bool.false_ne_true
      | some source =>
        have carries := source_carries served found
        exact (reserveEmbeddedOutboundAction_charges texts carries).andThen (fun _ _ =>
          .pure (@emit_spec _ _ _ _ _ _ ⟨dnsProfileVariantTag ext key,key⟩ held (carries_cost texts carries)))

end Copies

/-! ### The DNS of an inbound -/

theorem compileDnsRule_query {servers : Map String DnsServer} {rule : DnsRule} {index : Nat} {fields : Fields} {query : Option DnsServerQueryProfile}
    (done : compileDnsRule ext dext servers ruleSets rule index = .ok (fields,query)) : query = askedQuery ext rule index := by
  obtain ⟨_,_,done⟩ := bind_ok done
  obtain ⟨compiled,_,done⟩ := bind_ok done
  unfold askedQuery
  split at done
  · next routed =>
    rw [if_pos routed]
    obtain ⟨_,_,done⟩ := bind_ok done
    obtain ⟨asked,parsed,done⟩ := bind_ok done
    obtain ⟨_,_,done⟩ := bind_ok done
    obtain ⟨_,_,done⟩ := bind_ok done
    obtain ⟨_,_,done⟩ := bind_ok done
    have same : query = if asked.isDefault then none else some asked := by
      dsimp only at done
      split at done
      · obtain ⟨_,_,done⟩ := bind_ok done
        cases done
        rfl
      · obtain ⟨_,_,done⟩ := bind_ok done
        cases done
        rfl
    rw [parsed,same]
    cases plain : asked.isDefault <;> simp [Except.toOption,Option.filter,plain]
  · next other =>
    rw [if_neg other]
    split at done
    · obtain ⟨_,_,done⟩ := bind_ok done
      cases done
      rfl
    · split at done
      · obtain ⟨_,_,done⟩ := bind_ok done
        cases done
        rfl
      · cases done

theorem newVariants_option (asked : Option DnsServerVariantKey) : ∀ (there rest : List DnsServerVariantKey),
    newVariants there (asked.toList ++ rest) = newVariants there asked.toList ++ newVariants (newVariants there asked.toList ++ there) rest := by
  intro there rest
  cases asked with
  | none => rfl
  | some key =>
    simp only [Option.toList_some,List.singleton_append,newVariants]
    split <;> rfl

/-- The bills for the servers of one `dns` object, in the order in which they are settled. -/
noncomputable def dnsBills (ext : Externals) (dns : Option Dns) (strategies : IpStrategies) (projection : OutboundDnsProjection)
    (inboundTag : Option String) : List Bill :=
  (serverList dns).flatMap (fun server => (detourOutbound projection.outbounds server).toList.map (billOf ext projection.outbounds)) ++
    ((embeddedByVariants projection.outbounds dns (projection.variants.map DnsServerVariant.key)).map (copyOf ext projection.outbounds) ++
      (embeddedByVariants projection.outbounds dns (newVariants (projection.variants.map DnsServerVariant.key)
        ((dnsRules dns).zipIdx.filterMap (askedVariant ext strategies inboundTag)))).map (copyOf ext projection.outbounds))

theorem dnsBills_cost {dns : Option Dns} {strategies : IpStrategies} {projection : OutboundDnsProjection} {inboundTag : Option String} :
    ((dnsBills ext dns strategies projection inboundTag).map Bill.cost).sum =
      costOf ext projection.outbounds (embeddedInDns ext dns strategies projection inboundTag) := by
  unfold dnsBills embeddedInDns
  rw [← List.map_flatMap,List.map_append,List.map_append,List.sum_append,List.sum_append,copies_cost,copies_cost,List.map_map,costOf_append,
    costOf_append,add_assoc]
  rfl

section Dns
variable {dns : Option Dns} {so_far : CompiledDnsServers} {strategies : IpStrategies} {inboundTag : Option String}

include texts in
theorem addDnsRule_charges (served : Served ext outbounds (serverList dns) so_far) {there : List DnsServerVariantKey} {cost : ClientChainProjectionCost}
    {compiled : CompiledDnsRules} {entry : DnsRule × Nat} (held : Emitted ext there cost compiled.emitted) :
    Charges ext outbounds (addDnsRule ext dext strategies ruleSets inboundTag so_far compiled entry)
      ((embeddedByVariants outbounds dns (newVariants there (askedVariant ext strategies inboundTag entry).toList)).map (copyOf ext outbounds))
      (fun result => Emitted ext (newVariants there (askedVariant ext strategies inboundTag entry).toList ++ there)
        (cost + costOf ext outbounds (embeddedByVariants outbounds dns (newVariants there (askedVariant ext strategies inboundTag entry).toList)))
        result.emitted) := by
  refine .check_bind ?_
  rintro ⟨fields,query⟩ done
  have asks := compileDnsRule_query done
  unfold askedVariant
  cases applies : dnsRuleApplies inboundTag entry.1 with
  | false => exact .pure (by simpa [newVariants,embeddedByVariants] using held)
  | true =>
    rw [← asks]
    cases query with
    | none => exact .pure (by simpa [newVariants,embeddedByVariants] using held)
    | some query => exact (variantForRule_charges texts served held).andThen (fun result emitted => .pure emitted)

include texts in
theorem addDnsRules_charges (served : Served ext outbounds (serverList dns) so_far) (entries : List (DnsRule × Nat)) :
    ∀ (there : List DnsServerVariantKey) (cost : ClientChainProjectionCost) (compiled : CompiledDnsRules), Emitted ext there cost compiled.emitted →
      Charges ext outbounds (foldEach (addDnsRule ext dext strategies ruleSets inboundTag so_far) compiled entries)
        ((embeddedByVariants outbounds dns (newVariants there (entries.filterMap (askedVariant ext strategies inboundTag)))).map (copyOf ext outbounds))
        (fun result => serversCost ext result.emitted.compiled = cost + costOf ext outbounds
          (embeddedByVariants outbounds dns (newVariants there (entries.filterMap (askedVariant ext strategies inboundTag))))) := by
  induction entries with
  | nil =>
    intro there cost compiled held
    exact .pure (by rw [held.cost_eq]; simp [newVariants,embeddedByVariants])
  | cons entry rest ih =>
    intro there cost compiled held
    have split : (entry :: rest).filterMap (askedVariant ext strategies inboundTag) =
        (askedVariant ext strategies inboundTag entry).toList ++ rest.filterMap (askedVariant ext strategies inboundTag) := by
      rw [List.filterMap_cons]
      cases askedVariant ext strategies inboundTag entry <;> rfl
    have grown (keys : List DnsServerVariantKey) : embeddedByVariants outbounds dns
        (newVariants there (askedVariant ext strategies inboundTag entry).toList ++ keys) =
        embeddedByVariants outbounds dns (newVariants there (askedVariant ext strategies inboundTag entry).toList) ++ embeddedByVariants outbounds dns keys :=
      List.flatMap_append
    rw [split,newVariants_option,grown,List.map_append]
    refine (addDnsRule_charges texts served held).bind (fun compiled' held' => ?_)
    refine (ih _ _ compiled' held').mono (fun result finished => ?_)
    rw [finished,costOf_append,add_assoc]

include acc texts in
theorem compileDnsParts_charges {projection : OutboundDnsProjection} (same : projection.outbounds = outbounds) :
    Charges ext outbounds (compileDnsParts ext dext dns ruleSets inboundTag strategies projection)
      (dnsBills ext dns strategies projection inboundTag)
      (fun parts => serversCost ext parts.servers = costOf ext outbounds (embeddedInDns ext dns strategies projection inboundTag)) := by
  subst same
  unfold compileDnsParts embeddedInDns dnsBills
  have servers : Charges ext projection.outbounds (foldEach (addDnsServer ext projection.outbounds strategies) ⟨∅,[],∅⟩ (serverList dns))
      ((serverList dns).flatMap (fun server => (detourOutbound projection.outbounds server).toList.map (billOf ext projection.outbounds)))
      (Served ext projection.outbounds (serverList dns)) :=
    Charges.foldEach _ (Served ext projection.outbounds) ⟨fun tag => by simp,fun tag fields impossible => by simp at impossible,rfl⟩
      (fun done server rest so_far _ served => addDnsServer_charges acc texts served)
  refine servers.bind (fun done served => ?_)
  have variants : Charges ext projection.outbounds (foldEach (emitVariant ext done.byTag) ⟨done.compiled,[],done.servers.keys⟩ projection.variants)
      (projection.variants.flatMap (fun variant =>
        (sourceOutbound projection.outbounds dns variant.key.sourceTag).toList.map (copyOf ext projection.outbounds)))
      (Emitted ext (projection.variants.map DnsServerVariant.key).reverse (serversCost ext done.compiled +
        costOf ext projection.outbounds (embeddedByVariants projection.outbounds dns (projection.variants.map DnsServerVariant.key)))) := by
    refine Charges.foldEach _ (fun some_variants => Emitted ext (some_variants.map DnsServerVariant.key).reverse (serversCost ext done.compiled +
      costOf ext projection.outbounds (embeddedByVariants projection.outbounds dns (some_variants.map DnsServerVariant.key)))) ?_ ?_
    · exact ⟨fun key => by simp [EmittedDnsServers.variant],by simp [embeddedByVariants]⟩
    · intro some_variants variant rest emitted _ held
      refine (emitVariant_charges texts served held).mono (fun emitted' held' => ?_)
      rw [List.map_append,List.map_singleton,List.reverse_append]
      simpa [embeddedByVariants,add_assoc] using held'
  have copies : projection.variants.flatMap (fun variant =>
        (sourceOutbound projection.outbounds dns variant.key.sourceTag).toList.map (copyOf ext projection.outbounds)) =
      (embeddedByVariants projection.outbounds dns (projection.variants.map DnsServerVariant.key)).map (copyOf ext projection.outbounds) := by
    rw [embeddedByVariants,List.flatMap_map,List.map_flatMap]
  rw [copies] at variants
  refine variants.bind (fun emitted held => .check_bind (fun final _ => ?_))
  have held' : Emitted ext (projection.variants.map DnsServerVariant.key) _ emitted := ⟨fun key => (held.keys key).trans List.mem_reverse,held.cost_eq⟩
  refine (addDnsRules_charges texts served _ _ _ ⟨emitted,[]⟩ held').andThen (fun result cost => .pure ?_)
  rw [cost,served.cost]
  simp only [costOf_append]

include acc texts in
theorem compileDns_charges {projection : OutboundDnsProjection} (same : projection.outbounds = outbounds) :
    Charges ext outbounds (compileDns ext dext dns ruleSets inboundTag strategies projection)
      (dnsBills ext dns strategies projection inboundTag)
      (fun value => dnsCost ext value = costOf ext outbounds (embeddedInDns ext dns strategies projection inboundTag)) := by
  refine (compileDnsParts_charges acc texts same).andThen (fun parts cost => .pure ?_)
  rw [← cost]
  unfold dnsCost CompiledDns.value serversCost
  have servers : ∀ rules, Fields.get (if rules.isEmpty then Fields.of [("servers",.array (parts.servers.map .object)),("final",.string parts.final)]
      else Fields.insert (Fields.of [("servers",.array (parts.servers.map .object)),("final",.string parts.final)]) "rules"
        (.array ((rules : List Fields).map .object))) "servers" = some (.array (parts.servers.map .object)) := by
    intro rules
    split <;> simp [Fields.of]
  dsimp only
  rw [get_object,servers,elements,List.map_map]
  rfl

end Dns

/-! ### Outbounds that are embedded -/

theorem sourceOutbound_known (indexed : Indexed outbounds) {dns : Option Dns} {tag : String} (names : sourceOutbound outbounds dns tag = some o) :
    Known outbounds o := by
  obtain ⟨server,_,behind⟩ := Option.bind_eq_some_iff.mp names
  exact detourOutbound_known indexed behind

theorem embeddedInRules_known (indexed : Indexed outbounds) {inboundTag : String} (member : o ∈ embeddedInRules ext outbounds route inboundTag) :
    Known outbounds o := by
  rcases List.mem_append.mp member with ruled | last
  · obtain ⟨rule,_,names⟩ := List.mem_flatMap.mp ruled
    unfold embeddedByRule at names
    split at names
    · exact ruleOutbound_known indexed (Option.mem_toList.mp names)
    · cases names
  · cases final : finalOutbound ext outbounds route with
    | error e =>
      rw [final] at last
      cases last
    | ok p =>
      rw [final] at last
      cases List.mem_singleton.mp last
      exact finalOutbound_known indexed final

theorem embeddedByVariants_known (indexed : Indexed outbounds) {dns : Option Dns} {keys : List DnsServerVariantKey}
    (member : o ∈ embeddedByVariants outbounds dns keys) : Known outbounds o := by
  obtain ⟨key,_,names⟩ := List.mem_flatMap.mp member
  exact sourceOutbound_known indexed (Option.mem_toList.mp names)

theorem embeddedInDns_known {dns : Option Dns} {strategies : IpStrategies} {projection : OutboundDnsProjection} {inboundTag : Option String}
    (indexed : Indexed projection.outbounds) (member : o ∈ embeddedInDns ext dns strategies projection inboundTag) : Known projection.outbounds o := by
  rcases List.mem_append.mp member with earlier | new
  · rcases List.mem_append.mp earlier with own | copied
    · obtain ⟨server,_,names⟩ := List.mem_flatMap.mp own
      exact detourOutbound_known indexed (Option.mem_toList.mp names)
    · exact embeddedByVariants_known indexed copied
  · exact embeddedByVariants_known indexed new

end Charged

variable (x : CompileExternals)

/-- The whole projection of a topology: its outbounds, and those that are embedded. -/
def wholeProjection (topology : MachineTopology) (route : Option Route) : Except String (Catalog × List ValidatedOutbound) := do
  let collected ← collectNodes x NOTHING_COLLECTED (sortedNodes topology.nodes)
  let surface ← compileSurface x topology route
  return (surface.projection.outbounds,embedded x.ext surface (collected.inbounds.map (fun inbound => inbound.spec.tag)))

/-! ### The budget -/

section Topologies
variable {x} {topology : MachineTopology} {route : Option Route} {surface : Surface}
variable (acc : Accepted x.ext surface.projection.outbounds) (texts : WritesJson x.ext)

noncomputable def inboundBills (ext : Externals) (surface : Surface) (tag : String) : List Bill :=
  (embeddedInRules ext surface.projection.outbounds surface.route tag).map (billOf ext surface.projection.outbounds) ++
    dnsBills ext surface.dns surface.strategies surface.projection (some tag)

theorem withRulesAndDns_cost {ext : Externals} {inbound : CompiledInbound Value} {rules : List Value} {dns : Value}
    (object : ∃ fields, inbound.spec.config = .object fields) :
    inboundCost ext (withRulesAndDns inbound rules dns).spec.config = rulesCost ext rules + dnsCost ext dns := by
  obtain ⟨fields,shape⟩ := object
  simp [inboundCost,withRulesAndDns,shape,elements]

include acc texts in
theorem completeInbound_charges {sniffEnabled : Map String Bool} {inbound : CompiledInbound Value}
    (object : ∃ fields, inbound.spec.config = .object fields) :
    Charges x.ext surface.projection.outbounds (completeInbound x surface sniffEnabled inbound) (inboundBills x.ext surface inbound.spec.tag)
      (fun done => inboundCost x.ext done.spec.config =
        costOf x.ext surface.projection.outbounds (embeddedInInbound x.ext surface inbound.spec.tag)) := by
  refine (compileRulesForInbound_charges acc texts _ _).bind (fun rules rules_cost => ?_)
  refine (compileDns_charges acc texts rfl).andThen (fun dns dns_cost => .pure ?_)
  rw [withRulesAndDns_cost object,rules_cost,dns_cost,embeddedInInbound,costOf_append]

theorem inboundBills_cost {ext : Externals} {tag : String} : ((inboundBills ext surface tag).map Bill.cost).sum =
    costOf ext surface.projection.outbounds (embeddedInInbound ext surface tag) := by
  rw [inboundBills,embeddedInInbound,costOf_append,List.map_append,List.sum_append,dnsBills_cost,List.map_map]
  rfl

/-- The bills for the probes of URLTests and for all inbounds. -/
noncomputable def allBills (ext : Externals) (surface : Surface) (tags : List String) : List Bill :=
  dnsBills ext surface.dns surface.strategies surface.projection none ++ tags.flatMap (inboundBills ext surface)

theorem allBills_cost {ext : Externals} {tags : List String} : ((allBills ext surface tags).map Bill.cost).sum =
    costOf ext surface.projection.outbounds (embedded ext surface tags) := by
  have inbounds : ((tags.flatMap (inboundBills ext surface)).map Bill.cost).sum =
      costOf ext surface.projection.outbounds (tags.flatMap (embeddedInInbound ext surface)) := by
    induction tags with
    | nil => rfl
    | cons tag rest ih => rw [List.flatMap_cons,List.flatMap_cons,List.map_append,List.sum_append,costOf_append,ih,inboundBills_cost]
  rw [allBills,embedded,costOf_append,List.map_append,List.sum_append,dnsBills_cost,inbounds]

theorem embedded_known (indexed : Indexed surface.projection.outbounds) {ext : Externals} {tags : List String} {o : ValidatedOutbound}
    (member : o ∈ embedded ext surface tags) : Known surface.projection.outbounds o := by
  rcases List.mem_append.mp member with probe | inbound
  · exact embeddedInDns_known indexed probe
  · obtain ⟨tag,_,among⟩ := List.mem_flatMap.mp inbound
    rcases List.mem_append.mp among with ruled | served
    · exact embeddedInRules_known indexed ruled
    · exact embeddedInDns_known indexed served

include acc texts in
theorem addInbounds_charges {sniffEnabled : Map String Bool} {inbounds : List (CompiledInbound Value)}
    (objects : ∀ inbound ∈ inbounds, ∃ fields, inbound.spec.config = .object fields) :
    Charges x.ext surface.projection.outbounds (foldEach (addInbound x surface sniffEnabled) [] inbounds)
      ((inbounds.map (fun inbound => inbound.spec.tag)).flatMap (inboundBills x.ext surface))
      (fun done => (done.map (fun inbound => inboundCost x.ext inbound.spec.config)).sum =
        costOf x.ext surface.projection.outbounds ((inbounds.map (fun inbound => inbound.spec.tag)).flatMap (embeddedInInbound x.ext surface))) := by
  rw [List.flatMap_map,List.flatMap_map]
  refine Charges.foldEach (fun inbound : CompiledInbound Value => inboundBills x.ext surface inbound.spec.tag)
    (fun done (so_far : List (CompiledInbound Value)) => (so_far.map (fun inbound => inboundCost x.ext inbound.spec.config)).sum =
      costOf x.ext surface.projection.outbounds (done.flatMap (fun inbound => embeddedInInbound x.ext surface inbound.spec.tag))) rfl ?_
  intro done inbound rest so_far split cost
  refine (completeInbound_charges acc texts (objects inbound (by rw [split]; simp))).andThen (fun completed own => .pure ?_)
  rw [List.map_append,List.sum_append,cost,List.map_singleton,List.sum_singleton,own,List.flatMap_append,costOf_append,List.flatMap_singleton]

include acc texts in
theorem emitTopology_charges {collected : Collected} (objects : ∀ inbound ∈ collected.inbounds, ∃ fields, inbound.spec.config = .object fields) :
    Charges x.ext surface.projection.outbounds (emitTopology x topology route collected surface)
      (allBills x.ext surface (collected.inbounds.map (fun inbound => inbound.spec.tag)))
      (fun out => configurationCost x.ext out.runtime =
        costOf x.ext surface.projection.outbounds (embedded x.ext surface (collected.inbounds.map (fun inbound => inbound.spec.tag)))) := by
  refine (compileDns_charges acc texts rfl).bind (fun probe probe_cost => ?_)
  refine (addInbounds_charges acc texts objects).andThen (fun inbounds inbounds_cost => .check_bind (fun yaml _ => .pure ?_))
  rw [configurationCost,inbounds_cost,embedded,costOf_append,← probe_cost]
  rfl

end Topologies

/-- The chains of an outbound and what they cost where they are embedded. -/
def Embeds (ext : Externals) (outbounds : Catalog) (o : ValidatedOutbound) (cost : ClientChainProjectionCost) : Prop :=
  ∃ action bill, Projects ext outbounds o action bill ∧ cost = actionCost ext action

theorem embeds_costs {ext : Externals} {outbounds : Catalog} (acc : Accepted ext outbounds) (texts : WritesJson ext) {os : List ValidatedOutbound}
    (known : ∀ o ∈ os, Known outbounds o) : List.Forall₂ (Embeds ext outbounds) os (os.map (fun o => (billOf ext outbounds o).cost)) := by
  rw [List.forall₂_map_right_iff,List.forall₂_same]
  intro o member
  obtain ⟨action,bill,projects⟩ := exists_projection acc (known o member)
  exact ⟨action,bill,projects,by rw [billOf_eq projects,projects.cost texts]⟩

/-- What is reserved in the end is what the emitted configuration carries, and stays within the
    limits; a topology whose projection is too large is refused for no other reason than that the
    outbounds to be embedded cost more. -/
theorem budget_exact (texts : WritesJson x.ext) (topology : MachineTopology) (route : Option Route) :
    (∀ out, (compileTopology x topology route .default).1 = .ok out →
      (compileTopology x topology route .default).2.used = configurationCost x.ext out.runtime ∧ (configurationCost x.ext out.runtime).Within) ∧
    ∀ context hops bytes, (compileTopology x topology route .default).1 = .error (.projection context hops bytes) →
      ∃ outbounds os costs, wholeProjection x topology route = .ok (outbounds,os) ∧ List.Forall₂ (Embeds x.ext outbounds) os costs ∧
        ¬ costs.sum.Within := by
  obtain ⟨e,failed⟩ | ⟨collected,surface,nodes,surfaced,same⟩ := compileTopology_cases x topology route
  · rw [failed]
    constructor
    · intro out impossible
      cases impossible
    · intro context hops bytes impossible
      cases impossible
  obtain ⟨catalog,passes⟩ := surface_passes surfaced
  have acc := passes.accepted
  obtain ⟨more,listed,compiled⟩ := collectNodes_inbounds nodes
  have objects : ∀ inbound ∈ collected.inbounds, ∃ fields, inbound.spec.config = .object fields := by
    rw [listed]
    exact forall₂_right (P := fun inbound : CompiledInbound Value => ∃ fields, inbound.spec.config = .object fields) compiled
      (fun _ _ _ from_node => compiledFrom_object from_node)
  have run := @emitTopology_charges x topology route surface acc texts collected objects .default valid_default
  rw [same]
  unfold Ensures at run
  constructor
  · intro out done
    rw [done] at run
    obtain ⟨cost,_,settles⟩ := run
    have used := settles.used
    have within := settles.within ⟨Nat.zero_le _,Nat.zero_le _⟩
    rw [allBills_cost,← cost] at used
    have start : ClientChainProjectionBudget.default.ledger.used = 0 := rfl
    rw [start,zero_add] at used
    exact ⟨used,used ▸ within⟩
  · intro context hops bytes refused
    rw [refused] at run
    have exceeds := (run rfl).exceeds
    rw [allBills_cost] at exceeds
    rw [show ClientChainProjectionBudget.default.ledger.used = 0 from rfl,zero_add] at exceeds
    have known : ∀ o ∈ embedded x.ext surface (collected.inbounds.map (fun inbound => inbound.spec.tag)), Known surface.projection.outbounds o :=
      fun o member => embedded_known acc.indexed member
    refine ⟨surface.projection.outbounds,_,_,?_,embeds_costs acc texts known,exceeds⟩
    rw [wholeProjection,nodes,surfaced]
    rfl

/-! ### A sample -/

theorem printedEach_map (values : List Value) : printedEach values = values.map printed := by
  induction values with
  | nil => rfl
  | cons value rest ih => rw [printedEach,ih,List.map_cons]

theorem printedFields_map (fields : Fields) : printedFields fields = fields.map (fun field => printed (.string field.1) ++ ":" ++ printed field.2) := by
  induction fields with
  | nil => rfl
  | cons field rest ih =>
    obtain ⟨name,value⟩ := field
    have quoted : (s!"\"{name}\":{printed value}") = printed (.string name) ++ ":" ++ printed value := by
      rw [printed]
      change "\"" ++ name ++ "\":" ++ printed value = "\"" ++ name ++ "\"" ++ ":" ++ printed value
      have colon : ("\":" : String) = "\"" ++ ":" := rfl
      rw [colon,← String.append_assoc]
    rw [printedFields,ih,List.map_cons,quoted]

/-- Plain texts with digests of the usual length. -/
def sampleTexts : Externals :=
  { plainTexts with sha256 := fun _ => "0000000000000000000000000000000000000000000000000000000000000000" }

theorem sampleTexts_writes : WritesJson sampleTexts := by
  refine ⟨⟨?_,?_,?_⟩,?_⟩
  · intro values
    change printed (.array values) = _
    rw [printed,printedEach_map]
    rfl
  · intro fields
    change printed (.object fields) = _
    rw [printed,printedFields_map]
    rfl
  · intro s _
    change printed (.string s) = _
    rw [printed]
    rfl
  · have zeros : "0000000000000000000000000000000000000000000000000000000000000000".utf8ByteSize = 64 ∧
        "0000000000000000000000000000000000000000000000000000000000000000".toList.all plainChar := by decide +kernel
    exact fun _ => zeros

/-- The text of a provider configuration with a tag. -/
def vlessText (tag : String) : String :=
  "\x7b\"tag\":\"" ++ tag ++ "\",\"listen_port\":443,\"flow\":\"xtls-rprx-vision\",\"sniff\":true,\"tls\":\x7b\"enabled\":true," ++
    "\"server_name\":\"example.com\",\"reality\":\x7b\"enabled\":true,\"handshake\":\x7b\"server\":\"example.com\",\"server_port\":443\x7d," ++
    "\"private_key\":\"AAAAAAAAAAAAAAAAAAAAAAAAAAAAAAAAAAAAAAAAAAA\",\"short_id\":[\"0123abcd\"]\x7d\x7d\x7d"

/-- What the text is decoded to. -/
def vlessSample (tag : String) : VlessRealityVisionConfig where
  tag := tag
  listen := ""
  listenPort := 443
  flow := "xtls-rprx-vision"
  tcpFastOpen := false
  sniff := true
  tlsEnabled := true
  tlsServerName := "example.com"
  realityEnabled := true
  handshakeServer := "example.com"
  handshakeServerPort := 443
  privateKey := "AAAAAAAAAAAAAAAAAAAAAAAAAAAAAAAAAAAAAAAAAAA"
  shortId := ["0123abcd"]

/-- A decoder that knows the texts with some tags. -/
def parseSample (tags : List String) (bytes : NodeAgent.Credential.Bytes) : Except String VlessRealityVisionConfig :=
  match tags.find? (fun tag => (vlessText tag).toUTF8.toList = bytes) with
  | some tag => .ok (vlessSample tag)
  | none => .error "unknown text"

theorem vlessText_injective {tag tag' : String} (same : (vlessText tag).toUTF8.toList = (vlessText tag').toUTF8.toList) : tag = tag' := by
  have texts := Utf8Bytes.bytes_injective same
  unfold vlessText at texts
  rwa [String.append_left_inj,String.append_left_inj,String.append_left_inj,String.append_right_inj] at texts

/-- The texts are told apart by their tags. -/
theorem parseSample_text {tags : List String} {tag : String} (known : tag ∈ tags) :
    parseSample tags (vlessText tag).toUTF8.toList = .ok (vlessSample tag) := by
  unfold parseSample
  cases found : tags.find? (fun tag' => (vlessText tag').toUTF8.toList = (vlessText tag).toUTF8.toList) with
  | none => exact absurd (List.find?_eq_none.mp found tag known) (by simp)
  | some tag' =>
    have same := List.find?_some found
    rw [decide_eq_true_eq] at same
    rw [vlessText_injective same]

def userValue (user : DiagnosticUser) : Value :=
  .object [("id",.string user.id),("enabled",.bool user.enabled),("upload_limit_bps",.number (.natural user.uploadLimitBps.toNat)),
    ("download_limit_bps",.number (.natural user.downloadLimitBps.toNat))]

def inboundValue (inbound : DiagnosticInbound) : Value :=
  .object [("node_id",.string inbound.nodeId),("protocol",.string inbound.protocol),("tag",.string inbound.tag),("config",inbound.config),
    ("users",.array (inbound.users.map userValue))]

/-- A JSON text is a YAML text. -/
def diagnosticText (d : Diagnostic) : String :=
  printed (.object [("format",.string d.format),("machine_id",.string d.machineId),("revision",.number (.natural d.revision)),
    ("inbounds",.array (d.inbounds.map inboundValue)),("requested_outbounds",d.requestedOutbounds),("requested_route",d.requestedRoute),
    ("requested_dns",d.requestedDns),("warnings",.array (strings d.warnings))])

def sampleExternals : CompileExternals where
  ext := sampleTexts
  dns := ⟨fun method => if method = "" then some .default else none,fun rcode => rcode = "",fun _ _ _ => .ok (),fun _ _ => ""⟩
  providers := ⟨parseSample ["a"," a"],fun _ => .error "unknown text",fun key => key.length = 43⟩
  planResource := fun _ => .error "no rule set"
  planInlineResource := fun _ _ => .error "no rule set"
  routeValue := fun _ => .null
  dnsValue := fun _ => .null
  yaml := fun d => .ok (diagnosticText d)
  globalFingerprint := fun _ _ _ => ""

/-- One inbound, and a DNS server behind the only outbound. -/
def sampleTopology : MachineTopology where
  machineId := "m"
  revision := 1
  nodes := [⟨"n",VLESS_REALITY_VISION_ID,CURRENT_CONFIG_VERSION,(vlessText "a").toUTF8.toList,[⟨"u","","00000000-0000-4000-8000-000000000000","",0,0⟩]⟩]
  outbounds := [⟨"direct","direct",.empty⟩]
  route := none
  dns := some ⟨[],[⟨"udp",DEFAULT_DNS_TAG,"1.1.1.1","direct"⟩],""⟩

/-- Other providers, for the same texts and rule sets. -/
def CompileExternals.provided (x : CompileExternals) (prov : ProviderExternals) : CompileExternals := { x with providers := prov }

theorem addRuleSets_provided {x : CompileExternals} {prov : ProviderExternals} (ruleSets : List RouteRuleSet) (catalog : RuleSets)
    (resources : List RuleSetResource) : addRuleSets (x.provided prov) catalog resources ruleSets = addRuleSets x catalog resources ruleSets := by
  induction ruleSets generalizing catalog resources with
  | nil => rfl
  | cons ruleSet rest ih =>
    unfold addRuleSets
    simp only [ih]
    rfl

/-- The nodes compile alike, each with its own providers. -/
structure NodesAlike (x : CompileExternals) (prov : ProviderExternals) (node node' : NodeInstance) : Prop where
  nodeId : node'.nodeId = node.nodeId
  inbound : compileInbound x.ext x.providers node = compileInbound x.ext prov node'
  sniff : inboundProtocolSniffEnabled x.providers node = inboundProtocolSniffEnabled prov node'

theorem collectNodes_alike {x : CompileExternals} {prov : ProviderExternals} {nodes nodes' : List NodeInstance}
    (alike : List.Forall₂ (NodesAlike x prov) nodes nodes') (so_far : Collected) :
    collectNodes x so_far nodes = collectNodes (x.provided prov) so_far nodes' := by
  induction alike generalizing so_far with
  | nil => rfl
  | cons first _ ih =>
    unfold collectNodes collectNode
    rw [first.inbound,first.sniff,first.nodeId]
    simp only [ih]
    rfl

theorem compileTopology_alike {x : CompileExternals} {prov : ProviderExternals} {topology : MachineTopology} {nodes : List NodeInstance} {route : Option Route}
    (alike : List.Forall₂ (NodesAlike x prov) (sortedNodes topology.nodes) (sortedNodes nodes)) :
    compileTopology x topology route = compileTopology (x.provided prov) { topology with nodes := nodes } route := by
  have surface : compileSurface (x.provided prov) { topology with nodes := nodes } route = compileSurface x topology route := by
    unfold compileSurface compileRuleSetCatalog
    simp only [addRuleSets_provided]
    rfl
  unfold compileTopology
  rw [collectNodes_alike alike,surface]
  rfl

/-- The text of a configuration counts only by what it is decoded to. -/
theorem NodesAlike.decoded {x : CompileExternals} {prov : ProviderExternals} {node : NodeInstance} {bytes : NodeAgent.Credential.Bytes}
    (vless : node.providerId = VLESS_REALITY_VISION_ID) (keys : prov.decodesKey = x.providers.decodesKey)
    (parsed : prov.parseVless bytes = x.providers.parseVless node.providerConfig) : NodesAlike x prov node { node with providerConfig := bytes } := by
  have decodes : decodeVless x.providers node = decodeVless prov { node with providerConfig := bytes } := by
    unfold decodeVless
    rw [parsed]
  refine ⟨rfl,?_,?_⟩
  · unfold compileInbound Inbounds.compileVless
    rw [decodes,keys]
    simp only [vless,↓reduceIte]
    rfl
  · unfold inboundProtocolSniffEnabled
    rw [decodes]

/-- The externals with a decoder that knows its result. -/
def decoding (x : CompileExternals) (cfg : VlessRealityVisionConfig) : CompileExternals :=
  x.provided { x.providers with parseVless := fun _ => .ok cfg }

/-- A decoder is asked for the configurations of the nodes only. -/
theorem compileTopology_decoding {x : CompileExternals} {topology : MachineTopology} {route : Option Route} {node : NodeInstance}
    {cfg : VlessRealityVisionConfig} (only : topology.nodes = [node]) (vless : node.providerId = VLESS_REALITY_VISION_ID)
    (decoded : x.providers.parseVless node.providerConfig = .ok cfg) :
    compileTopology x topology route = compileTopology (decoding x cfg) topology route := by
  refine @compileTopology_alike x _ topology topology.nodes route ?_
  rw [only,sortedNodes,List.mergeSort_singleton]
  exact .cons (.decoded vless rfl decoded.symm) .nil

theorem sample_compiles : (compileTopology sampleExternals sampleTopology none .default).1.isOk ∧
    (compileTopology sampleExternals sampleTopology none .default).2.used = ⟨3,132⟩ := by
  rw [@compileTopology_decoding sampleExternals sampleTopology none _ _ rfl rfl (parseSample_text (by decide))]
  decide +kernel

/-- The rule of the inbound and the server, once for the inbound and once for the probes. -/
theorem budget_exact_sample : ∃ out, (compileTopology sampleExternals sampleTopology none .default).1 = .ok out ∧
    configurationCost sampleTexts out.runtime = ⟨3,132⟩ := by
  obtain ⟨compiles,used⟩ := sample_compiles
  cases done : (compileTopology sampleExternals sampleTopology none .default).1 with
  | error e =>
    rw [done] at compiles
    cases compiles
  | ok out => exact ⟨out,rfl,((@budget_exact sampleExternals sampleTexts_writes sampleTopology none).1 out done).1.symm.trans used⟩

end NodeAgent.Compile
