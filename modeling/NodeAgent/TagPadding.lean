import NodeAgent.CompiledSurfaces
import NodeAgent.ConfigurationCosts
import NodeAgent.TrimmedTexts

/-!
White space around inbound tags. The tags of providers are padded, and so are the same names
in the rules. Tags are told apart without the white space around them, and the runtime removes
it, but rules and the sniffing of an inbound are looked up under the padded name.
-/
namespace NodeAgent.Compile
open NodeAgent.Api NodeAgent.Json NodeAgent.FiniteMap NodeAgent.OutboundAdapter NodeAgent.Outbounds NodeAgent.ClientChains NodeAgent.RouteRules
open NodeAgent.DnsServers NodeAgent.Inbounds NodeAgent.Fallible
open NodeAgent.Runtime (CompiledInbound NormalizedInbound normalizeInbounds normalizeInbound normalizeUsers)

/-! ### Padding -/

/-- The names of a rule include the inbound, or there are none. -/
def covers (names : List String) (tag : String) : Bool := names.isEmpty || tag ∈ names

theorem dnsRuleApplies_some {tag : String} {rule : DnsRule} : dnsRuleApplies (some tag) rule = covers rule.inbound tag := rfl

theorem appliesTo_covers {tag : String} {rule : RouteRule} : appliesTo tag rule = covers rule.inbound tag := rfl

/-! ### Padded topologies -/

section Names
variable (pad : String → String)

/-- The rules with padded names, those nested in them included. -/
def padRules : List RouteRule → List RouteRule
  | [] => []
  | rule :: rest => { rule with inbound := rule.inbound.map pad, rules := padRules rule.rules } :: padRules rest
termination_by rules => sizeOf rules
decreasing_by
  · have smaller := sizeOf_rules rule
    simp only [List.cons.sizeOf_spec]
    omega
  · simp only [List.cons.sizeOf_spec]
    omega

def padRule (rule : RouteRule) : RouteRule := { rule with inbound := rule.inbound.map pad, rules := padRules pad rule.rules }

def padRoute (route : Route) : Route := { route with rules := padRules pad route.rules }

def padDnsRule (rule : DnsRule) : DnsRule := { rule with inbound := rule.inbound.map pad }

def padDns (dns : Dns) : Dns := { dns with rules := dns.rules.map (padDnsRule pad) }

theorem padRules_map (rules : List RouteRule) : padRules pad rules = rules.map (padRule pad) := by
  induction rules with
  | nil => rw [padRules]; rfl
  | cons rule rest ih => rw [padRules,ih]; rfl

end Names

/-- The tag that the configuration of a node asks for. -/
def providerTag (providers : ProviderExternals) (node : NodeInstance) : Option String :=
  if node.providerId = VLESS_REALITY_VISION_ID then (providers.parseVless node.providerConfig).toOption.map VlessRealityVisionConfig.tag
  else if node.providerId = HYSTERIA2_SALAMANDER_ID then (providers.parseHysteria2 node.providerConfig).toOption.map Hysteria2SalamanderConfig.tag
  else none

/-- The node with its tag padded, and nothing else changed. -/
structure PadsNode (providers : ProviderExternals) (pad : String → String) (node node' : NodeInstance) : Prop where
  nodeId : node'.nodeId = node.nodeId
  providerId : node'.providerId = node.providerId
  version : node'.providerConfigVersion = node.providerConfigVersion
  users : node'.users = node.users
  vless : ∀ cfg, node.providerId = VLESS_REALITY_VISION_ID → providers.parseVless node.providerConfig = .ok cfg →
    providers.parseVless node'.providerConfig = .ok { cfg with tag := pad cfg.tag }
  hysteria2 : ∀ cfg, node.providerId = HYSTERIA2_SALAMANDER_ID → providers.parseHysteria2 node.providerConfig = .ok cfg →
    providers.parseHysteria2 node'.providerConfig = .ok { cfg with tag := pad cfg.tag }

/-- A tag that some provider asks for. -/
def AskedFor (providers : ProviderExternals) (topology : MachineTopology) (tag : String) : Prop :=
  ∃ node ∈ topology.nodes, providerTag providers node = some tag

/-- Some provider tags are padded, and the same names in the rules in the same way. -/
structure PadsTopology (providers : ProviderExternals) (pad : String → String) (topology topology' : MachineTopology) : Prop where
  padded : ∀ name, Padded name (pad name)
  tags : ∀ name, pad name ≠ name → AskedFor providers topology name
  machineId : topology'.machineId = topology.machineId
  revision : topology'.revision = topology.revision
  nodes : List.Forall₂ (PadsNode providers pad) topology.nodes topology'.nodes
  outbounds : topology'.outbounds = topology.outbounds
  route : topology'.route = topology.route.map (padRoute pad)
  dns : topology'.dns = topology.dns.map (padDns pad)

/-- No provider tag has white space around it. -/
def TrimmedTags (providers : ProviderExternals) (topology : MachineTopology) : Prop := ∀ tag, AskedFor providers topology tag → trim tag = tag

/-- A provider tag that is changed. -/
def PaddedTag (providers : ProviderExternals) (pad : String → String) (topology : MachineTopology) (tag : String) : Prop :=
  AskedFor providers topology tag ∧ pad tag ≠ tag

/-- A rule whose answers are counted under a digest of the rule. -/
def countsFloods (dext : DnsExternals) (rule : DnsRule) : Bool := rule.action = "reject" && dext.rejectMethod rule.method = some .default && !rule.noDrop

/-- The compilation and the runtime do not see the padding: an empty tag stays empty, no padded
    inbound has a rule on protocols, no rule names a padded tag already, and no digest of a DNS
    rule that is counted by it changes. -/
structure Unseen (x : CompileExternals) (pad : String → String) (topology : MachineTopology) : Prop where
  named : ∀ tag, PaddedTag x.providers pad topology tag → tag ≠ ""
  sniffs : ∀ tag, PaddedTag x.providers pad topology tag → ∀ rule ∈ routeRules topology.route, appliesTo tag rule → rule.protocol = []
  routes : ∀ tag, PaddedTag x.providers pad topology tag → ∀ rule ∈ routeRules topology.route, pad tag ∈ rule.inbound → appliesTo tag rule
  lookups : ∀ tag, PaddedTag x.providers pad topology tag → ∀ rule ∈ dnsRules topology.dns, pad tag ∈ rule.inbound → dnsRuleApplies (some tag) rule
  floods : ∀ tag, PaddedTag x.providers pad topology tag → ∀ entry ∈ (dnsRules topology.dns).zipIdx, dnsRuleApplies (some tag) entry.1 →
    countsFloods x.dns entry.1 → x.dns.rejectFloodDigest (padDnsRule pad entry.1) entry.2 = x.dns.rejectFloodDigest entry.1 entry.2

/-! ### The surface -/

section Surfaces
variable {pad : String → String} {ext : Externals} {outbounds : Catalog} {ruleSets : RuleSets} {route : Option Route} {dns : Option Dns}

theorem references_padded (rules : List RouteRule) :
    validateRouteRuleReferences ext outbounds ruleSets (padRules pad rules) = validateRouteRuleReferences ext outbounds ruleSets rules := by
  induction rules using padRules.induct with
  | case1 => rw [padRules]
  | case2 rule rest nested others =>
    rw [padRules,validateRouteRuleReferences,validateRouteRuleReferences]
    dsimp only
    rw [nested,others]

theorem validateRoute_padded : validateRoute ext outbounds ruleSets (route.map (padRoute pad)) = validateRoute ext outbounds ruleSets route := by
  cases route with
  | none => rfl
  | some route =>
    rw [Option.map_some,validateRoute,validateRoute]
    have references := @references_padded pad ext outbounds ruleSets route.rules
    dsimp only [padRoute]
    rw [references]
    rfl

theorem routeRules_padded : routeRules (route.map (padRoute pad)) = (routeRules route).map (padRule pad) := by
  cases route with
  | none => rfl
  | some route => exact padRules_map pad route.rules

theorem dnsRules_padded : dnsRules (dns.map (padDns pad)) = (dnsRules dns).map (padDnsRule pad) := by
  cases dns <;> rfl

theorem configuredServers_padded : configuredServers (dns.map (padDns pad)) = configuredServers dns := by
  cases dns <;> rfl

theorem unsupported_padded {rule : RouteRule} : unsupportedRouteRuleFields (padRule pad rule) = unsupportedRouteRuleFields rule := by
  have nested : (padRules pad rule.rules).isEmpty = rule.rules.isEmpty := by
    rw [padRules_map,List.isEmpty_map]
  unfold unsupportedRouteRuleFields padRule
  dsimp only
  rw [nested]

theorem supported_padded {rule : RouteRule} : sameEgressRouteMatchSupported (padRule pad rule) = sameEgressRouteMatchSupported rule := by
  have named : (rule.inbound.map pad).isEmpty = rule.inbound.isEmpty := List.isEmpty_map
  have fields := @unsupported_padded pad rule
  unfold sameEgressRouteMatchSupported
  rw [fields]
  unfold padRule
  dsimp only
  rw [named]

/-- Rules that match each other still do. -/
theorem matches_padded {rule : RouteRule} {dnsRule : DnsRule} (same : sameEgressRuleMatchesDns rule dnsRule) :
    sameEgressRuleMatchesDns (padRule pad rule) (padDnsRule pad dnsRule) := by
  simp only [sameEgressRuleMatchesDns,Bool.and_eq_true,decide_eq_true_eq] at same ⊢
  obtain ⟨⟨⟨⟨⟨inbound,domain⟩,suffix⟩,keyword⟩,regex⟩,sets⟩ := same
  exact ⟨⟨⟨⟨⟨congrArg (List.map pad) inbound,domain⟩,suffix⟩,keyword⟩,regex⟩,sets⟩

theorem linked_padded {tag : String} : (routeRules (route.map (padRoute pad))).filter (fun rule => rule.outbound = tag) =
    ((routeRules route).filter (fun rule => rule.outbound = tag)).map (padRule pad) := by
  rw [routeRules_padded,List.filter_map]
  rfl

/-- Every rule of a clone has a DNS rule with the same conditions. -/
theorem paired_padded {server : String} {linked : List RouteRule}
    (paired : (linked.isEmpty || linked.any (fun rule => !sameEgressRouteMatchSupported rule ||
      !(dnsRules dns).any (fun dnsRule => dnsRule.action = "route" && dnsRule.server = server && sameEgressRuleMatchesDns rule dnsRule))) = false) :
    ((linked.map (padRule pad)).isEmpty || (linked.map (padRule pad)).any (fun rule => !sameEgressRouteMatchSupported rule ||
      !(dnsRules (dns.map (padDns pad))).any (fun dnsRule =>
        dnsRule.action = "route" && dnsRule.server = server && sameEgressRuleMatchesDns rule dnsRule))) = false := by
  obtain ⟨some_linked,each⟩ := Bool.or_eq_false_iff.mp paired
  rw [List.any_eq_false] at each
  rw [Bool.or_eq_false_iff,List.isEmpty_map,List.any_eq_false]
  refine ⟨some_linked,?_⟩
  intro rule' member
  obtain ⟨rule,among,rfl⟩ := List.mem_map.mp member
  have holds := each rule among
  simp only [Bool.not_eq_true,Bool.or_eq_false_iff,Bool.not_eq_false',List.any_eq_true,supported_padded,dnsRules_padded] at holds ⊢
  obtain ⟨supported,dnsRule,listed,matching⟩ := holds
  simp only [Bool.and_eq_true] at matching
  refine ⟨supported,padDnsRule pad dnsRule,List.mem_map_of_mem listed,?_⟩
  simp only [Bool.and_eq_true]
  exact ⟨matching.1,matches_padded matching.2⟩

/-- Every DNS rule of the server of a clone is one of its pairs. -/
theorem referenced_padded {server : String} {linked : List RouteRule}
    (referenced : (dnsRules dns).any (fun dnsRule => dnsRule.server = server &&
      (dnsRule.action ≠ "route" || !linked.any (fun rule => sameEgressRuleMatchesDns rule dnsRule))) = false) :
    (dnsRules (dns.map (padDns pad))).any (fun dnsRule => dnsRule.server = server &&
      (dnsRule.action ≠ "route" || !(linked.map (padRule pad)).any (fun rule => sameEgressRuleMatchesDns rule dnsRule))) = false := by
  rw [List.any_eq_false] at referenced ⊢
  rw [dnsRules_padded]
  intro dnsRule' member
  obtain ⟨dnsRule,among,rfl⟩ := List.mem_map.mp member
  have holds := referenced dnsRule among
  intro seen
  refine holds ?_
  simp only [Bool.and_eq_true,Bool.or_eq_true,Bool.not_eq_true',List.any_eq_false] at seen ⊢
  obtain ⟨asked,other | unmatched⟩ := seen
  · exact ⟨asked,.inl other⟩
  · refine ⟨asked,.inr ?_⟩
    intro rule linking matching
    exact unmatched (padRule pad rule) (List.mem_map_of_mem linking) (matches_padded matching)

theorem validateSameEgress_padded {servers : Map String (Option DnsServer)} {outbound : ValidatedOutbound} {resolver : OutboundDomainResolver}
    {strategy : IpStrategy} (valid : validateSameEgress ext route dns outbounds servers outbound resolver = .ok strategy) :
    validateSameEgress ext (route.map (padRoute pad)) (dns.map (padDns pad)) outbounds servers outbound resolver = .ok strategy := by
  obtain ⟨_,reserved,valid⟩ := bind_ok valid
  unfold validateSameEgress
  rw [reserved,ok_bind]
  cases found : (servers[resolver.server]?).bind id with
  | none =>
    rw [found] at valid
    cases valid
  | some server =>
    rw [found] at valid
    dsimp only at valid ⊢
    obtain ⟨_,detoured,valid⟩ := bind_ok valid
    rw [detoured,ok_bind]
    cases there : outbounds[server.detour]? with
    | none =>
      rw [there] at valid
      cases valid
    | some original =>
      rw [there] at valid
      dsimp only at valid ⊢
      obtain ⟨_,preserved,valid⟩ := bind_ok valid
      obtain ⟨_,literal,valid⟩ := bind_ok valid
      obtain ⟨_,final,valid⟩ := bind_ok valid
      obtain ⟨_,paired,valid⟩ := bind_ok valid
      obtain ⟨_,referenced,valid⟩ := bind_ok valid
      have final_padded : (route.map (padRoute pad)).any (fun route => route.final = outbound.tag) = route.any (fun route => route.final = outbound.tag) := by
        cases route <;> rfl
      rw [preserved,ok_bind,literal,ok_bind,final_padded,final,ok_bind,linked_padded,paired_padded (refuse_ok paired),
        referenced_padded (refuse_ok referenced)]
      exact valid

theorem resolutionStrategies_padded {servers : Map String (Option DnsServer)} {inherited : Option OutboundDomainResolver} {strategies strategies' : IpStrategies}
    {listed : List ValidatedOutbound} (done : resolutionStrategies ext route dns outbounds servers inherited strategies listed = .ok strategies') :
    resolutionStrategies ext (route.map (padRoute pad)) (dns.map (padDns pad)) outbounds servers inherited strategies listed = .ok strategies' := by
  induction listed generalizing strategies with
  | nil => exact done
  | cons outbound rest ih =>
    rw [resolutionStrategies] at done ⊢
    split at done
    · exact ih done
    · next resolver _ =>
      split at done
      · cases done
      · next known =>
        rw [if_neg known]
        split at done
        · next plain =>
          rw [if_pos plain]
          exact ih done
        · next clone =>
          rw [if_neg clone]
          obtain ⟨strategy,valid,done⟩ := bind_ok done
          rw [validateSameEgress_padded valid,ok_bind]
          split at done
          · cases done
          · exact ih done

theorem surface_padded {x : CompileExternals} {topology topology' : MachineTopology} {surface : Surface}
    (pads : PadsTopology x.providers pad topology topology') (done : compileSurface x topology route = .ok surface) :
    compileSurface x topology' (route.map (padRoute pad)) =
      .ok { surface with route := surface.route.map (padRoute pad), dns := surface.dns.map (padDns pad) } := by
  obtain ⟨catalog,built,done⟩ := bind_ok done
  obtain ⟨_,checked,done⟩ := bind_ok done
  obtain ⟨⟨ruleSets,resources⟩,sets,done⟩ := bind_ok done
  obtain ⟨_,routed,done⟩ := bind_ok done
  obtain ⟨strategies,resolved,done⟩ := bind_ok done
  obtain ⟨projection,projected,done⟩ := bind_ok done
  cases done
  have sets' : compileRuleSetCatalog x (route.map (padRoute pad)) = .ok (ruleSets,resources) := by
    rw [← sets]
    cases route <;> rfl
  have default_padded : defaultResolver x.ext (route.map (padRoute pad)) = defaultResolver x.ext route := by
    cases route <;> rfl
  have resolved' : validateDnsResolutionProjection x.ext (route.map (padRoute pad)) (topology.dns.map (padDns pad)) catalog = .ok strategies := by
    have servers_padded : serversByTag x.ext (topology.dns.map (padDns pad)) = serversByTag x.ext topology.dns := by
      unfold serversByTag
      rw [configuredServers_padded]
    have final_padded : requestedFinal (topology.dns.map (padDns pad)) = requestedFinal topology.dns := by
      cases topology.dns <;> rfl
    obtain ⟨servers,listed,resolved⟩ := bind_ok resolved
    dsimp only at resolved
    obtain ⟨_,final,resolved⟩ := bind_ok resolved
    obtain ⟨inherited,compiled,resolved⟩ := bind_ok resolved
    unfold validateDnsResolutionProjection
    rw [servers_padded,listed,ok_bind,final_padded]
    dsimp only
    rw [final,ok_bind,default_padded,compiled,ok_bind]
    split at resolved
    · cases resolved
    · exact resolutionStrategies_padded resolved
  have projected' : projectOutboundDnsResolvers x.ext (route.map (padRoute pad)) (topology.dns.map (padDns pad)) catalog strategies = .ok projection := by
    rw [← projected]
    unfold projectOutboundDnsResolvers configuredTags
    rw [default_padded,configuredServers_padded]
  unfold compileSurface
  rw [pads.outbounds,pads.dns,built,ok_bind,checked,ok_bind,sets',ok_bind]
  dsimp only
  rw [validateRoute_padded,routed,ok_bind,resolved',ok_bind,projected',ok_bind]
  rfl

/-! ### Rules -/

theorem compileRouteRule_padded {rule : RouteRule} {index : Nat} :
    compileRouteRule ext outbounds ruleSets (padRule pad rule) index = compileRouteRule ext outbounds ruleSets rule index := by
  have named : (rule.inbound.map pad).isEmpty = rule.inbound.isEmpty := List.isEmpty_map
  have conditions : compileRouteMatch ext ruleSets (padRule pad rule) = compileRouteMatch ext ruleSets rule := by
    unfold compileRouteMatch padRule
    dsimp only
    rw [named]
    rfl
  unfold compileRouteRule
  rw [unsupported_padded,conditions]
  rfl

/-- The rule is added to the padded inbound as it is to the other one. -/
theorem addRule_padded {tag tag' : String} {sniff sniff' : Bool} {rules : List Value} {rule : RouteRule} {index : Nat}
    (applies : appliesTo tag' (padRule pad rule) = appliesTo tag rule) (sniffs : tag' = tag ∧ sniff' = sniff ∨ (appliesTo tag rule → rule.protocol = [])) :
    addRule ext outbounds ruleSets tag' sniff' rules (padRule pad rule,index) = addRule ext outbounds ruleSets tag sniff rules (rule,index) := by
  unfold addRule
  dsimp only
  rw [applies,compileRouteRule_padded]
  rcases sniffs with ⟨rfl,rfl⟩ | plain
  · rfl
  · cases covered : appliesTo tag rule with
    | false => rfl
    | true =>
      have protocols : (padRule pad rule).protocol = [] := plain covered
      rw [protocols,plain covered]
      rfl

theorem foldEach_congr {σ ε α β γ : Type} {body : β → α → Op σ ε β} {body' : β → γ → Op σ ε β} {f : α → γ} {xs : List α}
    (same : ∀ b, ∀ x ∈ xs, body' b (f x) = body b x) (b : β) : foldEach body' b (xs.map f) = foldEach body b xs := by
  induction xs generalizing b with
  | nil => rfl
  | cons x rest ih =>
    rw [List.map_cons,foldEach,foldEach,same b x List.mem_cons_self]
    exact congrArg _ (funext (fun b' => ih (fun b x later => same b x (List.mem_cons_of_mem _ later)) b'))

theorem compileRulesForInbound_padded {tag tag' : String} {sniff sniff' : Bool}
    (applies : ∀ rule ∈ routeRules route, appliesTo tag' (padRule pad rule) = appliesTo tag rule)
    (sniffs : tag' = tag ∧ sniff' = sniff ∨ ∀ rule ∈ routeRules route, appliesTo tag rule → rule.protocol = []) :
    compileRulesForInbound ext outbounds ruleSets (route.map (padRoute pad)) tag' sniff' =
      compileRulesForInbound ext outbounds ruleSets route tag sniff := by
  have final : finalOutbound ext outbounds (route.map (padRoute pad)) = finalOutbound ext outbounds route := by
    cases route <;> rfl
  have loop : foldEach (addRule ext outbounds ruleSets tag' sniff') [] ((routeRules route).zipIdx.map (Prod.map (padRule pad) id)) =
      foldEach (addRule ext outbounds ruleSets tag sniff) [] (routeRules route).zipIdx := by
    refine foldEach_congr ?_ []
    rintro rules ⟨rule,index⟩ member
    have listed := List.fst_mem_of_mem_zipIdx member
    refine addRule_padded (applies rule listed) ?_
    rcases sniffs with same | plain
    · exact .inl same
    · exact .inr (plain rule listed)
  unfold compileRulesForInbound
  rw [routeRules_padded,List.zipIdx_map,loop,final]

variable {dext : DnsExternals} {servers : Map String DnsServer} {strategies : IpStrategies} {projection : OutboundDnsProjection}

theorem compileDnsRule_padded {rule : DnsRule} {index : Nat}
    (floods : countsFloods dext rule → dext.rejectFloodDigest (padDnsRule pad rule) index = dext.rejectFloodDigest rule index) :
    compileDnsRule ext dext servers ruleSets (padDnsRule pad rule) index = compileDnsRule ext dext servers ruleSets rule index := by
  have reject {compiled : Fields} (rejects : rule.action = "reject") :
      compileDnsRejectRule ext dext (padDnsRule pad rule) index compiled = compileDnsRejectRule ext dext rule index compiled := by
    unfold compileDnsRejectRule
    have same : (padDnsRule pad rule).method = rule.method ∧ (padDnsRule pad rule).noDrop = rule.noDrop := ⟨rfl,rfl⟩
    rw [same.1,same.2]
    cases parsed : dext.rejectMethod rule.method with
    | none => rfl
    | some method =>
      by_cases counted : method = .default ∧ !rule.noDrop
      · have digest := floods (by simp [countsFloods,rejects,parsed,counted])
        simp only [digest]
        rfl
      · simp only [if_neg counted]
        rfl
  by_cases rejects : rule.action = "reject"
  · have routed : ¬ (padDnsRule pad rule).action = "route" := by
      change ¬ rule.action = "route"
      rw [rejects]
      decide
    have routed' : ¬ rule.action = "route" := routed
    have rejected : (padDnsRule pad rule).action = "reject" := rejects
    unfold compileDnsRule
    simp only [if_neg routed,if_neg routed',if_pos rejected,if_pos rejects,reject rejects]
    rfl
  · have rejected : ¬ (padDnsRule pad rule).action = "reject" := rejects
    unfold compileDnsRule
    simp only [if_neg rejected,if_neg rejects]
    rfl

theorem compileDns_padded {tag tag' : Option String}
    (applies : ∀ rule ∈ dnsRules dns, dnsRuleApplies tag' (padDnsRule pad rule) = dnsRuleApplies tag rule)
    (floods : ∀ entry ∈ (dnsRules dns).zipIdx, countsFloods dext entry.1 →
      dext.rejectFloodDigest (padDnsRule pad entry.1) entry.2 = dext.rejectFloodDigest entry.1 entry.2) :
    compileDns ext dext (dns.map (padDns pad)) ruleSets tag' strategies projection = compileDns ext dext dns ruleSets tag strategies projection := by
  have listed : serverList (dns.map (padDns pad)) = serverList dns := by
    unfold serverList
    rw [configuredServers_padded]
  have final {servers : Map String DnsServer} : dnsFinalTag ext (dns.map (padDns pad)) servers = dnsFinalTag ext dns servers := by
    cases dns <;> rfl
  have loop (done : CompiledDnsServers) (start : CompiledDnsRules) :
      foldEach (addDnsRule ext dext strategies ruleSets tag' done) start ((dnsRules dns).zipIdx.map (Prod.map (padDnsRule pad) id)) =
        foldEach (addDnsRule ext dext strategies ruleSets tag done) start (dnsRules dns).zipIdx := by
    refine foldEach_congr ?_ start
    rintro compiled ⟨rule,index⟩ member
    unfold addDnsRule
    have applied := applies rule (List.fst_mem_of_mem_zipIdx member)
    simp only [Prod.map_apply,id_eq,compileDnsRule_padded (floods (rule,index) member),applied]
    rfl
  unfold compileDns compileDnsParts
  simp only [listed,final,dnsRules_padded,List.zipIdx_map,loop]

end Surfaces

/-! ### Nodes -/

/-- The inbound under another tag. -/
def retagged (inbound : CompiledInbound Value) (tag : String) : CompiledInbound Value := { inbound with spec := { inbound.spec with tag := tag } }

section Nodes
variable {x : CompileExternals} {pad : String → String} {node node' : NodeInstance} {inbound : CompiledInbound Value}

theorem compileUsers_padded (pads : PadsNode x.providers pad node node') (protocol : String) :
    compileUsers x.ext node' protocol = compileUsers x.ext node protocol := by
  unfold compileUsers
  rw [pads.nodeId,pads.users]

theorem compileVless_padded (pads : PadsNode x.providers pad node node') (provider : node.providerId = VLESS_REALITY_VISION_ID)
    (done : Inbounds.compileVless x.ext x.providers node = .ok inbound) :
    ∃ tag, providerTag x.providers node = some tag ∧ inbound.spec.tag = defaulted tag node.nodeId ∧
      Inbounds.compileVless x.ext x.providers node' = .ok (retagged inbound (defaulted (pad tag) node.nodeId)) := by
  obtain ⟨cfg,decoded,done⟩ := bind_ok done
  have parsed : x.providers.parseVless node.providerConfig = .ok cfg := by
    unfold decodeVless at decoded
    split at decoded
    · next found => exact found.trans decoded
    · cases decoded
  have decoded' : decodeVless x.providers node' = .ok { cfg with tag := pad cfg.tag } := by
    rw [decodeVless,pads.vless cfg provider parsed]
  obtain ⟨_,complete,done⟩ := bind_ok done
  obtain ⟨_,reality,done⟩ := bind_ok done
  obtain ⟨_,handshake,done⟩ := bind_ok done
  obtain ⟨_,server,done⟩ := bind_ok done
  obtain ⟨_,key,done⟩ := bind_ok done
  obtain ⟨_,ids,done⟩ := bind_ok done
  obtain ⟨_,flow,done⟩ := bind_ok done
  obtain ⟨users,listed,done⟩ := bind_ok done
  obtain ⟨_,open_,done⟩ := bind_ok done
  cases done
  refine ⟨cfg.tag,?_,rfl,?_⟩
  · rw [providerTag,if_pos provider,parsed]
    rfl
  · unfold Inbounds.compileVless
    rw [decoded',ok_bind]
    dsimp only
    rw [pads.nodeId,complete,ok_bind,reality,ok_bind,handshake,ok_bind,server,ok_bind,key,ok_bind,ids,ok_bind,flow,ok_bind,
      compileUsers_padded pads,listed,ok_bind,open_,ok_bind]
    rfl

theorem compileHysteria2_padded (pads : PadsNode x.providers pad node node') (provider : node.providerId = HYSTERIA2_SALAMANDER_ID)
    {warnings : List String} (done : Inbounds.compileHysteria2 x.ext x.providers node = .ok (inbound,warnings)) :
    ∃ tag, providerTag x.providers node = some tag ∧ inbound.spec.tag = defaulted tag node.nodeId ∧
      Inbounds.compileHysteria2 x.ext x.providers node' = .ok (retagged inbound (defaulted (pad tag) node.nodeId),warnings) := by
  unfold Inbounds.compileHysteria2 at done ⊢
  dsimp only at done
  cases parsed : x.providers.parseHysteria2 node.providerConfig with
  | error e =>
    rw [parsed] at done
    cases done
  | ok cfg =>
    rw [parsed] at done
    obtain ⟨cfg',same,done⟩ := bind_ok done
    cases same
    obtain ⟨_,complete,done⟩ := bind_ok done
    obtain ⟨_,bandwidth,done⟩ := bind_ok done
    obtain ⟨_,obfs,done⟩ := bind_ok done
    obtain ⟨masquerade,masked,done⟩ := bind_ok done
    obtain ⟨users,listed,done⟩ := bind_ok done
    cases done
    refine ⟨cfg.tag,?_,rfl,?_⟩
    · have other : node.providerId ≠ VLESS_REALITY_VISION_ID := by
        rw [provider]
        decide
      rw [providerTag,if_neg other,if_pos provider,parsed]
      rfl
    · have obfs' : checkObfs x.ext node.nodeId { cfg with tag := pad cfg.tag } = checkObfs x.ext node.nodeId cfg := rfl
      rw [pads.hysteria2 cfg provider parsed]
      dsimp only
      rw [ok_bind,pads.nodeId,complete,ok_bind,bandwidth,ok_bind,obfs',obfs,ok_bind,masked,ok_bind,compileUsers_padded pads,listed,ok_bind]
      rfl

theorem compileInbound_padded (pads : PadsNode x.providers pad node node') {warnings : List String}
    (done : compileInbound x.ext x.providers node = .ok (inbound,warnings)) :
    ∃ tag, providerTag x.providers node = some tag ∧ inbound.spec.tag = defaulted tag node.nodeId ∧
      compileInbound x.ext x.providers node' = .ok (retagged inbound (defaulted (pad tag) node.nodeId),warnings) := by
  unfold compileInbound at done ⊢
  rw [pads.nodeId,pads.providerId,pads.version]
  split at done
  · cases done
  · next named =>
    rw [if_neg named]
    split at done
    · cases done
    · next versioned =>
      rw [if_neg versioned]
      split at done
      · next provider =>
        rw [if_pos provider]
        cases vless : Inbounds.compileVless x.ext x.providers node with
        | error e =>
          rw [vless] at done
          cases done
        | ok inbound' =>
          rw [vless] at done
          cases done
          obtain ⟨tag,asked,own,compiled⟩ := compileVless_padded pads provider vless
          exact ⟨tag,asked,own,by rw [compiled]; rfl⟩
      · next other =>
        rw [if_neg other]
        split at done
        · next provider =>
          rw [if_pos provider]
          exact compileHysteria2_padded pads provider done
        · cases done

theorem sniffs_padded (pads : PadsNode x.providers pad node node') {sniff : Bool} (done : inboundProtocolSniffEnabled x.providers node = .ok sniff) :
    inboundProtocolSniffEnabled x.providers node' = .ok sniff := by
  unfold inboundProtocolSniffEnabled at done ⊢
  rw [pads.providerId]
  split at done
  · next provider =>
    rw [if_pos provider]
    unfold decodeVless at done ⊢
    cases parsed : x.providers.parseVless node.providerConfig with
    | error e =>
      rw [parsed] at done
      cases done
    | ok cfg =>
      rw [parsed] at done
      cases done
      rw [pads.vless cfg provider parsed]
      rfl
  · next other =>
    rw [if_neg other]
    exact done

end Nodes

/-! ### Collected nodes -/

theorem compiledFrom_nodeId {x : CompileExternals} {node : NodeInstance} {inbound : CompiledInbound Value} (compiled : CompiledFrom x node inbound) :
    inbound.nodeId = node.nodeId := by
  obtain ⟨_,vless⟩ | ⟨_,_,hysteria2⟩ := compiledFrom_cases compiled
  · obtain ⟨cfg,users,_,_,rfl⟩ := compileVless_spec vless
    rfl
  · obtain ⟨cfg,masquerade,users,_,_,_,rfl⟩ := compileHysteria2_spec hysteria2
    rfl

/-- The inbounds are told apart by their nodes and by their tags without white space. -/
structure Told (c : Collected) : Prop where
  tags : c.tags = (c.inbounds.map (fun inbound => trim inbound.spec.tag)).reverse
  distinct : c.tags.Nodup
  named : "" ∉ c.tags
  nodeIds : c.nodeIds = (c.inbounds.map CompiledInbound.nodeId).reverse
  owners : c.nodeIds.Nodup
  sniffs : ∀ (name : String) (sniff : Bool), c.sniffEnabled[name]? = some sniff → name ∈ c.tags

section Collecting
variable {x : CompileExternals} {pad : String → String} {so_far after : Collected}

theorem Told.collect {node : NodeInstance} (told : Told so_far) (done : collectNode x so_far node = .ok after) : Told after := by
  obtain ⟨inbound,sniff,compiled,_,fresh,named,unused,ids,tags,sniffs,inbounds⟩ := collectNode_spec done
  refine ⟨?_,?_,?_,?_,?_,?_⟩
  · rw [tags,inbounds,told.tags]
    simp
  · rw [tags]
    exact List.nodup_cons.mpr ⟨unused,told.distinct⟩
  · rw [tags]
    simpa [Ne.symm named] using told.named
  · rw [ids,inbounds,told.nodeIds,← compiledFrom_nodeId compiled]
    simp
  · rw [ids]
    exact List.nodup_cons.mpr ⟨fresh,told.owners⟩
  · intro name sniff' there
    rw [sniffs,lookup_insert] at there
    rw [tags]
    split at there
    · next same => exact same ▸ List.mem_cons_self
    · exact List.mem_cons_of_mem _ (told.sniffs name sniff' there)

theorem Told.collectEach {nodes : List NodeInstance} (told : Told so_far) (done : collectNodes x so_far nodes = .ok after) : Told after := by
  induction nodes generalizing so_far with
  | nil =>
    cases done
    exact told
  | cons node rest ih =>
    obtain ⟨middle,first,done⟩ := bind_ok done
    exact ih (told.collect first) done

theorem told_nothing : Told NOTHING_COLLECTED :=
  ⟨rfl,List.nodup_nil,List.not_mem_nil,rfl,List.nodup_nil,fun name sniff impossible => by simp [NOTHING_COLLECTED] at impossible⟩

theorem Told.unique (told : Told so_far) {i j : CompiledInbound Value} (here : i ∈ so_far.inbounds) (there : j ∈ so_far.inbounds)
    (same : trim i.spec.tag = trim j.spec.tag) : i = j := by
  have distinct := told.distinct
  rw [told.tags,List.nodup_reverse] at distinct
  exact List.inj_on_of_nodup_map distinct here there same

theorem Told.nonempty (told : Told so_far) {i : CompiledInbound Value} (here : i ∈ so_far.inbounds) : trim i.spec.tag ≠ "" := by
  intro empty
  refine told.named ?_
  rw [told.tags,List.mem_reverse,← empty]
  exact List.mem_map_of_mem (f := fun inbound : CompiledInbound Value => trim inbound.spec.tag) here

theorem trim_defaulted (padded : ∀ name, Padded name (pad name)) {tag fallback : String} (named : pad tag ≠ tag → tag ≠ "") :
    trim (defaulted (pad tag) fallback) = trim (defaulted tag fallback) := by
  by_cases same : pad tag = tag
  · rw [same]
  · have filled : ¬ tag.isEmpty := by simpa using named same
    have filled' : ¬ (pad tag).isEmpty := by
      intro empty
      obtain ⟨before,after,_,_,text⟩ := padded tag
      have nothing : (pad tag).toList = [] := by
        rw [String.isEmpty_iff.mp empty]
        rfl
      rw [text] at nothing
      have emptied : tag.toList = [] := (List.append_eq_nil_iff.mp (List.append_eq_nil_iff.mp nothing).1).2
      exact filled (by simpa using emptied)
    rw [defaulted,defaulted,if_neg filled,if_neg filled']
    exact trim_padded (padded tag)

/-- An inbound and the one of the padded node. -/
def Twin (x : CompileExternals) (pad : String → String) (nodes : List NodeInstance) (i i' : CompiledInbound Value) : Prop :=
  ∃ node ∈ nodes, ∃ tag, CompiledFrom x node i ∧ providerTag x.providers node = some tag ∧ i.spec.tag = defaulted tag node.nodeId ∧
    i' = retagged i (defaulted (pad tag) node.nodeId)

theorem collectNodes_padded (padded : ∀ name, Padded name (pad name)) {all nodes nodes' : List NodeInstance}
    (pads : List.Forall₂ (PadsNode x.providers pad) nodes nodes') (among : ∀ node ∈ nodes, node ∈ all)
    (named : ∀ node ∈ nodes, ∀ tag, providerTag x.providers node = some tag → pad tag ≠ tag → tag ≠ "")
    (done : collectNodes x so_far nodes = .ok after) (inbounds' : List (CompiledInbound Value)) :
    ∃ more more', after.inbounds = so_far.inbounds ++ more ∧ List.Forall₂ (Twin x pad all) more more' ∧
      collectNodes x { so_far with inbounds := inbounds' } nodes' = .ok { after with inbounds := inbounds' ++ more' } := by
  induction pads generalizing so_far inbounds' with
  | nil =>
    cases done
    exact ⟨[],[],by simp,.nil,by simp [collectNodes]⟩
  | @cons node node' rest rest' own _ ih =>
    obtain ⟨middle,first,done⟩ := bind_ok done
    obtain ⟨_,fresh,first⟩ := bind_ok first
    obtain ⟨⟨inbound,warnings⟩,compiled,first⟩ := bind_ok first
    obtain ⟨_,filled,first⟩ := bind_ok first
    obtain ⟨_,unused,first⟩ := bind_ok first
    obtain ⟨sniff,sniffs,first⟩ := bind_ok first
    cases first
    obtain ⟨tag,asked,tagged,compiled'⟩ := compileInbound_padded own compiled
    have same : trim (retagged inbound (defaulted (pad tag) node.nodeId)).spec.tag = trim inbound.spec.tag := by
      rw [tagged]
      exact trim_defaulted padded (named node List.mem_cons_self tag asked)
    obtain ⟨more,more',grown,twins,rest_done⟩ := ih (fun n later => among n (List.mem_cons_of_mem _ later))
      (fun n later => named n (List.mem_cons_of_mem _ later)) done (inbounds' ++ [retagged inbound (defaulted (pad tag) node.nodeId)])
    refine ⟨inbound :: more,retagged inbound (defaulted (pad tag) node.nodeId) :: more',?_,.cons ?_ twins,?_⟩
    · rw [grown]
      simp
    · exact ⟨node,among node List.mem_cons_self,tag,⟨warnings,compiled⟩,asked,tagged,rfl⟩
    · unfold collectNodes collectNode
      rw [own.nodeId,fresh,ok_bind,compiled',ok_bind]
      dsimp only
      rw [same,filled,ok_bind,unused,ok_bind,sniffs_padded own sniffs,ok_bind]
      change collectNodes x _ rest' = _
      rw [rest_done]
      simp

end Collecting

/-- Lists of related elements are sorted alike. -/
theorem forall₂_mergeSort {α β : Type} {R : α → β → Prop} {le : α → α → Bool} {le' : β → β → Bool} {xs : List α} {ys : List β}
    (related : List.Forall₂ R xs ys) (same : ∀ a b a' b', R a a' → R b b' → le a b = le' a' b') :
    List.Forall₂ R (xs.mergeSort le) (ys.mergeSort le') := by
  obtain ⟨pairs,rfl,rfl,holds⟩ : ∃ pairs : List (α × β), pairs.map Prod.fst = xs ∧ pairs.map Prod.snd = ys ∧ ∀ p ∈ pairs, R p.1 p.2 := by
    induction related with
    | nil => exact ⟨[],rfl,rfl,by simp⟩
    | @cons a b _ _ first _ ih =>
      obtain ⟨pairs,left,right,holds⟩ := ih
      refine ⟨(a,b) :: pairs,by rw [List.map_cons,left],by rw [List.map_cons,right],?_⟩
      intro p member
      rcases List.mem_cons.mp member with rfl | later
      · exact first
      · exact holds p later
  have left := List.map_mergeSort (r := fun p q => le p.1 q.1) (s := le) (f := Prod.fst) (l := pairs) (fun _ _ _ _ => rfl)
  have right := List.map_mergeSort (r := fun p q => le p.1 q.1) (s := le') (f := Prod.snd) (l := pairs)
    (fun p here q there => same p.1 q.1 p.2 q.2 (holds p here) (holds q there))
  rw [← left,← right,List.forall₂_map_left_iff,List.forall₂_map_right_iff,List.forall₂_same]
  intro p member
  exact holds p (List.mem_mergeSort.mp member)

theorem forall₂_left {α β : Type} {R : α → β → Prop} {xs : List α} {ys : List β} (related : List.Forall₂ R xs ys) {a : α} (member : a ∈ xs) :
    ∃ b ∈ ys, R a b := by
  induction related with
  | nil => cases member
  | @cons a' b _ _ first _ ih =>
    rcases List.mem_cons.mp member with rfl | later
    · exact ⟨b,List.mem_cons_self,first⟩
    · obtain ⟨b,there,holds⟩ := ih later
      exact ⟨b,List.mem_cons_of_mem _ there,holds⟩

/-- The nodes of a topology, compiled. -/
def Collects (x : CompileExternals) (topology : MachineTopology) (collected : Collected) : Prop :=
  collectNodes x NOTHING_COLLECTED (sortedNodes topology.nodes) = .ok collected

section Tags
variable {x : CompileExternals} {pad : String → String} {topology topology' : MachineTopology} {collected : Collected} {i : CompiledInbound Value}

theorem PadsTopology.sorted (pads : PadsTopology x.providers pad topology topology') :
    List.Forall₂ (PadsNode x.providers pad) (sortedNodes topology.nodes) (sortedNodes topology'.nodes) := by
  refine forall₂_mergeSort pads.nodes ?_
  intro a b a' b' first second
  rw [first.nodeId,second.nodeId]

theorem compiledFrom_tag {node : NodeInstance} (compiled : CompiledFrom x node i) :
    ∃ tag, providerTag x.providers node = some tag ∧ i.spec.tag = defaulted tag node.nodeId := by
  obtain ⟨provider,vless⟩ | ⟨provider,_,hysteria2⟩ := compiledFrom_cases compiled
  · obtain ⟨cfg,users,decoded,_,rfl⟩ := compileVless_spec vless
    unfold decodeVless at decoded
    cases parsed : x.providers.parseVless node.providerConfig with
    | error e =>
      rw [parsed] at decoded
      cases decoded
    | ok cfg' =>
      rw [parsed] at decoded
      cases decoded
      exact ⟨cfg.tag,by rw [providerTag,if_pos provider,parsed]; rfl,rfl⟩
  · obtain ⟨cfg,masquerade,users,parsed,_,_,rfl⟩ := compileHysteria2_spec hysteria2
    have other : node.providerId ≠ VLESS_REALITY_VISION_ID := by
      rw [provider]
      decide
    exact ⟨cfg.tag,by rw [providerTag,if_neg other,if_pos provider,parsed]; rfl,rfl⟩

theorem PadsNode.providerTag {node node' : NodeInstance} (own : PadsNode x.providers pad node node') {tag : String}
    (asked : Compile.providerTag x.providers node = some tag) : Compile.providerTag x.providers node' = some (pad tag) := by
  unfold Compile.providerTag at asked ⊢
  rw [own.providerId]
  split at asked
  · next provider =>
    rw [if_pos provider]
    cases parsed : x.providers.parseVless node.providerConfig with
    | error e =>
      rw [parsed] at asked
      cases asked
    | ok cfg =>
      rw [parsed] at asked
      cases asked
      rw [own.vless cfg provider parsed]
      rfl
  · next other =>
    rw [if_neg other]
    split at asked
    · next provider =>
      rw [if_pos provider]
      cases parsed : x.providers.parseHysteria2 node.providerConfig with
      | error e =>
        rw [parsed] at asked
        cases asked
      | ok cfg =>
        rw [parsed] at asked
        cases asked
        rw [own.hysteria2 cfg provider parsed]
        rfl
    · cases asked

theorem Collects.told (collects : Collects x topology collected) : Told collected := told_nothing.collectEach collects

theorem Collects.compiled (collects : Collects x topology collected) : List.Forall₂ (CompiledFrom x) (sortedNodes topology.nodes) collected.inbounds := by
  obtain ⟨more,same,compiled⟩ := collectNodes_inbounds collects
  rw [same]
  exact compiled

theorem mem_sortedNodes {nodes : List NodeInstance} {node : NodeInstance} : node ∈ sortedNodes nodes ↔ node ∈ nodes := List.mem_mergeSort

theorem Collects.inbound (collects : Collects x topology collected) {node : NodeInstance} (member : node ∈ topology.nodes) :
    ∃ i ∈ collected.inbounds, CompiledFrom x node i := forall₂_left collects.compiled (mem_sortedNodes.mpr member)

theorem compiled_nodeIds {nodes : List NodeInstance} {inbounds : List (CompiledInbound Value)} (compiled : List.Forall₂ (CompiledFrom x) nodes inbounds) :
    inbounds.map CompiledInbound.nodeId = nodes.map NodeInstance.nodeId := by
  induction compiled with
  | nil => rfl
  | cons first _ ih => rw [List.map_cons,List.map_cons,ih,compiledFrom_nodeId first]

/-- Nodes are told apart by their identities. -/
theorem Collects.node_unique (collects : Collects x topology collected) {node other : NodeInstance} (here : node ∈ topology.nodes)
    (there : other ∈ topology.nodes) (same : node.nodeId = other.nodeId) : node = other := by
  have distinct := collects.told.owners
  rw [collects.told.nodeIds,List.nodup_reverse,compiled_nodeIds collects.compiled] at distinct
  exact List.inj_on_of_nodup_map distinct (mem_sortedNodes.mpr here) (mem_sortedNodes.mpr there) same

/-- An inbound with the name that a provider asks for is the inbound of that provider. -/
theorem Collects.asked (collects : Collects x topology collected) (trimmed : TrimmedTags x.providers topology) {name : String}
    (asked : AskedFor x.providers topology name) (here : i ∈ collected.inbounds) (same : trim i.spec.tag = name) :
    ∃ node ∈ topology.nodes, providerTag x.providers node = some name ∧ CompiledFrom x node i ∧ i.spec.tag = name := by
  have own := trimmed name asked
  obtain ⟨node,member,tagged⟩ := asked
  obtain ⟨j,there,compiled⟩ := collects.inbound member
  obtain ⟨tag,tagged',raw⟩ := compiledFrom_tag compiled
  cases tagged.symm.trans tagged'
  have filled : ¬ name.isEmpty := by
    have nonempty := collects.told.nonempty here
    rw [same] at nonempty
    simpa using nonempty
  rw [defaulted,if_neg filled] at raw
  have alike : trim i.spec.tag = trim j.spec.tag := by rw [same,raw,own]
  cases collects.told.unique here there alike
  exact ⟨node,member,tagged,compiled,raw⟩

/-- The tag of an inbound that is not padded is not the name of one that is. -/
theorem Collects.unpadded (collects : Collects x topology collected) (pads : PadsTopology x.providers pad topology topology')
    (trimmed : TrimmedTags x.providers topology) {node : NodeInstance} (member : node ∈ topology.nodes) (compiled : CompiledFrom x node i)
    (here : i ∈ collected.inbounds) {tag : String} (tagged : providerTag x.providers node = some tag)
    (raw : i.spec.tag = defaulted tag node.nodeId) (kept : pad tag = tag) : pad i.spec.tag = i.spec.tag := by
  by_contra changed
  have asked := pads.tags _ changed
  obtain ⟨other,there,tagged',compiled',_⟩ := collects.asked trimmed asked here (trimmed _ asked)
  have same : node = other := collects.node_unique member there (by rw [← compiledFrom_nodeId compiled,compiledFrom_nodeId compiled'])
  subst same
  cases tagged.symm.trans tagged'
  exact changed kept

/-- The inbound keeps its rules when its tag is not padded. -/
theorem Collects.covers_kept (collects : Collects x topology collected) (pads : PadsTopology x.providers pad topology topology')
    (trimmed : TrimmedTags x.providers topology) (here : i ∈ collected.inbounds) (kept : pad i.spec.tag = i.spec.tag) (names : List String) :
    covers (names.map pad) i.spec.tag = covers names i.spec.tag := by
  have among : i.spec.tag ∈ names.map pad ↔ i.spec.tag ∈ names := by
    constructor
    · intro member
      obtain ⟨name,listed,same⟩ := List.mem_map.mp member
      by_cases changed : pad name = name
      · rw [← same,changed]
        exact listed
      · have asked := pads.tags name changed
        have alike : trim i.spec.tag = name := by rw [← same,trim_padded (pads.padded name),trimmed name asked]
        obtain ⟨_,_,_,_,own⟩ := collects.asked trimmed asked here alike
        rw [own]
        exact listed
    · intro listed
      exact List.mem_map.mpr ⟨i.spec.tag,listed,kept⟩
  unfold covers
  simp only [List.isEmpty_map,among]

/-- A padded inbound has the rules that named it, and those that name its padded tag already. -/
theorem covers_padded (pads : PadsTopology x.providers pad topology topology') (trimmed : TrimmedTags x.providers topology) {tag : String}
    (changes : PaddedTag x.providers pad topology tag) (names : List String) :
    covers (names.map pad) (pad tag) = (covers names tag || decide (pad tag ∈ names)) := by
  have own := trimmed tag changes.1
  have stays : pad (pad tag) = pad tag := by
    by_contra again
    have asked := trimmed _ (pads.tags _ again)
    rw [trim_padded (pads.padded tag),own] at asked
    exact changes.2 asked.symm
  have among : pad tag ∈ names.map pad ↔ tag ∈ names ∨ pad tag ∈ names := by
    constructor
    · intro member
      obtain ⟨name,listed,same⟩ := List.mem_map.mp member
      by_cases changed : pad name = name
      · right
        rw [← same,changed]
        exact listed
      · left
        have alike := congrArg trim same
        rw [trim_padded (pads.padded name),trim_padded (pads.padded tag),own,trimmed name (pads.tags name changed)] at alike
        exact alike ▸ listed
    · rintro (listed | listed)
      · exact List.mem_map_of_mem listed
      · exact List.mem_map.mpr ⟨pad tag,listed,stays⟩
  unfold covers
  simp only [List.isEmpty_map,among,Bool.decide_or,Bool.or_assoc]

end Tags

end NodeAgent.Compile
