import NodeAgent.Compile
import NodeAgent.Projections

/-!
What a compiled topology has passed. The outbounds that are projected are the validated ones
with a DNS server for each, and every node has become an inbound with a configuration object.
-/
namespace NodeAgent.Compile
open NodeAgent.Api NodeAgent.Json NodeAgent.FiniteMap NodeAgent.OutboundAdapter NodeAgent.Outbounds NodeAgent.ClientChains NodeAgent.RouteRules
open NodeAgent.DnsServers NodeAgent.Inbounds NodeAgent.Fallible
open NodeAgent.Runtime (CompiledInbound)

/-! ### Outbounds -/

section Assignment
variable {ext : Externals} {catalog : Catalog} {o : ValidatedOutbound} {resolvers : String → Option String}

theorem assigned_self : assignResolvers (fun tag => (catalog[tag]?).bind ValidatedOutbound.shoesDnsResolver) catalog = catalog := by
  refine Std.ExtTreeMap.ext_getElem? (fun tag => ?_)
  cases there : catalog[tag]? with
  | none => rw [assignResolvers,Std.ExtTreeMap.getElem?_map,there]; rfl
  | some o =>
    rw [lookup_assigned there,there]
    rfl

theorem assigned_insert {server : String} (there : catalog[o.tag]? = some o) :
    (assignResolvers resolvers catalog).insert o.tag { o with shoesDnsResolver := some server } =
      assignResolvers (fun tag => if tag = o.tag then some server else resolvers tag) catalog := by
  refine Std.ExtTreeMap.ext_getElem? (fun tag => ?_)
  rw [lookup_insert]
  split
  · next same =>
    subst same
    rw [lookup_assigned there,if_pos rfl]
  · next different =>
    cases found : catalog[tag]? with
    | none => simp [assignResolvers,Std.ExtTreeMap.getElem?_map,found]
    | some p => rw [lookup_assigned found,lookup_assigned found,if_neg (Ne.symm different)]

theorem assignServers_assigned {configured : List String} {strategies : IpStrategies} {inherited : Option OutboundDomainResolver}
    {outbounds : List ValidatedOutbound} {projection projection' : OutboundDnsProjection}
    (done : assignServers ext configured strategies inherited projection outbounds = .ok projection')
    (among : ∀ o ∈ outbounds, catalog[o.tag]? = some o) (assigned : ∃ resolvers, projection.outbounds = assignResolvers resolvers catalog) :
    ∃ resolvers, projection'.outbounds = assignResolvers resolvers catalog := by
  induction outbounds generalizing projection with
  | nil =>
    cases done
    exact assigned
  | cons o rest ih =>
    have later := fun p member => among p (List.mem_cons_of_mem _ member)
    rw [assignServers] at done
    split at done
    · exact ih done later assigned
    · split at done
      · cases done
      · obtain ⟨⟨tag,variants⟩,_,done⟩ := bind_ok done
        obtain ⟨resolvers,same⟩ := assigned
        have inserted := @assigned_insert _ _ resolvers tag (among o List.mem_cons_self)
        rw [← same] at inserted
        exact ih done later ⟨_,inserted⟩

end Assignment

variable {x : CompileExternals} {topology : MachineTopology} {route : Option Route}

/-- The parts of a surface and the checks that they have passed. -/
structure Passes (x : CompileExternals) (topology : MachineTopology) (route : Option Route) (surface : Surface) (catalog : Catalog) : Prop where
  route_eq : surface.route = route
  dns_eq : surface.dns = topology.dns
  built : validateOutbounds x.ext topology.outbounds = .ok catalog
  checked : validateOutboundCatalog x.ext catalog = .ok ()
  ruleSets : compileRuleSetCatalog x route = .ok (surface.ruleSets,surface.resources)
  routed : validateRoute x.ext catalog surface.ruleSets route = .ok ()
  strategies : validateDnsResolutionProjection x.ext route topology.dns catalog = .ok surface.strategies
  projected : projectOutboundDnsResolvers x.ext route topology.dns catalog surface.strategies = .ok surface.projection

theorem surface_passes {surface : Surface} (done : compileSurface x topology route = .ok surface) : ∃ catalog, Passes x topology route surface catalog := by
  obtain ⟨catalog,built,done⟩ := bind_ok done
  obtain ⟨_,checked,done⟩ := bind_ok done
  obtain ⟨⟨ruleSets,resources⟩,sets,done⟩ := bind_ok done
  obtain ⟨_,routed,done⟩ := bind_ok done
  obtain ⟨strategies,resolved,done⟩ := bind_ok done
  obtain ⟨projection,projected,done⟩ := bind_ok done
  cases done
  exact ⟨catalog,rfl,rfl,built,checked,sets,routed,resolved,projected⟩

theorem Passes.assigned {surface : Surface} {catalog : Catalog} (passes : Passes x topology route surface catalog) :
    ∃ resolvers, surface.projection.outbounds = assignResolvers resolvers catalog := by
  have projected := passes.projected
  obtain ⟨inherited,_,projected⟩ := bind_ok projected
  refine assignServers_assigned projected ?_ ⟨_,assigned_self.symm⟩
  intro o member
  obtain ⟨⟨tag,o'⟩,listed,rfl⟩ := List.mem_map.mp member
  rw [mem_toList] at listed
  have accepted := accepted passes.built passes.checked
  rw [accepted.indexed.tags tag o' listed]
  exact listed

theorem Passes.accepted {surface : Surface} {catalog : Catalog} (passes : Passes x topology route surface catalog) :
    Accepted x.ext surface.projection.outbounds := by
  obtain ⟨resolvers,same⟩ := passes.assigned
  rw [same]
  exact Accepted.assigned (Outbounds.accepted passes.built passes.checked)

/-! ### Nodes -/

variable (x) in
def CompiledFrom (node : NodeInstance) (inbound : CompiledInbound Value) : Prop :=
  ∃ warnings, compileInbound x.ext x.providers node = .ok (inbound,warnings)

theorem collectNode_spec {so_far after : Collected} {node : NodeInstance} (done : collectNode x so_far node = .ok after) :
    ∃ inbound sniff, CompiledFrom x node inbound ∧ inboundProtocolSniffEnabled x.providers node = .ok sniff ∧
      node.nodeId ∉ so_far.nodeIds ∧ trim inbound.spec.tag ≠ "" ∧ trim inbound.spec.tag ∉ so_far.tags ∧
      after.nodeIds = node.nodeId :: so_far.nodeIds ∧ after.tags = trim inbound.spec.tag :: so_far.tags ∧
      after.sniffEnabled = so_far.sniffEnabled.insert (trim inbound.spec.tag) sniff ∧ after.inbounds = so_far.inbounds ++ [inbound] := by
  obtain ⟨_,fresh,done⟩ := bind_ok done
  obtain ⟨⟨inbound,warnings⟩,compiled,done⟩ := bind_ok done
  obtain ⟨_,named,done⟩ := bind_ok done
  obtain ⟨_,unused,done⟩ := bind_ok done
  obtain ⟨sniff,sniffs,done⟩ := bind_ok done
  cases done
  refine ⟨inbound,sniff,⟨warnings,compiled⟩,sniffs,?_,?_,?_,rfl,rfl,rfl,rfl⟩
  · simpa [refuse] using fresh
  · simpa [refuse] using named
  · simpa [refuse] using unused

theorem collectNodes_inbounds {nodes : List NodeInstance} {so_far after : Collected} (done : collectNodes x so_far nodes = .ok after) :
    ∃ more, after.inbounds = so_far.inbounds ++ more ∧ List.Forall₂ (CompiledFrom x) nodes more := by
  induction nodes generalizing so_far with
  | nil =>
    cases done
    exact ⟨[],by simp,.nil⟩
  | cons node rest ih =>
    obtain ⟨middle,first,done⟩ := bind_ok done
    obtain ⟨inbound,_,compiled,_,_,_,_,_,_,_,grown⟩ := collectNode_spec first
    obtain ⟨more,same,others⟩ := ih done
    refine ⟨inbound :: more,?_,.cons compiled others⟩
    rw [same,grown]
    simp

/-- A VLESS node that compiles. -/
theorem compileVless_spec {node : NodeInstance} {inbound : CompiledInbound Value} (done : Inbounds.compileVless x.ext x.providers node = .ok inbound) :
    ∃ cfg users, decodeVless x.providers node = .ok cfg ∧ compileUsers x.ext node "vless" = .ok users ∧
      inbound = ⟨node.nodeId,"vless",⟨defaulted cfg.tag node.nodeId,vlessConfig cfg,some users⟩⟩ := by
  obtain ⟨cfg,decoded,done⟩ := bind_ok done
  obtain ⟨_,_,done⟩ := bind_ok done
  obtain ⟨_,_,done⟩ := bind_ok done
  obtain ⟨_,_,done⟩ := bind_ok done
  obtain ⟨_,_,done⟩ := bind_ok done
  obtain ⟨_,_,done⟩ := bind_ok done
  obtain ⟨_,_,done⟩ := bind_ok done
  obtain ⟨_,_,done⟩ := bind_ok done
  obtain ⟨users,listed,done⟩ := bind_ok done
  obtain ⟨_,_,done⟩ := bind_ok done
  cases done
  exact ⟨cfg,users,decoded,listed,rfl⟩

/-- A Hysteria2 node that compiles. -/
theorem compileHysteria2_spec {node : NodeInstance} {inbound : CompiledInbound Value} {warnings : List String}
    (done : Inbounds.compileHysteria2 x.ext x.providers node = .ok (inbound,warnings)) :
    ∃ cfg masquerade users, x.providers.parseHysteria2 node.providerConfig = .ok cfg ∧ compileMasquerade x.ext node.nodeId cfg.masquerade = .ok masquerade ∧
      compileUsers x.ext node "hysteria2" = .ok users ∧
      inbound = ⟨node.nodeId,"hysteria2",⟨defaulted cfg.tag node.nodeId,hysteria2Config cfg masquerade,some users⟩⟩ := by
  unfold Inbounds.compileHysteria2 at done
  dsimp only at done
  cases decoded : x.providers.parseHysteria2 node.providerConfig with
  | error e =>
    rw [decoded] at done
    cases done
  | ok cfg =>
    rw [decoded] at done
    obtain ⟨cfg',same,done⟩ := bind_ok done
    cases same
    obtain ⟨_,_,done⟩ := bind_ok done
    obtain ⟨_,_,done⟩ := bind_ok done
    obtain ⟨_,_,done⟩ := bind_ok done
    obtain ⟨masquerade,masked,done⟩ := bind_ok done
    obtain ⟨users,listed,done⟩ := bind_ok done
    cases done
    exact ⟨cfg,masquerade,users,rfl,masked,listed,rfl⟩

/-- The provider of a node that compiles is one of the two. -/
theorem compiledFrom_cases {node : NodeInstance} {inbound : CompiledInbound Value} (compiled : CompiledFrom x node inbound) :
    (node.providerId = VLESS_REALITY_VISION_ID ∧ Inbounds.compileVless x.ext x.providers node = .ok inbound) ∨
      (node.providerId = HYSTERIA2_SALAMANDER_ID ∧ ∃ warnings, Inbounds.compileHysteria2 x.ext x.providers node = .ok (inbound,warnings)) := by
  obtain ⟨warnings,compiled⟩ := compiled
  rw [compileInbound] at compiled
  split at compiled
  · cases compiled
  split at compiled
  · cases compiled
  split at compiled
  · next provider =>
    cases vless : Inbounds.compileVless x.ext x.providers node with
    | error e =>
      rw [vless] at compiled
      cases compiled
    | ok inbound' =>
      rw [vless] at compiled
      cases compiled
      exact .inl ⟨provider,rfl⟩
  split at compiled
  · next provider => exact .inr ⟨provider,warnings,compiled⟩
  · cases compiled

theorem compiledFrom_object {node : NodeInstance} {inbound : CompiledInbound Value} (compiled : CompiledFrom x node inbound) :
    ∃ fields, inbound.spec.config = .object fields := by
  obtain ⟨_,vless⟩ | ⟨_,_,hysteria2⟩ := compiledFrom_cases compiled
  · obtain ⟨cfg,users,_,_,rfl⟩ := compileVless_spec vless
    exact ⟨_,rfl⟩
  · obtain ⟨cfg,masquerade,users,_,_,_,rfl⟩ := compileHysteria2_spec hysteria2
    exact ⟨_,rfl⟩

/-! ### Projections -/

def NOTHING_COLLECTED : Collected := ⟨∅,[],[],∅,[]⟩

variable (x) in
/-- What is left of a compilation after the nodes and the surface. -/
def emitTopology (topology : MachineTopology) (route : Option Route) (collected : Collected) (surface : Surface) : Projecting CompileOutput := do
  let probeDns ← compileDns x.ext x.dns surface.dns surface.ruleSets none surface.strategies surface.projection
  let inbounds ← foldEach (addInbound x surface collected.sniffEnabled) [] collected.inbounds
  let yaml ← check (diagnosticYaml x topology route inbounds surface.projection.outbounds collected.warnings.keys)
  return ⟨⟨inbounds,surface.resources,yaml,x.globalFingerprint topology.dns route topology.outbounds,some probeDns⟩,collected.warnings.keys⟩

/-- A compilation fails before any projection, or is one of a surface. -/
theorem compileTopology_cases (x : CompileExternals) (topology : MachineTopology) (route : Option Route) :
    (∃ e, ∀ b, (compileTopology x topology route b).1 = .error (.message e)) ∨
    ∃ collected surface, collectNodes x NOTHING_COLLECTED (sortedNodes topology.nodes) = .ok collected ∧
      compileSurface x topology route = .ok surface ∧ compileTopology x topology route = emitTopology x topology route collected surface := by
  unfold compileTopology
  cases named : refuse topology.machineId.isEmpty "machine_id is required" with
  | error e => exact .inl ⟨e,fun b => rfl⟩
  | ok _ =>
    cases nodes : collectNodes x NOTHING_COLLECTED (sortedNodes topology.nodes) with
    | error e => exact .inl ⟨e,fun b => by rw [NOTHING_COLLECTED] at nodes; rw [nodes]; rfl⟩
    | ok collected =>
      cases surfaced : compileSurface x topology route with
      | error e => exact .inl ⟨e,fun b => by rw [NOTHING_COLLECTED] at nodes; rw [nodes]; rfl⟩
      | ok surface => exact .inr ⟨collected,surface,rfl,rfl,by rw [NOTHING_COLLECTED] at nodes; rw [nodes]; rfl⟩

end NodeAgent.Compile
