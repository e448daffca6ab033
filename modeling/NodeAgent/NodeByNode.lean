import NodeAgent.ConfigurationCosts
import NodeAgent.KeyedLists
import NodeAgent.TagPadding

/-!
Topologies compiled in parts. Every inbound is compiled by a plan that depends on its node and
on what the nodes share, and what it is billed for fits when less was billed before. A topology
that compiles compiles to the same inbounds when some of its nodes are left out, in whatever
order the others are listed.
-/
namespace NodeAgent.Compile
open NodeAgent.Api NodeAgent.Json NodeAgent.FiniteMap NodeAgent.OutboundAdapter NodeAgent.Outbounds NodeAgent.ClientChains NodeAgent.RouteRules
open NodeAgent.DnsServers NodeAgent.Inbounds NodeAgent.Fallible
open NodeAgent.Runtime (CompiledInbound)

/-! ### Plans -/

section Plans
variable {ext : Externals} {dext : DnsExternals} {outbounds : Catalog} {ruleSets : RuleSets}

theorem withOutbound_planned (acc : Accepted ext outbounds) {compiled : Fields} {outbound : Option ValidatedOutbound}
    (known : ∀ o, outbound = some o → Known outbounds o) : Planned ext outbounds (withOutbound ext outbounds compiled outbound) := by
  cases outbound with
  | none => exact .pure _
  | some o => exact (Planned.outboundClientAction acc (known o rfl)).bind (fun _ => .pure _)

theorem compileRuleAction_known (indexed : Indexed outbounds) {rule : RouteRule} {index : Nat} {action : String} {outbound : Option ValidatedOutbound}
    (done : compileRuleAction ext outbounds rule index = .ok (action,outbound)) : ∀ o, outbound = some o → Known outbounds o := by
  rintro o rfl
  unfold compileRuleAction at done
  split at done
  · split at done <;> cases done
  · split at done
    · split at done
      · cases done
      · split at done
        · cases done
        · split at done
          · cases done
          · next there =>
            cases done
            rw [Known,indexed.tags _ _ there]
            exact there
    · cases done

theorem compileRulesForInbound_planned (acc : Accepted ext outbounds) (route : Option Route) (inboundTag : String) (sniffEnabled : Bool) :
    Planned ext outbounds (compileRulesForInbound ext outbounds ruleSets route inboundTag sniffEnabled) := by
  have rule (rule : RouteRule) (index : Nat) : Planned ext outbounds (compileRouteRule ext outbounds ruleSets rule index) := by
    refine .check_bind (fun _ _ => .check_bind ?_)
    rintro ⟨action,outbound⟩ acts
    exact .check_bind (fun _ _ => (withOutbound_planned acc (compileRuleAction_known acc.indexed acts)).bind (fun _ => .pure _))
  have loop : Planned ext outbounds (foldEach (addRule ext outbounds ruleSets inboundTag sniffEnabled) [] (routeRules route).zipIdx) := by
    refine .foldEach (fun rules entry _ => ?_) []
    unfold addRule
    split
    · exact .pure _
    · split
      · exact .fail _
      · exact (rule entry.1 entry.2).bind (fun _ => .pure _)
  refine loop.bind (fun rules => .check_bind (fun o final => ?_))
  refine (withOutbound_planned acc ?_).bind (fun _ => .pure _)
  intro o' same
  cases same
  exact finalOutbound_known acc.indexed final

theorem reserveEmbeddedOutboundAction_planned (source : Fields) (chainField context : String) :
    Planned ext outbounds (reserveEmbeddedOutboundAction ext source chainField context) := by
  unfold reserveEmbeddedOutboundAction
  split
  · exact .pure _
  · exact .check_bind (fun _ _ => ⟨_,.reserve⟩)

theorem compileDns_planned (dns : Option Dns) (inboundTag : Option String) (strategies : IpStrategies) {projection : OutboundDnsProjection}
    (acc : Accepted ext projection.outbounds) :
    Planned ext projection.outbounds (compileDns ext dext dns ruleSets inboundTag strategies projection) := by
  have servers : Planned ext projection.outbounds (foldEach (addDnsServer ext projection.outbounds strategies) ⟨∅,[],∅⟩ (serverList dns)) := by
    refine .foldEach (fun done server _ => .check_bind (fun _ _ => .check_bind (fun _ _ => .check_bind (fun url _ => ?_)))) _
    refine Planned.bind ?_ (fun _ => .pure _)
    unfold withDetour
    split
    · exact .pure _
    · split
      · exact .fail _
      · split
        · exact .fail _
        · next o there =>
          have known : Known projection.outbounds o := by
            rw [Known,acc.indexed.tags _ _ there]
            exact there
          exact (Planned.outboundClientAction acc known).bind (fun _ => .pure _)
  have variants (byTag : Map String Fields) (emitted : EmittedDnsServers) :
      Planned ext projection.outbounds (foldEach (emitVariant ext byTag) emitted projection.variants) := by
    refine .foldEach (fun emitted variant _ => ?_) emitted
    unfold emitVariant
    split
    · exact .fail _
    · refine (reserveEmbeddedOutboundAction_planned _ _ _).bind (fun _ => ?_)
      split
      · exact .fail _
      · exact .pure _
  have rules (done : CompiledDnsServers) (compiled : CompiledDnsRules) :
      Planned ext projection.outbounds (foldEach (addDnsRule ext dext strategies ruleSets inboundTag done) compiled (dnsRules dns).zipIdx) := by
    refine .foldEach (fun compiled entry _ => .check_bind ?_) compiled
    rintro ⟨fields,query⟩ _
    dsimp only
    split
    · exact .pure _
    · split
      · exact .pure _
      · refine Planned.bind ?_ (fun _ => .pure _)
        unfold variantForRule
        split
        · exact .pure _
        · dsimp only
          split
          · exact .fail _
          · split
            · exact .fail _
            · exact (reserveEmbeddedOutboundAction_planned _ _ _).bind (fun _ => .pure _)
  refine Planned.bind (servers.bind (fun done => (variants _ _).bind (fun emitted => .check_bind (fun final _ => ?_)))) (fun _ => .pure _)
  exact (rules done _).bind (fun _ => .pure _)

end Plans

/-! ### Inbounds -/

section Inbounds
variable {x : CompileExternals} {surface : Surface} {sniffEnabled sniffEnabled' : Map String Bool}

theorem completeInbound_planned (acc : Accepted x.ext surface.projection.outbounds) (inbound : CompiledInbound Value) :
    Planned x.ext surface.projection.outbounds (completeInbound x surface sniffEnabled inbound) :=
  (compileRulesForInbound_planned acc _ _ _).bind (fun _ => (compileDns_planned _ _ _ acc).bind (fun _ => .pure _))

theorem completeInbound_nodeId {inbound completed : CompiledInbound Value} {b : ClientChainProjectionBudget}
    (done : (completeInbound x surface sniffEnabled inbound b).1 = .ok completed) : completed.nodeId = inbound.nodeId := by
  obtain ⟨rules,_,done⟩ := run_bind_inv done
  obtain ⟨dns,_,done⟩ := run_bind_inv done
  cases done
  rfl

/-- An inbound, what it is completed to, and what this is billed for. -/
structure Completed where
  inbound : CompiledInbound Value
  completed : CompiledInbound Value
  bills : List Bill

variable (x surface sniffEnabled) in
def Completed.Follows (part : Completed) : Prop :=
  ClientChains.Follows x.ext surface.projection.outbounds (completeInbound x surface sniffEnabled part.inbound) ⟨part.bills,.ok part.completed⟩

theorem addInbounds_follows {parts : List Completed} (follows : ∀ part ∈ parts, part.Follows x surface sniffEnabled)
    (done : List (CompiledInbound Value)) :
    ClientChains.Follows x.ext surface.projection.outbounds (foldEach (addInbound x surface sniffEnabled) done (parts.map Completed.inbound))
      ⟨parts.flatMap Completed.bills,.ok (done ++ parts.map Completed.completed)⟩ := by
  induction parts generalizing done with
  | nil =>
    rw [List.map_nil,List.map_nil,List.append_nil]
    exact .pure _
  | cons part rest ih =>
    have first : ClientChains.Follows x.ext surface.projection.outbounds (addInbound x surface sniffEnabled done part.inbound)
        ⟨part.bills ++ [],.ok (done ++ [part.completed])⟩ := by
      refine Follows.andThen (follows part List.mem_cons_self) ?_
      exact .pure _
    have others := ih (fun part later => follows part (List.mem_cons_of_mem _ later)) (done ++ [part.completed])
    rw [List.append_nil] at first
    have both : ClientChains.Follows x.ext surface.projection.outbounds
        (addInbound x surface sniffEnabled done part.inbound >>= fun done => foldEach (addInbound x surface sniffEnabled) done (rest.map Completed.inbound))
        ⟨part.bills ++ rest.flatMap Completed.bills,.ok ((done ++ [part.completed]) ++ rest.map Completed.completed)⟩ := by
      refine Follows.andThen first ?_
      exact others
    rw [List.append_assoc] at both
    exact both

/-- Inbounds that are completed were completed by their plans. -/
theorem addInbounds_parts (acc : Accepted x.ext surface.projection.outbounds) {inbounds done out : List (CompiledInbound Value)}
    {b : ClientChainProjectionBudget} (valid : Valid x.ext surface.projection.outbounds b)
    (run : (foldEach (addInbound x surface sniffEnabled) done inbounds b).1 = .ok out) :
    ∃ parts : List Completed, parts.map Completed.inbound = inbounds ∧
      ∀ part ∈ parts, part.Follows x surface sniffEnabled ∧ part.completed.nodeId = part.inbound.nodeId := by
  induction inbounds generalizing done b with
  | nil => exact ⟨[],rfl,fun _ member => absurd member List.not_mem_nil⟩
  | cons inbound rest ih =>
    obtain ⟨⟨bills,outcome⟩,follows⟩ := @completeInbound_planned x surface sniffEnabled acc inbound
    have planned : Planned x.ext surface.projection.outbounds (addInbound x surface sniffEnabled done inbound) :=
      (completeInbound_planned acc inbound).bind (fun _ => .pure _)
    obtain ⟨plan,adds⟩ := planned
    change ((addInbound x surface sniffEnabled done inbound >>= fun done => foldEach (addInbound x surface sniffEnabled) done rest) b).1 = .ok out at run
    cases first : (addInbound x surface sniffEnabled done inbound b).1 with
    | error e =>
      rw [run_bind_error first] at run
      cases run
    | ok next =>
      rw [run_bind_ok first] at run
      obtain ⟨parts,same,others⟩ := ih (adds.valid b valid) run
      cases completes : (completeInbound x surface sniffEnabled inbound b).1 with
      | error e =>
        have failed : (addInbound x surface sniffEnabled done inbound b).1 = .error e := congrArg Prod.fst (run_bind_error completes)
        rw [failed] at first
        cases first
      | ok completed =>
        obtain ⟨rfl,_⟩ := follows.settled b completed valid completes
        refine ⟨⟨inbound,completed,bills⟩ :: parts,by rw [List.map_cons,same],?_⟩
        intro part member
        rcases List.mem_cons.mp member with rfl | later
        · exact ⟨follows,completeInbound_nodeId completes⟩
        · exact others part later

end Inbounds

/-! ### Nodes that are left out -/

section Collecting
variable {x : CompileExternals} {so_far so_far' after : Collected} {node : NodeInstance} {nodes nodes' : List NodeInstance} {i : CompiledInbound Value}

theorem CompiledFrom.unique {j : CompiledInbound Value} (first : CompiledFrom x node i) (second : CompiledFrom x node j) : i = j := by
  obtain ⟨warnings,first⟩ := first
  obtain ⟨warnings',second⟩ := second
  cases first.symm.trans second
  rfl

/-- A node is collected after fewer other nodes as well. -/
theorem collectNode_fewer (done : collectNode x so_far node = .ok after) (ids : so_far'.nodeIds ⊆ so_far.nodeIds) (tags : so_far'.tags ⊆ so_far.tags) :
    ∃ after', collectNode x so_far' node = .ok after' ∧ after'.nodeIds ⊆ after.nodeIds ∧ after'.tags ⊆ after.tags := by
  unfold collectNode at done ⊢
  obtain ⟨_,fresh,done⟩ := bind_ok done
  obtain ⟨⟨inbound,warnings⟩,compiled,done⟩ := bind_ok done
  obtain ⟨_,named,done⟩ := bind_ok done
  obtain ⟨_,unused,done⟩ := bind_ok done
  obtain ⟨sniff,sniffs,done⟩ := bind_ok done
  cases done
  have fresh : node.nodeId ∉ so_far.nodeIds := by simpa [refuse] using fresh
  have unused : trim inbound.spec.tag ∉ so_far.tags := by simpa [refuse] using unused
  have fresh' : node.nodeId ∉ so_far'.nodeIds := fun member => fresh (ids member)
  have unused' : trim inbound.spec.tag ∉ so_far'.tags := fun member => unused (tags member)
  have named : trim inbound.spec.tag ≠ "" := by simpa [refuse] using named
  refine ⟨⟨warnings.foldl (fun set warning => set.insert warning ()) so_far'.warnings,node.nodeId :: so_far'.nodeIds,trim inbound.spec.tag :: so_far'.tags,
    so_far'.sniffEnabled.insert (trim inbound.spec.tag) sniff,so_far'.inbounds ++ [inbound]⟩,?_,List.cons_subset_cons _ ids,List.cons_subset_cons _ tags⟩
  rw [compiled]
  simp only [refuse,decide_eq_true_eq,if_neg fresh',if_neg unused',String.isEmpty_iff,if_neg named,sniffs,bind,Except.bind,pure,Except.pure]

theorem collectNodes_sublist (done : collectNodes x so_far nodes = .ok after) (part : nodes'.Sublist nodes) (ids : so_far'.nodeIds ⊆ so_far.nodeIds)
    (tags : so_far'.tags ⊆ so_far.tags) : ∃ after', collectNodes x so_far' nodes' = .ok after' := by
  induction part generalizing so_far so_far' with
  | slnil => exact ⟨_,rfl⟩
  | @cons _ _ node _ ih =>
    obtain ⟨middle,first,done⟩ := bind_ok done
    obtain ⟨_,_,_,_,_,_,_,grown,more,_⟩ := collectNode_spec first
    refine ih done (fun id member => ?_) (fun tag member => ?_)
    · rw [grown]
      exact List.mem_cons_of_mem _ (ids member)
    · rw [more]
      exact List.mem_cons_of_mem _ (tags member)
  | @cons_cons _ _ node _ ih =>
    obtain ⟨middle,first,done⟩ := bind_ok done
    obtain ⟨middle',first',ids',tags'⟩ := collectNode_fewer first ids tags
    obtain ⟨after',others⟩ := ih done ids' tags'
    refine ⟨after',?_⟩
    rw [collectNodes,first']
    exact others

theorem forall₂_sublist {α β : Type} {R : α → β → Prop} {xs xs' : List α} {ys ys' : List β} (unique : ∀ a b b', R a b → R a b' → b = b')
    (related : List.Forall₂ R xs ys) (related' : List.Forall₂ R xs' ys') (part : xs'.Sublist xs) : ys'.Sublist ys := by
  induction part generalizing ys ys' with
  | slnil =>
    cases related'
    exact List.nil_sublist _
  | cons a _ ih =>
    cases related with
    | cons _ others => exact (ih others related').cons _
  | cons_cons a _ ih =>
    cases related with
    | cons first others =>
      cases related' with
      | cons first' others' =>
        cases unique _ _ _ first first'
        exact (ih others others').cons_cons _

/-- Sniffing is known under the trimmed tag of an inbound only. -/
theorem sniffs_known (done : collectNodes x so_far nodes = .ok after) (told : Told so_far) (member : node ∈ nodes) (compiled : CompiledFrom x node i) :
    after.sniffEnabled[trim i.spec.tag]? = (inboundProtocolSniffEnabled x.providers node).toOption := by
  have kept {c c' : Collected} {rest : List NodeInstance} (collected : collectNodes x c rest = .ok c') : ∀ tag ∈ c.tags,
      c'.sniffEnabled[tag]? = c.sniffEnabled[tag]? := by
    induction rest generalizing c with
    | nil =>
      cases collected
      exact fun _ _ => rfl
    | cons other rest ih =>
      intro tag listed
      obtain ⟨middle,first,collected⟩ := bind_ok collected
      obtain ⟨inbound,_,_,_,_,_,unused,_,tags,sniffs,_⟩ := collectNode_spec first
      have there : tag ∈ middle.tags := by
        rw [tags]
        exact List.mem_cons_of_mem _ listed
      have other : trim inbound.spec.tag ≠ tag := fun same => unused (same ▸ listed)
      rw [ih collected tag there,sniffs,lookup_insert,if_neg other]
  induction nodes generalizing so_far with
  | nil => cases member
  | cons other rest ih =>
    obtain ⟨middle,first,later_done⟩ := bind_ok done
    rcases List.mem_cons.mp member with rfl | later
    · obtain ⟨inbound,sniff,own,sniffing,_,_,_,_,tags,sniffs,_⟩ := collectNode_spec first
      cases own.unique compiled
      have there : trim i.spec.tag ∈ middle.tags := by
        rw [tags]
        exact List.mem_cons_self
      rw [kept later_done _ there,sniffs,lookup_insert,if_pos rfl,sniffing]
      rfl
    · exact ih later_done (told.collect first) later

/-- What an inbound is told about sniffing depends on its node only. -/
theorem sniffs_alike (done : collectNodes x NOTHING_COLLECTED nodes = .ok after) {after' : Collected}
    (done' : collectNodes x NOTHING_COLLECTED nodes' = .ok after') (member : node ∈ nodes) (member' : node ∈ nodes') (compiled : CompiledFrom x node i) :
    after'.sniffEnabled[i.spec.tag]? = after.sniffEnabled[i.spec.tag]? := by
  by_cases trimmed : trim i.spec.tag = i.spec.tag
  · have own := sniffs_known done told_nothing member compiled
    have own' := sniffs_known done' told_nothing member' compiled
    rw [trimmed] at own own'
    exact own'.trans own.symm
  · have unknown {nodes : List NodeInstance} {c : Collected} (collected : collectNodes x NOTHING_COLLECTED nodes = .ok c) :
        c.sniffEnabled[i.spec.tag]? = none := by
      have told := told_nothing.collectEach collected
      rw [← Option.not_isSome_iff_eq_none,Option.isSome_iff_exists]
      rintro ⟨sniff,there⟩
      have listed := told.sniffs _ _ there
      rw [told.tags,List.mem_reverse] at listed
      obtain ⟨j,_,same⟩ := List.mem_map.mp listed
      exact trimmed (by rw [← same,trim_trim])
    rw [unknown done,unknown done']

end Collecting

/-! ### Parts of a topology -/

/-- Some elements of a list are told by their keys. -/
theorem sublist_eq_filter {α κ : Type} [DecidableEq κ] {key : α → κ} {xs part : List α} (sub : part.Sublist xs) (distinct : (xs.map key).Nodup) :
    part = xs.filter (fun a => decide (key a ∈ part.map key)) := by
  induction sub with
  | slnil => rfl
  | @cons part xs a sub ih =>
    rw [List.map_cons,List.nodup_cons] at distinct
    have absent : key a ∉ part.map key := fun member => distinct.1 ((sub.map key).subset member)
    rw [List.filter_cons_of_neg (by simpa using absent)]
    exact ih distinct.2
  | @cons_cons part xs a sub ih =>
    rw [List.map_cons,List.nodup_cons] at distinct
    rw [List.filter_cons_of_pos (by simp)]
    refine congrArg _ ((ih distinct.2).trans (List.filter_congr (fun b member => ?_)))
    have different : key b ≠ key a := fun same => distinct.1 (same ▸ List.mem_map_of_mem member)
    simp [different]

section Parts
variable {x : CompileExternals} {topology : MachineTopology} {route : Option Route} {surface : Surface} {collected : Collected} {nodes : List NodeInstance}

theorem sortedNodes_part (distinct : (topology.nodes.map NodeInstance.nodeId).Nodup) (part : nodes.Subperm topology.nodes) :
    sortedNodes nodes = (sortedNodes topology.nodes).filter (fun node => decide (node.nodeId ∈ nodes.map NodeInstance.nodeId)) := by
  obtain ⟨sub,perm,sublist⟩ := part
  have keys (id : String) : id ∈ sub.map NodeInstance.nodeId ↔ id ∈ nodes.map NodeInstance.nodeId := (perm.map _).mem_iff
  have chosen := sublist_eq_filter sublist distinct
  simp only [keys] at chosen
  have sorted (nodes : List NodeInstance) : (sortedNodes nodes).Perm nodes := List.mergeSort_perm _ _
  have same : (sortedNodes nodes).Perm ((sortedNodes topology.nodes).filter (fun node => decide (node.nodeId ∈ nodes.map NodeInstance.nodeId))) := by
    refine (sorted nodes).trans (perm.symm.trans ?_)
    rw [chosen]
    exact ((sorted topology.nodes).filter _).symm
  refine same.eq_of_pairwise ?_ (KeyedLists.sortByKey_sorted nodes) ((KeyedLists.sortByKey_sorted topology.nodes).sublist List.filter_sublist)
  intro node other here there before after
  have listed := mem_sortedNodes.mp (List.mem_filter.mp (same.subset here)).1
  have listed' := mem_sortedNodes.mp (List.mem_filter.mp there).1
  exact List.inj_on_of_nodup_map distinct listed listed' (KeyedLists.key_eq_of_byKey before after)

theorem diagnosticYaml_ok (yaml : ∀ d, ∃ text, x.yaml d = .ok text) (inbounds : List (CompiledInbound Value)) (outbounds : Catalog)
    (warnings : List String) : ∃ text, diagnosticYaml x topology route inbounds outbounds warnings = .ok text := by
  unfold diagnosticYaml
  generalize (⟨"shoes-equivalent-v1",_,_,_,_,_,_,_⟩ : Diagnostic) = d
  obtain ⟨text,written⟩ := yaml d
  exact ⟨text,by rw [written]⟩

theorem emitTopology_follows {probe : Value} {bills : List Bill} {parts : List Completed} {text : String}
    (probes : ClientChains.Follows x.ext surface.projection.outbounds
      (compileDns x.ext x.dns surface.dns surface.ruleSets none surface.strategies surface.projection) ⟨bills,.ok probe⟩)
    (listed : parts.map Completed.inbound = collected.inbounds) (follows : ∀ part ∈ parts, part.Follows x surface collected.sniffEnabled)
    (yaml : diagnosticYaml x topology route (parts.map Completed.completed) surface.projection.outbounds collected.warnings.keys = .ok text) :
    ClientChains.Follows x.ext surface.projection.outbounds (emitTopology x topology route collected surface) ⟨bills ++ parts.flatMap Completed.bills,
      .ok ⟨⟨parts.map Completed.completed,surface.resources,text,x.globalFingerprint topology.dns route topology.outbounds,some probe⟩,
        collected.warnings.keys⟩⟩ := by
  have inbounds := addInbounds_follows follows []
  rw [listed] at inbounds
  have rest : ClientChains.Follows x.ext surface.projection.outbounds
      (check (diagnosticYaml x topology route (parts.map Completed.completed) surface.projection.outbounds collected.warnings.keys) >>= fun yaml =>
        pure (⟨⟨parts.map Completed.completed,surface.resources,yaml,x.globalFingerprint topology.dns route topology.outbounds,some probe⟩,
          collected.warnings.keys⟩ : CompileOutput)) ⟨[],.ok ⟨⟨parts.map Completed.completed,surface.resources,text,
            x.globalFingerprint topology.dns route topology.outbounds,some probe⟩,collected.warnings.keys⟩⟩ := by
    rw [yaml]
    exact .pure _
  have both : ClientChains.Follows x.ext surface.projection.outbounds (emitTopology x topology route collected surface)
      ⟨bills ++ (parts.flatMap Completed.bills ++ []),.ok ⟨⟨parts.map Completed.completed,surface.resources,text,
        x.globalFingerprint topology.dns route topology.outbounds,some probe⟩,collected.warnings.keys⟩⟩ := by
    refine Follows.andThen probes ?_
    refine Follows.andThen inbounds ?_
    exact rest
  rw [List.append_nil] at both
  exact both

theorem default_sound {ext : Externals} {catalog : Catalog} : ClientChainProjectionBudget.default.ledger.Sound ext catalog :=
  ⟨fun id a impossible => by simp [ClientChainProjectionBudget.ledger,ClientChainProjectionBudget.default] at impossible,
    by simp [ClientChainProjectionBudget.ledger,ClientChainProjectionBudget.default]⟩

theorem compileTopology_nodes {b : ClientChainProjectionBudget} {out : CompileOutput} {collected' : Collected}
    (done : (compileTopology x topology route b).1 = .ok out) (collects' : collectNodes x NOTHING_COLLECTED (sortedNodes nodes) = .ok collected') :
    ∃ surface, compileSurface x topology route = .ok surface ∧
      compileTopology x { topology with nodes := nodes } route = emitTopology x { topology with nodes := nodes } route collected' surface := by
  obtain ⟨e,failed⟩ | ⟨collected,surface,_,surfaced,_⟩ := compileTopology_cases x topology route
  · rw [failed] at done
    cases done
  · refine ⟨surface,surfaced,?_⟩
    have surfaced' : compileSurface x { topology with nodes := nodes } route = .ok surface := surfaced
    unfold NOTHING_COLLECTED at collects'
    unfold compileTopology at done ⊢
    cases named : refuse topology.machineId.isEmpty "machine_id is required" with
    | error e =>
      rw [named] at done
      cases done
    | ok _ =>
      dsimp only
      rw [collects',surfaced']
      rfl

/-- A topology with some of the nodes of one that compiles, listed in any order, compiles as well: to the inbounds that these nodes
    have there, with the same rule sets, the same DNS for probes and the same fingerprint. -/
theorem node_by_node {disableTrafficAnalysis : Bool} {out : CompileOutput} (yaml : ∀ d, ∃ text, x.yaml d = .ok text)
    (done : compileWithLocalOverrides x topology disableTrafficAnalysis = .ok out) (part : nodes.Subperm topology.nodes) :
    ∃ out', compileWithLocalOverrides x { topology with nodes := nodes } disableTrafficAnalysis = .ok out' ∧
      out'.runtime.inbounds = out.runtime.inbounds.filter (fun inbound => decide (inbound.nodeId ∈ nodes.map NodeInstance.nodeId)) ∧
      out'.runtime.ruleSets = out.runtime.ruleSets ∧ out'.runtime.urltestProbeDns = out.runtime.urltestProbeDns ∧
      out'.runtime.dnsClientFingerprint = out.runtime.dnsClientFingerprint := by
  suffices general : ∀ route, compileWithRoute x topology route = .ok out → ∃ out', compileWithRoute x { topology with nodes := nodes } route = .ok out' ∧
      out'.runtime.inbounds = out.runtime.inbounds.filter (fun inbound => decide (inbound.nodeId ∈ nodes.map NodeInstance.nodeId)) ∧
      out'.runtime.ruleSets = out.runtime.ruleSets ∧ out'.runtime.urltestProbeDns = out.runtime.urltestProbeDns ∧
      out'.runtime.dnsClientFingerprint = out.runtime.dnsClientFingerprint by
    cases disableTrafficAnalysis with
    | true => exact general _ done
    | false => exact general _ done
  intro route done
  unfold compileWithRoute at done ⊢
  obtain ⟨e,failed⟩ | ⟨collected,surface,collects,surfaced,same⟩ := compileTopology_cases x topology route
  · rw [failed] at done
    cases done
  obtain ⟨catalog,passes⟩ := surface_passes surfaced
  have acc := passes.accepted
  have told := told_nothing.collectEach collects
  have compiled : List.Forall₂ (CompiledFrom x) (sortedNodes topology.nodes) collected.inbounds := Collects.compiled collects
  -- The nodes of the part are collected, each to the same inbound.
  have distinct : (topology.nodes.map NodeInstance.nodeId).Nodup := by
    have owners := told.owners
    rw [told.nodeIds,List.nodup_reverse,compiled_nodeIds compiled] at owners
    exact (((List.mergeSort_perm _ _).map _).nodup_iff).mp owners
  have chosen := sortedNodes_part distinct part
  have sub : (sortedNodes nodes).Sublist (sortedNodes topology.nodes) := chosen ▸ List.filter_sublist
  obtain ⟨collected',collects'⟩ := collectNodes_sublist collects sub (List.Subset.refl _) (List.Subset.refl _)
  obtain ⟨inbounds',listed',compiled'⟩ := collectNodes_inbounds collects'
  have inbounds_sub : inbounds'.Sublist collected.inbounds := forall₂_sublist (fun _ _ _ first second => first.unique second) compiled compiled' sub
  obtain ⟨surface',surfaced',emitted⟩ := compileTopology_nodes done collects'
  cases surfaced.symm.trans surfaced'
  -- The whole topology settles the bills of all its inbounds.
  obtain ⟨⟨bills,outcome⟩,probes⟩ : Planned x.ext surface.projection.outbounds
    (compileDns x.ext x.dns surface.dns surface.ruleSets none surface.strategies surface.projection) := compileDns_planned _ _ _ acc
  rw [same] at done
  obtain ⟨probe,probed,rest⟩ := run_bind_inv done
  obtain ⟨inbounds,added,_⟩ := run_bind_inv rest
  obtain ⟨rfl,_⟩ := probes.settled _ _ valid_default probed
  obtain ⟨parts,listed,follows⟩ := addInbounds_parts acc (probes.valid _ valid_default) added
  obtain ⟨text,written⟩ := @diagnosticYaml_ok x topology route yaml (parts.map Completed.completed) surface.projection.outbounds collected.warnings.keys
  obtain ⟨outcome,l,settles⟩ := (emitTopology_follows probes listed (fun part member => (follows part member).1) written).settled _ _ valid_default done
  cases outcome
  -- The part settles some of these bills.
  rw [← listed] at inbounds_sub
  obtain ⟨parts',parts_sub,rfl⟩ := List.sublist_map_iff.mp inbounds_sub
  have follows' : ∀ part ∈ parts', part.Follows x surface collected'.sniffEnabled := by
    intro part member
    obtain ⟨node,among,own⟩ := forall₂_left compiled'.flip (List.mem_map_of_mem member)
    have known := (follows part (parts_sub.subset member)).1
    unfold Completed.Follows completeInbound at known ⊢
    rw [sniffs_alike collects collects' (sub.subset among) among own]
    exact known
  obtain ⟨text',written'⟩ := @diagnosticYaml_ok x { topology with nodes := nodes } route yaml (parts'.map Completed.completed) surface.projection.outbounds
    collected'.warnings.keys
  have fewer : (bills ++ parts'.flatMap Completed.bills).Sublist (bills ++ parts.flatMap Completed.bills) :=
    (List.Sublist.refl bills).append (parts_sub.flatMap Completed.bills)
  have whole' := emitTopology_follows probes (by rw [listed']; rfl) follows' written'
  have genuine := (emitTopology_follows probes listed (fun part member => (follows part member).1) written).genuine
  obtain ⟨l',settles'⟩ := settles.sublist acc fewer genuine ⟨Nat.le_refl _,Nat.le_refl _,fun _ _ there => there⟩ default_sound default_sound
    ⟨Nat.zero_le _,Nat.zero_le _⟩
  have compiles := (congrArg (fun compile => (compile ClientChainProjectionBudget.default).1) emitted).trans (whole'.runs _ _ valid_default settles').1
  refine ⟨_,compiles,?_,rfl,rfl,rfl⟩
  -- The inbounds of the part are told by their nodes.
  have nodeIds {some_parts : List Completed} (among : ∀ part ∈ some_parts, part ∈ parts) :
      (some_parts.map Completed.completed).map CompiledInbound.nodeId = (some_parts.map Completed.inbound).map CompiledInbound.nodeId := by
    rw [List.map_map,List.map_map]
    exact List.map_congr_left (fun part member => (follows part (among part member)).2)
  have unique : ((parts.map Completed.completed).map CompiledInbound.nodeId).Nodup := by
    rw [nodeIds (fun _ member => member),listed]
    have owners := told.owners
    rwa [told.nodeIds,List.nodup_reverse] at owners
  refine (sublist_eq_filter (parts_sub.map Completed.completed) unique).trans (List.filter_congr (fun inbound _ => ?_))
  rw [nodeIds (fun part member => parts_sub.subset member),compiled_nodeIds compiled']
  exact decide_eq_decide.mpr ((List.mergeSort_perm _ _).map _).mem_iff

end Parts

theorem compile_untouched {x : CompileExternals} {topology : MachineTopology} {route : Option Route} (routed : topology.route = route) :
    compileWithLocalOverrides x topology false = (compileTopology x topology route .default).1 := by
  rw [← routed]
  rfl

private def pairNode (nodeId tag : String) : NodeInstance :=
  ⟨nodeId,VLESS_REALITY_VISION_ID,CURRENT_CONFIG_VERSION,(vlessText tag).toUTF8.toList,[⟨"u","","00000000-0000-4000-8000-000000000000","",0,0⟩]⟩

/-- The sample with two nodes, which are not listed in the order of their identities. -/
private def pairTopology : MachineTopology := { sampleTopology with nodes := [pairNode "n" "a",pairNode "k" "b"] }

private def pairExternals : CompileExternals :=
  sampleExternals.provided { sampleExternals.providers with parseVless := parseSample ["a","b"] }

/-- The nodes with short names for their configurations, and a decoder of these. -/
private def briefNodes : List NodeInstance := [{ pairNode "n" "a" with providerConfig := [97] },{ pairNode "k" "b" with providerConfig := [98] }]

private def briefProviders : ProviderExternals :=
  { sampleExternals.providers with parseVless := fun bytes => if bytes = [97] then .ok (vlessSample "a") else .ok (vlessSample "b") }

private theorem sorted_pair {first second : NodeInstance} (swapped : (compare first.nodeId second.nodeId).isLE = false) :
    sortedNodes [first,second] = [second,first] := by
  simp [sortedNodes,List.mergeSort,List.MergeSort.Internal.splitInTwo,swapped]

private theorem pair_brief : compileTopology pairExternals pairTopology none =
    compileTopology (pairExternals.provided briefProviders) { pairTopology with nodes := briefNodes } none := by
  refine compileTopology_alike ?_
  rw [show pairTopology.nodes = [pairNode "n" "a",pairNode "k" "b"] from rfl,briefNodes,sorted_pair (by decide),sorted_pair (by decide)]
  refine .cons (.decoded rfl rfl ?_) (.cons (.decoded rfl rfl ?_) .nil)
  · exact (parseSample_text (by decide)).symm
  · exact (parseSample_text (by decide)).symm

private theorem pair_compiles : (compileTopology (pairExternals.provided briefProviders) { pairTopology with nodes := briefNodes } none .default).1.toOption.map
    (fun out => out.runtime.inbounds.map CompiledInbound.nodeId) = some ["k","n"] := by
  unfold compileTopology
  rw [briefNodes,sorted_pair (by decide)]
  decide +kernel

/-- The second of the two nodes alone, and both of them the other way around. -/
theorem one_of_two : ∃ out alone turned, compileWithLocalOverrides pairExternals pairTopology false = .ok out ∧
    out.runtime.inbounds.map CompiledInbound.nodeId = ["k","n"] ∧
    compileWithLocalOverrides pairExternals { pairTopology with nodes := [pairNode "k" "b"] } false = .ok alone ∧
    alone.runtime.inbounds = out.runtime.inbounds.take 1 ∧ alone.runtime.urltestProbeDns = out.runtime.urltestProbeDns ∧
    compileWithLocalOverrides pairExternals { pairTopology with nodes := [pairNode "k" "b",pairNode "n" "a"] } false = .ok turned ∧
    turned.runtime.inbounds = out.runtime.inbounds := by
  have compiles := pair_compiles
  rw [← pair_brief,← @compile_untouched pairExternals pairTopology none rfl] at compiles
  obtain ⟨out,done,ids⟩ := Option.map_eq_some_iff.mp compiles
  have done : compileWithLocalOverrides pairExternals pairTopology false = .ok out := by
    generalize compileWithLocalOverrides pairExternals pairTopology false = result at done
    cases result with
    | error e => cases done
    | ok own => exact congrArg Except.ok (Option.some.inj done)
  have one : [pairNode "k" "b"].Subperm pairTopology.nodes := List.Sublist.subperm (.cons _ (.cons_cons _ .slnil))
  have both : [pairNode "k" "b",pairNode "n" "a"].Subperm pairTopology.nodes := List.Perm.subperm (.swap _ _ _)
  obtain ⟨alone,done₁,inbounds₁,_,probes,_⟩ := @node_by_node pairExternals pairTopology _ false out (fun d => ⟨_,rfl⟩) done one
  obtain ⟨turned,done₂,inbounds₂,_⟩ := @node_by_node pairExternals pairTopology _ false out (fun d => ⟨_,rfl⟩) done both
  have listed := ids
  obtain ⟨first,rest,all,k,ids⟩ := List.map_eq_cons_iff.mp ids
  obtain ⟨second,rest,rfl,n,ids⟩ := List.map_eq_cons_iff.mp ids
  rw [List.map_eq_nil_iff.mp ids] at all
  refine ⟨out,alone,turned,done,listed,done₁,?_,probes,done₂,?_⟩
  · rw [inbounds₁,all]
    simp [k,n,pairNode]
  · rw [inbounds₂,all]
    simp [k,n,pairNode]

end NodeAgent.Compile
