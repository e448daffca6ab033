import NodeAgent.TagPadding
import NodeAgent.Utf8Bytes

/-!
Padded tags in the runtime, which removes white space itself. A padded topology has the same
inbounds there if and only if no step of the compilation has seen the padding.
-/
namespace NodeAgent.Compile
open NodeAgent.Api NodeAgent.Json NodeAgent.FiniteMap NodeAgent.OutboundAdapter NodeAgent.Outbounds NodeAgent.ClientChains NodeAgent.RouteRules
open NodeAgent.DnsServers NodeAgent.Inbounds NodeAgent.Fallible
open NodeAgent.Runtime (CompiledInbound NormalizedInbound normalizeInbounds normalizeInbound)

/-! ### The runtime -/

/-- The same inbound up to white space around the tag. -/
def Alike (i i' : CompiledInbound Value) : Prop := ∃ tag, trim tag = trim i.spec.tag ∧ i' = retagged i tag

theorem normalizeInbound_alike {i i' : CompiledInbound Value} (alike : Alike i i') : normalizeInbound i' = normalizeInbound i := by
  obtain ⟨tag,same,rfl⟩ := alike
  have own : Runtime.trim (retagged i tag).spec.tag = Runtime.trim i.spec.tag := same
  unfold normalizeInbound
  rw [own]
  rfl

theorem normalizeInbounds_alike {listed listed' : List (CompiledInbound Value)} (alike : List.Forall₂ Alike listed listed')
    (so_far : Map String (NormalizedInbound Value)) : normalizeInbounds so_far listed' = normalizeInbounds so_far listed := by
  induction alike generalizing so_far with
  | nil => rfl
  | cons first _ ih =>
    rw [normalizeInbounds,normalizeInbounds,normalizeInbound_alike first]
    split
    · rfl
    · next inbound _ =>
      dsimp only
      rw [ih]

/-! ### The same inbounds -/

section Kept
variable {x : CompileExternals} {pad : String → String} {topology topology' : MachineTopology} {collected : Collected} {surface : Surface}
variable {i i' : CompiledInbound Value}

/-- An inbound either keeps its tag and the rules that name it, or has a padded tag. -/
theorem Twin.cases (twin : Twin x pad (sortedNodes topology.nodes) i i') (collects : Collects x topology collected)
    (pads : PadsTopology x.providers pad topology topology') (trimmed : TrimmedTags x.providers topology)
    (named : ∀ tag, PaddedTag x.providers pad topology tag → tag ≠ "") :
    (i' = i ∧ ∀ names : List String, covers (names.map pad) i.spec.tag = covers names i.spec.tag) ∨
      (i' = retagged i (pad i.spec.tag) ∧ PaddedTag x.providers pad topology i.spec.tag) := by
  obtain ⟨node,member,tag,compiled,tagged,raw,rfl⟩ := twin
  have member := mem_sortedNodes.mp member
  obtain ⟨j,here,compiled'⟩ := collects.inbound member
  have same : i = j := by
    obtain ⟨_,done⟩ := compiled
    obtain ⟨_,done'⟩ := compiled'
    rw [done] at done'
    cases done'
    rfl
  subst same
  by_cases kept : pad tag = tag
  · left
    refine ⟨by rw [kept,← raw]; rfl,?_⟩
    exact collects.covers_kept pads trimmed here (collects.unpadded pads trimmed member compiled here tagged raw kept)
  · right
    have changes : PaddedTag x.providers pad topology tag := ⟨⟨node,member,tagged⟩,kept⟩
    have filled : ¬ tag.isEmpty := by simpa using named tag changes
    rw [defaulted,if_neg filled] at raw
    rw [raw]
    refine ⟨?_,changes⟩
    have filled' : ¬ (pad tag).isEmpty := by
      intro empty
      have nothing := trim_padded (pads.padded tag)
      rw [String.isEmpty_iff.mp empty,trimmed tag changes.1] at nothing
      exact named tag changes nothing.symm
    rw [defaulted,if_neg filled']

/-- The surface with padded rules. -/
def padSurface (pad : String → String) (surface : Surface) : Surface :=
  { surface with route := surface.route.map (padRoute pad), dns := surface.dns.map (padDns pad) }

/-- No digest of a counted DNS rule changes. -/
theorem Unseen.digests (unseen : Unseen x pad topology) (pads : PadsTopology x.providers pad topology topology') :
    ∀ entry ∈ (dnsRules topology.dns).zipIdx, countsFloods x.dns entry.1 →
      x.dns.rejectFloodDigest (padDnsRule pad entry.1) entry.2 = x.dns.rejectFloodDigest entry.1 entry.2 := by
  intro entry member counts
  by_cases changes : ∃ tag ∈ entry.1.inbound, pad tag ≠ tag
  · obtain ⟨tag,listed,changed⟩ := changes
    refine unseen.floods tag ⟨pads.tags tag changed,changed⟩ entry member ?_ counts
    rw [dnsRuleApplies_some,covers,decide_eq_true listed,Bool.or_true]
  · have each : ∀ tag ∈ entry.1.inbound, pad tag = id tag := by
      intro tag listed
      by_contra changed
      exact changes ⟨tag,listed,changed⟩
    have same : entry.1.inbound.map pad = entry.1.inbound := (List.map_congr_left each).trans (List.map_id _)
    rw [padDnsRule,same]

theorem completeInbound_mirrors (unseen : Unseen x pad topology) (collects : Collects x topology collected)
    (pads : PadsTopology x.providers pad topology topology') (trimmed : TrimmedTags x.providers topology)
    (routed : surface.route = topology.route) (resolved : surface.dns = topology.dns)
    (twin : Twin x pad (sortedNodes topology.nodes) i i') :
    Mirrors Alike (completeInbound x surface collected.sniffEnabled i) (completeInbound x (padSurface pad surface) collected.sniffEnabled i') := by
  have digests := unseen.digests pads
  have rules : ∃ tag, i' = retagged i tag ∧ trim tag = trim i.spec.tag ∧
      (∀ rule ∈ routeRules surface.route, appliesTo tag (padRule pad rule) = appliesTo i.spec.tag rule) ∧
      (tag = i.spec.tag ∨ ∀ rule ∈ routeRules surface.route, appliesTo i.spec.tag rule → rule.protocol = []) ∧
      ∀ rule ∈ dnsRules surface.dns, dnsRuleApplies (some tag) (padDnsRule pad rule) = dnsRuleApplies (some i.spec.tag) rule := by
    rw [routed,resolved]
    obtain ⟨rfl,kept⟩ | ⟨rfl,changes⟩ := twin.cases collects pads trimmed unseen.named
    · exact ⟨i'.spec.tag,rfl,rfl,fun rule _ => kept rule.inbound,.inl rfl,fun rule _ => kept rule.inbound⟩
    · refine ⟨pad i.spec.tag,rfl,trim_padded (pads.padded _),?_,.inr (unseen.sniffs _ changes),?_⟩
      · intro rule listed
        have covered := covers_padded pads trimmed changes rule.inbound
        have old := unseen.routes _ changes rule listed
        rw [appliesTo_covers] at old
        rw [appliesTo_covers,appliesTo_covers]
        refine covered.trans ?_
        cases there : covers rule.inbound i.spec.tag with
        | true => rfl
        | false => simpa [there] using old
      · intro rule listed
        have covered := covers_padded pads trimmed changes rule.inbound
        have old := unseen.lookups _ changes rule listed
        rw [dnsRuleApplies_some] at old
        rw [dnsRuleApplies_some,dnsRuleApplies_some]
        refine covered.trans ?_
        cases there : covers rule.inbound i.spec.tag with
        | true => rfl
        | false => simpa [there] using old
  obtain ⟨tag,rfl,same,routes,sniffs,lookups⟩ := rules
  have compiled_rules := @compileRulesForInbound_padded pad x.ext surface.projection.outbounds surface.ruleSets surface.route i.spec.tag tag
    ((collected.sniffEnabled[i.spec.tag]?).getD false) ((collected.sniffEnabled[tag]?).getD false) routes (by
      rcases sniffs with rfl | plain
      · exact .inl ⟨rfl,rfl⟩
      · exact .inr plain)
  have compiled_dns := @compileDns_padded pad x.ext surface.ruleSets surface.dns x.dns surface.strategies surface.projection (some i.spec.tag) (some tag)
    lookups (by rw [resolved]; exact digests)
  unfold completeInbound
  refine Mirrors.bind (S := Eq) ?_ ?_
  · intro b rules b' done
    exact ⟨rules,(congrFun compiled_rules b).trans done,rfl⟩
  · rintro rules _ rfl
    refine Mirrors.bind (S := Eq) ?_ ?_
    · intro b dns b' done
      exact ⟨dns,(congrFun compiled_dns b).trans done,rfl⟩
    · rintro dns _ rfl
      exact Mirrors.pure ⟨tag,same,rfl⟩

theorem emitTopology_mirrors (encodes : ∀ d, ∃ text, x.yaml d = .ok text) (unseen : Unseen x pad topology) (collects : Collects x topology collected)
    (pads : PadsTopology x.providers pad topology topology') (trimmed : TrimmedTags x.providers topology)
    (routed : surface.route = topology.route) (resolved : surface.dns = topology.dns) {inbounds' : List (CompiledInbound Value)}
    (twins : List.Forall₂ (Twin x pad (sortedNodes topology.nodes)) collected.inbounds inbounds') :
    Mirrors (fun out out' => List.Forall₂ Alike out.runtime.inbounds out'.runtime.inbounds)
      (emitTopology x topology topology.route collected surface)
      (emitTopology x topology' topology'.route { collected with inbounds := inbounds' } (padSurface pad surface)) := by
  have probes := @compileDns_padded pad x.ext surface.ruleSets surface.dns x.dns surface.strategies surface.projection none none
    (fun rule _ => by simp [dnsRuleApplies,padDnsRule]) (by rw [resolved]; exact unseen.digests pads)
  unfold emitTopology
  refine Mirrors.bind (S := Eq) ?_ ?_
  · intro b dns b' done
    exact ⟨dns,(congrFun probes b).trans done,rfl⟩
  · rintro probeDns _ rfl
    refine Mirrors.bind (S := List.Forall₂ Alike) ?_ ?_
    · refine Mirrors.foldEach twins ?_ .nil
      intro done done' i i' alike twin
      refine Mirrors.bind (completeInbound_mirrors unseen collects pads trimmed routed resolved twin) ?_
      intro completed completed' own
      exact Mirrors.pure (List.rel_append alike (.cons own .nil))
    · intro inbounds inbounds' alike
      have encoded : ∃ text, diagnosticYaml x topology' topology'.route inbounds' surface.projection.outbounds collected.warnings.keys = .ok text := by
        unfold diagnosticYaml
        obtain ⟨text,encoded⟩ := encodes ⟨"shoes-equivalent-v1",topology'.machineId,topology'.revision,inbounds'.map diagnosticInbound,
          .array ((surface.projection.outbounds.toList.map Prod.snd).map requestedOutbound),(topology'.route.map x.routeValue).getD .null,
          (topology'.dns.map x.dnsValue).getD .null,collected.warnings.keys⟩
        exact ⟨text,by rw [encoded]⟩
      obtain ⟨text',encoded⟩ := encoded
      refine Mirrors.bind (S := fun _ _ => True) ?_ (fun text text' _ => Mirrors.pure alike)
      intro b text b' done
      have unchanged : b' = b := by
        cases first : diagnosticYaml x topology topology.route inbounds surface.projection.outbounds collected.warnings.keys with
        | error e =>
          rw [first] at done
          cases done
        | ok text =>
          rw [first] at done
          cases done
          rfl
      refine ⟨text',?_,trivial⟩
      rw [unchanged]
      change check (diagnosticYaml x topology' topology'.route inbounds' surface.projection.outbounds collected.warnings.keys) b = _
      rw [encoded]
      rfl

/-- What a compilation consists of. -/
theorem compiled_parts {out : CompileOutput} : compileWithWarnings x topology = .ok out ↔
    topology.machineId.isEmpty = false ∧ ∃ collected surface, Collects x topology collected ∧ compileSurface x topology topology.route = .ok surface ∧
      (emitTopology x topology topology.route collected surface .default).1 = .ok out := by
  unfold compileWithWarnings compileWithRoute compileTopology
  cases named : topology.machineId.isEmpty with
  | true =>
    constructor
    · intro done
      cases done
    · rintro ⟨impossible,_⟩
      cases impossible
  | false =>
    cases collects : collectNodes x NOTHING_COLLECTED (sortedNodes topology.nodes) with
    | error e =>
      constructor
      · intro done
        rw [NOTHING_COLLECTED] at collects
        rw [collects] at done
        cases done
      · rintro ⟨_,_,_,collects',_⟩
        rw [Collects,collects] at collects'
        cases collects'
    | ok collected =>
      cases surfaced : compileSurface x topology topology.route with
      | error e =>
        constructor
        · intro done
          rw [NOTHING_COLLECTED] at collects
          rw [collects] at done
          cases done
        · rintro ⟨_,_,_,_,surfaced',_⟩
          cases surfaced'
      | ok surface =>
        rw [NOTHING_COLLECTED] at collects
        rw [collects]
        constructor
        · intro done
          exact ⟨rfl,collected,surface,collects,rfl,done⟩
        · rintro ⟨_,collected',surface',collects',surfaced',done⟩
          cases collects.symm.trans collects'
          cases surfaced'
          exact done

/-- A compilation that does not see the padding. -/
theorem unseen_kept (encodes : ∀ d, ∃ text, x.yaml d = .ok text) (unseen : Unseen x pad topology)
    (pads : PadsTopology x.providers pad topology topology') (trimmed : TrimmedTags x.providers topology)
    {out : CompileOutput} (done : compileWithWarnings x topology = .ok out) :
    ∃ out', compileWithWarnings x topology' = .ok out' ∧
      normalizeInbounds ∅ out'.runtime.inbounds = normalizeInbounds ∅ out.runtime.inbounds := by
  obtain ⟨named,collected,surface,collects,surfaced,done⟩ := compiled_parts.mp done
  obtain ⟨catalog,passes⟩ := surface_passes surfaced
  have tags : ∀ node ∈ sortedNodes topology.nodes, ∀ tag, providerTag x.providers node = some tag → pad tag ≠ tag → tag ≠ "" :=
    fun node member tag tagged changed => unseen.named tag ⟨⟨node,mem_sortedNodes.mp member,tagged⟩,changed⟩
  obtain ⟨more,inbounds',grown,twins,collects'⟩ := collectNodes_padded pads.padded pads.sorted (fun _ member => member) tags collects []
  have all : collected.inbounds = more := grown
  rw [← all] at twins
  have surfaced' := surface_padded pads surfaced
  rw [← pads.route] at surfaced'
  have mirrors := emitTopology_mirrors encodes unseen collects pads trimmed passes.route_eq passes.dns_eq twins
  obtain ⟨out',done',alike⟩ := mirrors .default out _ (Prod.ext done rfl)
  refine ⟨out',compiled_parts.mpr ⟨by rw [pads.machineId]; exact named,_,_,collects',surfaced',congrArg Prod.fst done'⟩,?_⟩
  exact normalizeInbounds_alike alike ∅

end Kept

/-! ### What an inbound shows -/

/-- The key under which the answers to a rule are counted. -/
def floodKey (dext : DnsExternals) (entry : DnsRule × Nat) : Value := .string ("__acp_dns_reject_v1_" ++ dext.rejectFloodDigest entry.1 entry.2)

/-- The fields of a compiled rule, with its key if it is counted. -/
def Answers (dext : DnsExternals) (entry : DnsRule × Nat) (fields : Fields) : Prop :=
  countsFloods dext entry.1 → Fields.get fields "__acp_reject_flood_key" = some (floodKey dext entry)

/-- The rules and the DNS of an inbound, as far as they tell which rules apply to it. -/
structure Shows (x : CompileExternals) (surface : Surface) (sniff : Bool) (tag : String) (rules : List Value) (dns : CompiledDns) : Prop where
  counted : rules.length = ((routeRules surface.route).filter (appliesTo tag)).length + 1
  sniffs : ∀ rule ∈ routeRules surface.route, appliesTo tag rule → rule.protocol ≠ [] → sniff = true
  answers : List.Forall₂ (Answers x.dns) ((dnsRules surface.dns).zipIdx.filter (fun entry => dnsRuleApplies (some tag) entry.1)) dns.rules

section Shown
variable {ext : Externals} {dext : DnsExternals} {outbounds : Catalog} {ruleSets : RuleSets} {route : Option Route}

theorem check_returns {α : Type} {A : α → Prop} {result : Except String α} (good : ∀ a, result = .ok a → A a) : Returns A (check result) := by
  cases result with
  | ok a => exact Returns.pure (good a rfl)
  | error e => exact Returns.fail _

theorem addRules_returns {tag : String} {sniff : Bool} : Returns (fun rules : List Value => rules.length = ((routeRules route).filter (appliesTo tag)).length ∧
      ∀ rule ∈ routeRules route, appliesTo tag rule → rule.protocol ≠ [] → sniff = true)
    (foldEach (addRule ext outbounds ruleSets tag sniff) [] (routeRules route).zipIdx) := by
  have loop : Returns (fun rules : List Value => rules.length = (((routeRules route).zipIdx.map Prod.fst).filter (appliesTo tag)).length ∧
      ∀ rule ∈ (routeRules route).zipIdx.map Prod.fst, appliesTo tag rule → rule.protocol ≠ [] → sniff = true)
      (foldEach (addRule ext outbounds ruleSets tag sniff) [] (routeRules route).zipIdx) := by
    refine Returns.foldEach (fun (done : List (RouteRule × Nat)) (rules : List Value) => rules.length = ((done.map Prod.fst).filter (appliesTo tag)).length ∧
      ∀ rule ∈ done.map Prod.fst, appliesTo tag rule → rule.protocol ≠ [] → sniff = true) ⟨rfl,by simp⟩ ?_
    rintro done ⟨rule,index⟩ rest rules _ ⟨counted,sniffs⟩
    unfold addRule
    dsimp only
    cases applies : appliesTo tag rule with
    | false =>
      refine Returns.pure ⟨by simp [counted,applies],?_⟩
      intro other member
      rw [List.map_append,List.mem_append] at member
      rcases member with before | last
      · exact sniffs other before
      · rw [List.mem_singleton.mp last,applies]
        exact fun impossible => nomatch impossible
    | true =>
      rw [Bool.not_true,if_neg (by simp)]
      split
      · exact Returns.fail _
      · next allowed =>
        refine Returns.bind (fun compiled => Returns.pure ⟨by simp [counted,applies],?_⟩)
        intro other member used protocols
        rw [List.map_append,List.mem_append] at member
        rcases member with before | last
        · exact sniffs other before used protocols
        · rw [List.mem_singleton.mp last] at protocols
          simpa [protocols] using allowed
  simpa only [List.zipIdx_map_fst] using loop

theorem compileRulesForInbound_returns {tag : String} {sniff : Bool} :
    Returns (fun rules : List Value => rules.length = ((routeRules route).filter (appliesTo tag)).length + 1 ∧
      ∀ rule ∈ routeRules route, appliesTo tag rule → rule.protocol ≠ [] → sniff = true)
    (compileRulesForInbound ext outbounds ruleSets route tag sniff) := by
  refine Returns.bind_returned addRules_returns ?_
  rintro rules ⟨counted,sniffs⟩
  refine Returns.bind (fun outbound => Returns.bind (fun final => Returns.pure ⟨?_,sniffs⟩))
  rw [List.length_append,counted]
  rfl

theorem compileDnsRule_answers {servers : Map String DnsServer} {entry : DnsRule × Nat} {fields : Fields} {query : Option DnsServerQueryProfile}
    (done : compileDnsRule ext dext servers ruleSets entry.1 entry.2 = .ok (fields,query)) : Answers dext entry fields := by
  intro counts
  simp only [countsFloods,Bool.and_eq_true,decide_eq_true_eq,Bool.not_eq_true'] at counts
  obtain ⟨⟨rejects,parsed⟩,quiet⟩ := counts
  obtain ⟨_,_,done⟩ := bind_ok done
  obtain ⟨compiled,_,done⟩ := bind_ok done
  have other : ¬ entry.1.action = "route" := by
    rw [rejects]
    decide
  rw [if_neg other,if_pos rejects] at done
  obtain ⟨rejected,compiled_reject,done⟩ := bind_ok done
  cases done
  obtain ⟨_,_,compiled_reject⟩ := bind_ok compiled_reject
  rw [parsed] at compiled_reject
  dsimp only at compiled_reject
  obtain ⟨_,_,compiled_reject⟩ := bind_ok compiled_reject
  cases compiled_reject
  simp [quiet,Fields.insertSome,floodKey]

theorem addDnsRules_returns {strategies : IpStrategies} {tag : String} {done : CompiledDnsServers} {emitted : EmittedDnsServers}
    {entries : List (DnsRule × Nat)} :
    Returns (fun compiled => List.Forall₂ (Answers dext) (entries.filter (fun entry => dnsRuleApplies (some tag) entry.1)) compiled.rules)
      (foldEach (addDnsRule ext dext strategies ruleSets (some tag) done) ⟨emitted,[]⟩ entries) := by
  refine Returns.foldEach (fun (before : List (DnsRule × Nat)) (compiled : CompiledDnsRules) =>
    List.Forall₂ (Answers dext) (before.filter (fun entry => dnsRuleApplies (some tag) entry.1)) compiled.rules) .nil ?_
  intro before entry rest compiled _ answered
  have each : Returns (fun made : Fields × Option DnsServerQueryProfile => Answers dext entry made.1)
      (check (compileDnsRule ext dext done.servers ruleSets entry.1 entry.2)) := by
    refine check_returns ?_
    rintro ⟨fields,query⟩ made
    exact compileDnsRule_answers made
  refine Returns.bind_returned each ?_
  rintro ⟨fields,query⟩ own
  rw [List.filter_append]
  dsimp only
  cases applies : dnsRuleApplies (some tag) entry.1 with
  | false =>
    rw [Bool.not_false,if_pos rfl,List.filter_cons_of_neg (by simp [applies]),List.filter_nil,List.append_nil]
    exact Returns.pure answered
  | true =>
    rw [Bool.not_true,if_neg (by simp),List.filter_cons_of_pos (by simpa using applies),List.filter_nil]
    cases query with
    | none => exact Returns.pure (List.rel_append answered (.cons own .nil))
    | some query =>
      refine Returns.bind (fun variant => Returns.pure (List.rel_append answered (.cons ?_ .nil)))
      intro counts
      have key := own counts
      simpa using key

theorem compileDnsParts_returns {dns : Option Dns} {strategies : IpStrategies} {projection : OutboundDnsProjection} {tag : String} :
    Returns (fun compiled => List.Forall₂ (Answers dext) ((dnsRules dns).zipIdx.filter (fun entry => dnsRuleApplies (some tag) entry.1)) compiled.rules)
      (compileDnsParts ext dext dns ruleSets (some tag) strategies projection) := by
  refine Returns.bind (fun done => Returns.bind (fun emitted => Returns.bind (fun final => ?_)))
  exact Returns.bind_returned addDnsRules_returns (fun compiled answered => Returns.pure answered)

end Shown

section Inbounds
variable {x : CompileExternals} {surface : Surface} {sniffEnabled : Map String Bool} {i c : CompiledInbound Value}

/-- An inbound with its rules and its DNS. -/
def CompletedFrom (x : CompileExternals) (surface : Surface) (sniffEnabled : Map String Bool) (i c : CompiledInbound Value) : Prop :=
  ∃ rules dns, c = withRulesAndDns i rules dns.value ∧ Shows x surface ((sniffEnabled[i.spec.tag]?).getD false) i.spec.tag rules dns

theorem completeInbound_returns : Returns (CompletedFrom x surface sniffEnabled i) (completeInbound x surface sniffEnabled i) := by
  refine Returns.bind_returned compileRulesForInbound_returns ?_
  rintro rules ⟨counted,sniffs⟩
  refine Returns.bind_returned (A := fun dns => ∃ parts : CompiledDns, dns = parts.value ∧ List.Forall₂ (Answers x.dns)
    ((dnsRules surface.dns).zipIdx.filter (fun entry => dnsRuleApplies (some i.spec.tag) entry.1)) parts.rules) ?_ ?_
  · exact Returns.bind_returned compileDnsParts_returns (fun parts answers => Returns.pure ⟨parts,rfl,answers⟩)
  · rintro _ ⟨dns,rfl,answers⟩
    exact Returns.pure ⟨rules,dns,rfl,counted,sniffs,answers⟩

theorem emitTopology_returns {topology : MachineTopology} {route : Option Route} {collected : Collected} :
    Returns (fun out => List.Forall₂ (CompletedFrom x surface collected.sniffEnabled) collected.inbounds out.runtime.inbounds)
      (emitTopology x topology route collected surface) := by
  refine Returns.bind (fun probes => Returns.bind_returned (A := List.Forall₂ (CompletedFrom x surface collected.sniffEnabled) collected.inbounds) ?_ ?_)
  · refine Returns.foldEach (List.Forall₂ (CompletedFrom x surface collected.sniffEnabled)) .nil ?_
    intro before i rest completed _ held
    exact Returns.bind_returned completeInbound_returns (fun c own => Returns.pure (List.rel_append held (.cons own .nil)))
  · intro inbounds held
    exact Returns.bind (fun yaml => Returns.pure held)

theorem value_rules {dns dns' : CompiledDns} (same : dns.value = dns'.value) : dns.rules = dns'.rules := by
  have shown (dns : CompiledDns) : dns.value.get "rules" = if dns.rules.isEmpty then none else some (.array (dns.rules.map .object)) := by
    unfold CompiledDns.value
    cases dns.rules.isEmpty <;> simp [Fields.of,Fields.get]
  have rules := congrArg (fun value => value.get "rules") same
  rw [shown,shown] at rules
  have objects {xs ys : List Fields} (equal : xs.map Value.object = ys.map Value.object) : xs = ys :=
    List.map_injective_iff.mpr (fun a b equal => by cases equal; rfl) equal
  cases empty : dns.rules.isEmpty with
  | true =>
    cases empty' : dns'.rules.isEmpty with
    | true => rw [List.isEmpty_iff.mp empty,List.isEmpty_iff.mp empty']
    | false => simp [empty,empty'] at rules
  | false =>
    cases empty' : dns'.rules.isEmpty with
    | true => simp [empty,empty'] at rules
    | false =>
      rw [empty,empty'] at rules
      exact objects (by simpa using rules)

/-- Completed inbounds with the same configuration have the same rules. -/
theorem withRulesAndDns_inj {tag : String} {rules rules' : List Value} {dns dns' : CompiledDns} (object : ∃ fields, i.spec.config = .object fields)
    (same : (withRulesAndDns i rules dns.value).spec.config = (withRulesAndDns (retagged i tag) rules' dns'.value).spec.config) :
    rules = rules' ∧ dns.rules = dns'.rules := by
  have set_object : ∃ fields, i.spec.config.set "rules" (.array rules) = .object fields := by
    obtain ⟨fields,own⟩ := object
    exact ⟨_,by rw [own]; rfl⟩
  have set_object' : ∃ fields, i.spec.config.set "rules" (.array rules') = .object fields := by
    obtain ⟨fields,own⟩ := object
    exact ⟨_,by rw [own]; rfl⟩
  have configs : (i.spec.config.set "rules" (.array rules)).set "dns" dns.value = (i.spec.config.set "rules" (.array rules')).set "dns" dns'.value := same
  have by_dns := congrArg (fun value => value.get "dns") configs
  have by_rules := congrArg (fun value => value.get "rules") configs
  rw [get_set set_object,get_set set_object',if_pos rfl,if_pos rfl] at by_dns
  rw [get_set set_object,get_set set_object',if_neg (by decide),if_neg (by decide),get_set object,get_set object,if_pos rfl,if_pos rfl] at by_rules
  cases by_rules
  exact ⟨rfl,value_rules (Option.some.inj by_dns)⟩

end Inbounds

/-! ### The same inbounds only then -/

/-- A condition that holds of as many elements as a weaker one is as weak. -/
theorem filter_same {α : Type} {p q : α → Bool} {xs : List α} (weaker : ∀ a, p a → q a) (count : (xs.filter p).length = (xs.filter q).length)
    {a : α} (member : a ∈ xs) (holds : q a) : p a := by
  have same := (List.monotone_filter_right xs weaker).eq_of_length count
  have among : a ∈ xs.filter p := by
    rw [same]
    exact List.mem_filter.mpr ⟨member,holds⟩
  exact (List.mem_filter.mp among).2

theorem forall₂_common {α β : Type} {R S : α → β → Prop} {xs : List α} {ys : List β} (first : List.Forall₂ R xs ys) (second : List.Forall₂ S xs ys)
    {a : α} (member : a ∈ xs) : ∃ b, R a b ∧ S a b := by
  induction first with
  | nil => cases member
  | @cons a' b _ _ own _ ih =>
    cases second with
    | cons own' others =>
      rcases List.mem_cons.mp member with rfl | later
      · exact ⟨b,own,own'⟩
      · exact ih others later

theorem normalizeInbounds_keeps {listed : List (CompiledInbound Value)} {so_far inbounds : Map String (NormalizedInbound Value)}
    (done : normalizeInbounds so_far listed = .ok inbounds) {tag : String} {n : NormalizedInbound Value} (there : so_far[tag]? = some n) :
    inbounds[tag]? = some n := by
  induction listed generalizing so_far with
  | nil =>
    cases done
    exact there
  | cons c rest ih =>
    rw [normalizeInbounds] at done
    split at done
    · cases done
    · next own _ =>
      dsimp only at done
      split at done
      · cases done
      · next fresh =>
        refine ih done ?_
        rw [lookup_insert,if_neg ?_]
        · exact there
        · intro same
          rw [same,there] at fresh
          exact fresh rfl

/-- Every inbound is found under its tag. -/
theorem normalizeInbounds_config {listed : List (CompiledInbound Value)} {so_far inbounds : Map String (NormalizedInbound Value)}
    (done : normalizeInbounds so_far listed = .ok inbounds) {c : CompiledInbound Value} (member : c ∈ listed) :
    ∃ n, inbounds[trim c.spec.tag]? = some n ∧ n.compiled.spec.config = c.spec.config := by
  induction listed generalizing so_far with
  | nil => cases member
  | cons first rest ih =>
    rw [normalizeInbounds] at done
    split at done
    · cases done
    · next own normal =>
      dsimp only at done
      split at done
      · cases done
      · rcases List.mem_cons.mp member with rfl | later
        · unfold normalizeInbound at normal
          dsimp only at normal
          split at normal
          · cases normal
          · split at normal
            · cases normal
            · split at normal
              · cases normal
              · split at normal
                · cases normal
                · cases normal
                  exact ⟨_,normalizeInbounds_keeps done (by rw [lookup_insert]; exact if_pos rfl),rfl⟩
        · exact ih done later

section Only
variable {x : CompileExternals} {pad : String → String} {topology topology' : MachineTopology} {collected : Collected} {surface : Surface}

/-- The same rules of a padded inbound, compiled both ways. -/
def Watched (x : CompileExternals) (pad : String → String) (collected : Collected) (surface : Surface) (tag : String) : Prop :=
  ∃ rules dns dns' sniff, Shows x surface sniff tag rules dns ∧
    Shows x (padSurface pad surface) ((collected.sniffEnabled[pad tag]?).getD false) (pad tag) rules dns' ∧ dns.rules = dns'.rules

theorem Watched.unseen (pads : PadsTopology x.providers pad topology topology') (trimmed : TrimmedTags x.providers topology)
    (collects : Collects x topology collected) (passes : surface.route = topology.route ∧ surface.dns = topology.dns)
    (named : ∀ tag, PaddedTag x.providers pad topology tag → tag ≠ "")
    (watched : ∀ tag, PaddedTag x.providers pad topology tag → Watched x pad collected surface tag) : Unseen x pad topology := by
  obtain ⟨routed,resolved⟩ := passes
  have weaker {tag : String} (changes : PaddedTag x.providers pad topology tag) (rule : RouteRule) (applies : appliesTo tag rule) :
      appliesTo (pad tag) (padRule pad rule) := by
    have covered := covers_padded pads trimmed changes rule.inbound
    rw [appliesTo_covers] at applies ⊢
    exact covered.trans (by rw [applies]; rfl)
  have weaker_dns {tag : String} (changes : PaddedTag x.providers pad topology tag) (rule : DnsRule) (applies : dnsRuleApplies (some tag) rule) :
      dnsRuleApplies (some (pad tag)) (padDnsRule pad rule) := by
    have covered := covers_padded pads trimmed changes rule.inbound
    rw [dnsRuleApplies_some] at applies ⊢
    exact covered.trans (by rw [applies]; rfl)
  have same_lookups {tag : String} (changes : PaddedTag x.providers pad topology tag) :
      ∀ entry ∈ (dnsRules topology.dns).zipIdx, dnsRuleApplies (some (pad tag)) (padDnsRule pad entry.1) → dnsRuleApplies (some tag) entry.1 := by
    obtain ⟨rules,dns,dns',sniff,shows,shows',same⟩ := watched tag changes
    have lengths := shows.answers.length_eq
    have lengths' := shows'.answers.length_eq
    rw [padSurface] at lengths'
    dsimp only at lengths'
    rw [dnsRules_padded,List.zipIdx_map,List.filter_map,List.length_map,← same,← lengths,resolved] at lengths'
    intro entry member applies
    exact filter_same (p := fun entry : DnsRule × Nat => dnsRuleApplies (some tag) entry.1)
      (q := fun entry : DnsRule × Nat => dnsRuleApplies (some (pad tag)) (padDnsRule pad entry.1))
      (fun entry => weaker_dns changes entry.1) lengths'.symm member applies
  refine ⟨named,?_,?_,?_,?_⟩
  · intro tag changes rule member applies
    obtain ⟨rules,dns,dns',sniff,shows,shows',same⟩ := watched tag changes
    by_contra protocols
    have among : padRule pad rule ∈ routeRules (padSurface pad surface).route := by
      rw [padSurface]
      dsimp only
      rw [routeRules_padded,routed]
      exact List.mem_map_of_mem member
    have sniffed := shows'.sniffs _ among (weaker changes rule applies) protocols
    -- The tags that sniffing is looked up by have no white space around them.
    cases there : collected.sniffEnabled[pad tag]? with
    | none => simp [there] at sniffed
    | some enabled =>
      have listed := collects.told.sniffs _ _ there
      rw [collects.told.tags,List.mem_reverse] at listed
      obtain ⟨j,_,own⟩ := List.mem_map.mp listed
      have fixed := trim_trim j.spec.tag
      rw [own,trim_padded (pads.padded tag),trimmed tag changes.1] at fixed
      exact changes.2 fixed.symm
  · intro tag changes rule member listed
    obtain ⟨rules,dns,dns',sniff,shows,shows',same⟩ := watched tag changes
    have counts := shows'.counted
    rw [shows.counted,padSurface] at counts
    dsimp only at counts
    rw [routeRules_padded,List.filter_map,List.length_map,routed,Nat.add_right_cancel_iff] at counts
    refine filter_same (p := appliesTo tag) (q := fun rule => appliesTo (pad tag) (padRule pad rule)) (weaker changes) counts member ?_
    have covered := covers_padded pads trimmed changes rule.inbound
    exact covered.trans (by rw [decide_eq_true listed,Bool.or_true])
  · intro tag changes rule member listed
    obtain ⟨index,at_index⟩ := List.mem_iff_getElem?.mp member
    refine same_lookups changes (rule,index) (List.mem_zipIdx_iff_getElem?.mpr at_index) ?_
    have covered := covers_padded pads trimmed changes rule.inbound
    exact covered.trans (by rw [decide_eq_true listed,Bool.or_true])
  · intro tag changes entry member applies counts
    obtain ⟨rules,dns,dns',sniff,shows,shows',same⟩ := watched tag changes
    have answers := shows.answers
    have answers' := shows'.answers
    rw [padSurface] at answers'
    dsimp only at answers'
    rw [dnsRules_padded,List.zipIdx_map,List.filter_map,← same,List.forall₂_map_left_iff,resolved] at answers'
    rw [resolved] at answers
    have equal : (dnsRules topology.dns).zipIdx.filter ((fun entry : DnsRule × Nat => dnsRuleApplies (some (pad tag)) entry.1) ∘ Prod.map (padDnsRule pad) id) =
        (dnsRules topology.dns).zipIdx.filter (fun entry => dnsRuleApplies (some tag) entry.1) := by
      refine List.filter_congr (fun entry member => Bool.eq_iff_iff.mpr ⟨same_lookups changes entry member,weaker_dns changes entry.1⟩)
    rw [equal] at answers'
    obtain ⟨fields,own,own'⟩ := forall₂_common answers answers' (List.mem_filter.mpr ⟨member,applies⟩)
    have keys := (own' counts).symm.trans (own counts)
    simpa [floodKey] using keys

/-- An empty tag that is padded has no inbound. -/
theorem padded_named {collected' : Collected} (pads : PadsTopology x.providers pad topology topology') (collects' : Collects x topology' collected')
    {tag : String} (changes : PaddedTag x.providers pad topology tag) : tag ≠ "" := by
  rintro rfl
  obtain ⟨⟨node,member,tagged⟩,changed⟩ := changes
  obtain ⟨node',member',own⟩ := forall₂_left pads.nodes member
  obtain ⟨i,here,compiled⟩ := collects'.inbound member'
  obtain ⟨tag,tagged',raw⟩ := compiledFrom_tag compiled
  cases (own.providerTag tagged).symm.trans tagged'
  have filled : ¬ (pad "").isEmpty := by simpa using changed
  rw [defaulted,if_neg filled] at raw
  refine collects'.told.nonempty here ?_
  rw [raw]
  exact trim_padded_empty (pads.padded "")

/-- Inbounds that are the same for the runtime have the same rules. -/
theorem watched_same {out out' : CompileOutput} {inbounds : Map String (NormalizedInbound Value)} {inbounds' : List (CompiledInbound Value)}
    (pads : PadsTopology x.providers pad topology topology') (trimmed : TrimmedTags x.providers topology) (collects : Collects x topology collected)
    (named : ∀ tag, PaddedTag x.providers pad topology tag → tag ≠ "")
    (twins : List.Forall₂ (Twin x pad (sortedNodes topology.nodes)) collected.inbounds inbounds')
    (completed : List.Forall₂ (CompletedFrom x surface collected.sniffEnabled) collected.inbounds out.runtime.inbounds)
    (completed' : List.Forall₂ (CompletedFrom x (padSurface pad surface) collected.sniffEnabled) inbounds' out'.runtime.inbounds)
    (normal : normalizeInbounds ∅ out.runtime.inbounds = .ok inbounds) (normal' : normalizeInbounds ∅ out'.runtime.inbounds = .ok inbounds)
    {tag : String} (changes : PaddedTag x.providers pad topology tag) : Watched x pad collected surface tag := by
  obtain ⟨node,member,tagged⟩ := changes.1
  obtain ⟨i,here,compiled⟩ := collects.inbound member
  obtain ⟨_,tagged',raw⟩ := compiledFrom_tag compiled
  cases tagged.symm.trans tagged'
  have filled : ¬ tag.isEmpty := by simpa using named tag changes
  rw [defaulted,if_neg filled] at raw
  obtain ⟨i',here',twin⟩ := forall₂_left twins here
  have own : i' = retagged i (pad tag) := by
    obtain ⟨_,kept⟩ | ⟨padded,_⟩ := twin.cases collects pads trimmed named
    · have one := kept [i.spec.tag]
      rw [raw] at one
      simp [covers] at one
      exact absurd one.symm changes.2
    · rw [padded,raw]
  obtain ⟨c,listed,rules,dns,rfl,shows⟩ := forall₂_left completed here
  obtain ⟨c',listed',rules',dns',rfl,shows'⟩ := forall₂_left completed' here'
  obtain ⟨n,found,config⟩ := normalizeInbounds_config normal listed
  obtain ⟨n',found',config'⟩ := normalizeInbounds_config normal' listed'
  subst own
  have same_tag : trim (withRulesAndDns (retagged i (pad tag)) rules' dns'.value).spec.tag = trim (withRulesAndDns i rules dns.value).spec.tag := by
    change trim (pad tag) = trim i.spec.tag
    rw [raw]
    exact trim_padded (pads.padded tag)
  rw [same_tag,found] at found'
  cases found'
  obtain ⟨rfl,same⟩ := withRulesAndDns_inj (compiledFrom_object compiled) (config.symm.trans config')
  rw [raw] at shows
  exact ⟨rules,dns,dns',_,shows,shows',same⟩

/-- A padded topology has the same inbounds in the runtime if and only if its padding is not seen. -/
theorem padding_unseen_iff (encodes : ∀ d, ∃ text, x.yaml d = .ok text) (trimmed : TrimmedTags x.providers topology)
    (pads : PadsTopology x.providers pad topology topology') {out : CompileOutput} (done : compileWithWarnings x topology = .ok out) :
    (Unseen x pad topology → ∃ out', compileWithWarnings x topology' = .ok out' ∧
      normalizeInbounds ∅ out'.runtime.inbounds = normalizeInbounds ∅ out.runtime.inbounds) ∧
    ∀ inbounds, normalizeInbounds ∅ out.runtime.inbounds = .ok inbounds →
      ((∃ out', compileWithWarnings x topology' = .ok out' ∧ normalizeInbounds ∅ out'.runtime.inbounds = .ok inbounds) ↔ Unseen x pad topology) := by
  refine ⟨fun unseen => unseen_kept encodes unseen pads trimmed done,?_⟩
  intro inbounds normal
  constructor
  · rintro ⟨out',done',normal'⟩
    obtain ⟨_,collected,surface,collects,surfaced,emitted⟩ := compiled_parts.mp done
    obtain ⟨_,collected',surface',collects',surfaced',emitted'⟩ := compiled_parts.mp done'
    obtain ⟨catalog,passes⟩ := surface_passes surfaced
    have named : ∀ tag, PaddedTag x.providers pad topology tag → tag ≠ "" := fun tag changes => padded_named pads collects' changes
    have tags : ∀ node ∈ sortedNodes topology.nodes, ∀ tag, providerTag x.providers node = some tag → pad tag ≠ tag → tag ≠ "" :=
      fun node member tag tagged changed => named tag ⟨⟨node,mem_sortedNodes.mp member,tagged⟩,changed⟩
    obtain ⟨more,inbounds',grown,twins,again⟩ := collectNodes_padded pads.padded pads.sorted (fun _ member => member) tags collects []
    have all : collected.inbounds = more := grown
    rw [← all] at twins
    cases Except.ok.inj (collects'.symm.trans again)
    have padded := surface_padded pads surfaced
    rw [← pads.route] at padded
    cases Except.ok.inj (surfaced'.symm.trans padded)
    have completed := emitTopology_returns.result emitted
    have completed' := emitTopology_returns.result emitted'
    refine Watched.unseen pads trimmed collects ⟨passes.route_eq,passes.dns_eq⟩ named ?_
    exact fun tag changes => watched_same pads trimmed collects named twins completed completed' normal normal' changes
  · intro unseen
    obtain ⟨out',done',same⟩ := unseen_kept encodes unseen pads trimmed done
    exact ⟨out',done',same.trans normal⟩

end Only

/-! ### Samples -/

/-- A route with one rule for the inbound, on these protocols. -/
def taggedRoute (tag : String) (protocols : List String) : Route where
  rules := [{ RouteRule.default with inbound := [tag], protocol := protocols, action := "route", outbound := "direct" }]
  ruleSets := []
  final := ""
  autoDetectInterface := false
  defaultInterface := ""
  defaultMark := 0
  findProcess := false
  geoip := none
  geosite := none
  overrideAndroidVpn := false
  defaultDomainResolver := none
  defaultNetworkStrategy := ""
  defaultNetworkType := []
  defaultFallbackNetworkType := []
  defaultFallbackDelay := ""

/-- The sample with one inbound and one rule for it. -/
def taggedTopology (tag : String) (protocols : List String) : MachineTopology :=
  { sampleTopology with
    nodes := [⟨"n",VLESS_REALITY_VISION_ID,CURRENT_CONFIG_VERSION,(vlessText tag).toUTF8.toList,
      [⟨"u","","00000000-0000-4000-8000-000000000000","",0,0⟩]⟩]
    route := some (taggedRoute tag protocols) }

def padSample (name : String) : String := if name = "a" then " a" else name

theorem sample_parsed : parseSample ["a"," a"] (vlessText "a").toUTF8.toList = .ok (vlessSample "a") ∧
    parseSample ["a"," a"] (vlessText " a").toUTF8.toList = .ok (vlessSample " a") :=
  ⟨parseSample_text (by decide),parseSample_text (by decide)⟩

theorem sample_asked {protocols : List String} {tag : String} : AskedFor sampleExternals.providers (taggedTopology "a" protocols) tag ↔ tag = "a" := by
  have parsed := sample_parsed.1
  have asks (node : NodeInstance) (member : node ∈ (taggedTopology "a" protocols).nodes) : providerTag sampleExternals.providers node = some "a" := by
    rw [List.mem_singleton.mp member,providerTag,if_pos rfl]
    exact congrArg (fun result : Except String VlessRealityVisionConfig => result.toOption.map VlessRealityVisionConfig.tag) parsed
  constructor
  · rintro ⟨node,member,tagged⟩
    rw [asks node member] at tagged
    exact (Option.some.inj tagged).symm
  · rintro rfl
    exact ⟨_,List.mem_singleton.mpr rfl,asks _ (List.mem_singleton.mpr rfl)⟩

theorem sample_trimmed {protocols : List String} : TrimmedTags sampleExternals.providers (taggedTopology "a" protocols) := by
  intro tag asked
  rw [sample_asked.mp asked]
  exact trim_of_none (List.forall_mem_singleton.mpr (by decide))

theorem sample_pads {protocols : List String} :
    PadsTopology sampleExternals.providers padSample (taggedTopology "a" protocols) (taggedTopology " a" protocols) := by
  refine ⟨?_,?_,rfl,rfl,.cons ?_ .nil,rfl,?_,rfl⟩
  · intro name
    unfold padSample
    split
    · next same =>
      rw [same]
      exact ⟨[' '],[],List.forall_mem_singleton.mpr (by decide),by simp,by decide⟩
    · exact ⟨[],[],by simp,by simp,by simp⟩
  · intro name changed
    refine sample_asked.mpr ?_
    by_contra other
    exact changed (if_neg other)
  · refine ⟨rfl,rfl,rfl,rfl,?_,?_⟩
    · intro cfg _ parsed
      cases sample_parsed.1.symm.trans parsed
      exact sample_parsed.2
    · intro cfg provider
      exact absurd provider (by decide)
  · refine congrArg some ?_
    simp [taggedRoute,padRoute,padRules,padSample,RouteRule.default]

theorem tagged_decoding {tag : String} {protocols : List String} {cfg : VlessRealityVisionConfig}
    (parsed : parseSample ["a"," a"] (vlessText tag).toUTF8.toList = .ok cfg) :
    compileWithWarnings sampleExternals (taggedTopology tag protocols) =
      (compileTopology (decoding sampleExternals cfg) (taggedTopology tag protocols) (some (taggedRoute tag protocols)) .default).1 :=
  congrArg (fun compile => (compile .default).1) (@compileTopology_decoding sampleExternals (taggedTopology tag protocols) _ _ _ rfl rfl parsed)

theorem sample_found : (compileWithWarnings sampleExternals (taggedTopology "a" ["tls"])).isOk := by
  rw [tagged_decoding sample_parsed.1]
  decide +kernel

theorem sample_lost : ¬ (compileWithWarnings sampleExternals (taggedTopology " a" ["tls"])).isOk := by
  rw [tagged_decoding sample_parsed.2]
  decide +kernel

theorem sample_unseen : (compileWithWarnings sampleExternals (taggedTopology "a" [])).isOk := by
  rw [tagged_decoding sample_parsed.1]
  decide +kernel

/-- Sniffing is looked up under the padded tag, and is not found. -/
theorem padding_loses_sniffing : ∃ out, compileWithWarnings sampleExternals (taggedTopology "a" ["tls"]) = .ok out ∧
    TrimmedTags sampleExternals.providers (taggedTopology "a" ["tls"]) ∧
    PadsTopology sampleExternals.providers padSample (taggedTopology "a" ["tls"]) (taggedTopology " a" ["tls"]) ∧
    ¬ ∃ out', compileWithWarnings sampleExternals (taggedTopology " a" ["tls"]) = .ok out' := by
  have compiles := sample_found
  have fails := sample_lost
  cases done : compileWithWarnings sampleExternals (taggedTopology "a" ["tls"]) with
  | error e =>
    rw [done] at compiles
    cases compiles
  | ok out =>
    refine ⟨out,rfl,sample_trimmed,sample_pads,?_⟩
    rintro ⟨out',done'⟩
    rw [done'] at fails
    exact fails rfl

/-- Without protocols, the padded tag compiles to the same inbound. -/
theorem padding_unseen_sample : ∃ out out', compileWithWarnings sampleExternals (taggedTopology "a" []) = .ok out ∧
    compileWithWarnings sampleExternals (taggedTopology " a" []) = .ok out' ∧
    normalizeInbounds ∅ out'.runtime.inbounds = normalizeInbounds ∅ out.runtime.inbounds := by
  have compiles := sample_unseen
  cases done : compileWithWarnings sampleExternals (taggedTopology "a" []) with
  | error e =>
    rw [done] at compiles
    cases compiles
  | ok out =>
    have unseen : Unseen sampleExternals padSample (taggedTopology "a" []) := by
      refine ⟨?_,?_,?_,?_,?_⟩
      · rintro tag ⟨asked,_⟩
        rw [sample_asked.mp asked]
        decide
      · intro tag _ rule member _
        rw [List.mem_singleton.mp member]
      · rintro tag ⟨asked,_⟩ rule member listed
        rw [sample_asked.mp asked,List.mem_singleton.mp member] at listed
        exact absurd listed (by decide)
      · intro tag _ rule member
        exact absurd member List.not_mem_nil
      · intro tag _ entry member
        exact absurd member List.not_mem_nil
    obtain ⟨out',done',same⟩ := (padding_unseen_iff (fun d => ⟨_,rfl⟩) sample_trimmed sample_pads done).1 unseen
    exact ⟨out,out',rfl,done',same⟩

end NodeAgent.Compile
