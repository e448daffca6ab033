import NodeAgent.DnsCompilation
import NodeAgent.Inbounds

/-!
A machine topology becomes a runtime configuration. Nodes are compiled in the order of their
identities, then outbounds, routes and DNS are checked for all of them, and at last every
inbound gets its rules and its DNS. The projections of all inbounds share one budget.
-/
namespace NodeAgent.Compile
open NodeAgent.Api NodeAgent.Json NodeAgent.FiniteMap NodeAgent.OutboundAdapter NodeAgent.Outbounds NodeAgent.ClientChains NodeAgent.RouteRules
open NodeAgent.DnsServers NodeAgent.Inbounds NodeAgent.Fallible
open NodeAgent.Runtime (CompiledInbound)

structure MachineTopology where
  machineId : String
  revision : Nat
  nodes : List NodeInstance
  outbounds : List Outbound
  route : Option Route
  dns : Option Dns

inductive RuleSetSource
  | local
  | remote (url : String)
  | inline (text : String)

/-- A file that a rule set is read from. -/
structure RuleSetResource where
  tag : String
  format : String
  path : String
  source : RuleSetSource
  updateInterval : Nat

def RuleSetResource.reference (resource : RuleSetResource) : RuleSetReference := ⟨resource.format,resource.path⟩

structure DiagnosticUser where
  id : String
  enabled : Bool
  uploadLimitBps : UInt64
  downloadLimitBps : UInt64

structure DiagnosticInbound where
  nodeId : String
  protocol : String
  tag : String
  config : Value
  users : List DiagnosticUser

/-- What is shown of a configuration, without secrets. -/
structure Diagnostic where
  format : String
  machineId : String
  revision : Nat
  inbounds : List DiagnosticInbound
  requestedOutbounds : Value
  requestedRoute : Value
  requestedDns : Value
  warnings : List String

/-- The plans for rule sets, which read no node, and the texts of typed values. -/
structure CompileExternals where
  ext : Externals
  dns : DnsExternals
  providers : ProviderExternals
  /-- `plan_resource`. -/
  planResource : RouteRuleSet → Except String RuleSetResource
  /-- `plan_inline_resource` of the tag and the rules. -/
  planInlineResource : String → List Value → Except String RuleSetResource
  routeValue : Route → Value
  dnsValue : Dns → Value
  /-- `serde_yaml::to_string`. -/
  yaml : Diagnostic → Except String String
  /-- The digest of the JSON texts of DNS, route and outbounds. -/
  globalFingerprint : Option Dns → Option Route → List Outbound → String

structure RuntimeConfig where
  inbounds : List (CompiledInbound Value)
  ruleSets : List RuleSetResource
  diagnosticYaml : String
  dnsClientFingerprint : String
  urltestProbeDns : Option Value

structure CompileOutput where
  runtime : RuntimeConfig
  warnings : List String

variable (x : CompileExternals)

/-! ### Rule sets -/

def planRuleSet (ruleSet : RouteRuleSet) : Except String RuleSetResource :=
  if blank ruleSet.tag then .error "route rule_set tag is required"
  else if trim ruleSet.kind ∈ ["","inline"] then
    if ruleSet.rules.isEmpty then .error s!"inline route rule-set {x.ext.quote ruleSet.tag} rules are required"
    else x.planInlineResource ruleSet.tag ruleSet.rules
  else if trim ruleSet.kind ∈ ["local","remote"] then x.planResource ruleSet
  else .error s!"route rule-set {x.ext.quote ruleSet.tag} has unsupported type {x.ext.quote (trim ruleSet.kind)}"

def addRuleSets (catalog : RuleSets) (resources : List RuleSetResource) : List RouteRuleSet → Except String (RuleSets × List RuleSetResource)
  | [] => .ok (catalog,resources)
  | ruleSet :: rest => do
    let resource ← planRuleSet x ruleSet
    if (catalog[ruleSet.tag]?).isSome then .error s!"duplicate route rule-set tag {x.ext.quote ruleSet.tag}"
    else addRuleSets (catalog.insert ruleSet.tag resource.reference) (resources ++ [resource]) rest

def compileRuleSetCatalog : Option Route → Except String (RuleSets × List RuleSetResource)
  | none => .ok (∅,[])
  | some route => do
    let (catalog,resources) ← addRuleSets x ∅ [] route.ruleSets
    return (catalog,resources.mergeSort (fun a b => (compare a.tag b.tag).isLE))

/-! ### Nodes -/

/-- The nodes compiled so far. Warnings are a set, in the order of their texts. -/
structure Collected where
  warnings : Map String Unit
  nodeIds : List String
  tags : List String
  sniffEnabled : Map String Bool
  inbounds : List (CompiledInbound Value)

def collectNode (so_far : Collected) (node : NodeInstance) : Except String Collected := do
  refuse (node.nodeId ∈ so_far.nodeIds) s!"duplicate node_id {x.ext.quote node.nodeId}"
  let (inbound,warnings) ← compileInbound x.ext x.providers node
  let effectiveTag := trim inbound.spec.tag
  refuse effectiveTag.isEmpty s!"node {node.nodeId} inbound tag is required"
  refuse (effectiveTag ∈ so_far.tags) s!"duplicate inbound tag {x.ext.quote effectiveTag}"
  let sniff ← inboundProtocolSniffEnabled x.providers node
  return ⟨warnings.foldl (fun set warning => set.insert warning ()) so_far.warnings,node.nodeId :: so_far.nodeIds,effectiveTag :: so_far.tags,
    so_far.sniffEnabled.insert effectiveTag sniff,so_far.inbounds ++ [inbound]⟩

def collectNodes (so_far : Collected) : List NodeInstance → Except String Collected
  | [] => .ok so_far
  | node :: rest => do
    let so_far ← collectNode x so_far node
    collectNodes so_far rest

/-- The nodes in the order of their identities. -/
def sortedNodes (nodes : List NodeInstance) : List NodeInstance := nodes.mergeSort (fun a b => (compare a.nodeId b.nodeId).isLE)

/-! ### Diagnostics -/

def secretKeys : List String := ["password","credential","uuid","private_key","private_key_pem","key","secret","token"]

def secretKey (key : String) : Bool := String.ofList (key.toList.map Char.toLower) ∈ secretKeys

mutual

def redact : Value → Value
  | .object fields => .object (redactFields fields)
  | .array values => .array (redactEach values)
  | other => other

def redactEach : List Value → List Value
  | [] => []
  | value :: rest => redact value :: redactEach rest

def redactFields : List (String × Value) → List (String × Value)
  | [] => []
  | (key,value) :: rest => (key,if secretKey key then .string "<redacted>" else redact value) :: redactFields rest

end

def diagnosticUser (user : UserSpec) : DiagnosticUser :=
  ⟨user.resolvedId.getD "",user.enabled,user.uploadLimitBps.getD 0,user.downloadLimitBps.getD 0⟩

def diagnosticInbound (inbound : CompiledInbound Value) : DiagnosticInbound :=
  let users := ((inbound.spec.users.getD []).map diagnosticUser).mergeSort (fun a b => (compare a.id b.id).isLE)
  ⟨inbound.nodeId,inbound.protocol,inbound.spec.tag,redact inbound.spec.config,users⟩

def requestedOutbound (outbound : ValidatedOutbound) : Value :=
  redact (.object (Fields.of [("type",.string outbound.kind.name),("tag",.string outbound.tag),("options",.object outbound.requestedOptions)]))

def diagnosticYaml (topology : MachineTopology) (route : Option Route) (inbounds : List (CompiledInbound Value)) (outbounds : Catalog)
    (warnings : List String) : Except String String :=
  match x.yaml ⟨"shoes-equivalent-v1",topology.machineId,topology.revision,inbounds.map diagnosticInbound,
      .array ((outbounds.toList.map Prod.snd).map requestedOutbound),(route.map x.routeValue).getD .null,(topology.dns.map x.dnsValue).getD .null,
      warnings⟩ with
  | .ok text => .ok text
  | .error error => .error s!"encode diagnostic YAML: {error}"

/-! ### Topologies -/

/-- What is derived from a topology before any projection, the nodes apart. -/
structure Surface where
  route : Option Route
  dns : Option Dns
  ruleSets : RuleSets
  resources : List RuleSetResource
  strategies : IpStrategies
  projection : OutboundDnsProjection

def compileSurface (topology : MachineTopology) (route : Option Route) : Except String Surface := do
  let outbounds ← validateOutbounds x.ext topology.outbounds
  validateOutboundCatalog x.ext outbounds
  let (ruleSets,resources) ← compileRuleSetCatalog x route
  validateRoute x.ext outbounds ruleSets route
  let strategies ← validateDnsResolutionProjection x.ext route topology.dns outbounds
  let projection ← projectOutboundDnsResolvers x.ext route topology.dns outbounds strategies
  return ⟨route,topology.dns,ruleSets,resources,strategies,projection⟩

def withRulesAndDns (inbound : CompiledInbound Value) (rules : List Value) (dns : Value) : CompiledInbound Value :=
  { inbound with spec := { inbound.spec with config := (inbound.spec.config.set "rules" (.array rules)).set "dns" dns } }

/-- The rules and the DNS of one inbound. -/
def completeInbound (surface : Surface) (sniffEnabled : Map String Bool) (inbound : CompiledInbound Value) : Projecting (CompiledInbound Value) := do
  let rules ← compileRulesForInbound x.ext surface.projection.outbounds surface.ruleSets surface.route inbound.spec.tag
    ((sniffEnabled[inbound.spec.tag]?).getD false)
  let dns ← compileDns x.ext x.dns surface.dns surface.ruleSets (some inbound.spec.tag) surface.strategies surface.projection
  return withRulesAndDns inbound rules dns

def addInbound (surface : Surface) (sniffEnabled : Map String Bool) (done : List (CompiledInbound Value)) (inbound : CompiledInbound Value) :
    Projecting (List (CompiledInbound Value)) := do
  let completed ← completeInbound x surface sniffEnabled inbound
  return done ++ [completed]

def compileTopology (topology : MachineTopology) (route : Option Route) : Projecting CompileOutput := do
  check (refuse topology.machineId.isEmpty "machine_id is required")
  let collected ← check (collectNodes x ⟨∅,[],[],∅,[]⟩ (sortedNodes topology.nodes))
  let surface ← check (compileSurface x topology route)
  let probeDns ← compileDns x.ext x.dns surface.dns surface.ruleSets none surface.strategies surface.projection
  let inbounds ← foldEach (addInbound x surface collected.sniffEnabled) [] collected.inbounds
  let warnings := collected.warnings.keys
  let yaml ← check (diagnosticYaml x topology route inbounds surface.projection.outbounds warnings)
  return ⟨⟨inbounds,surface.resources,yaml,x.globalFingerprint topology.dns route topology.outbounds,some probeDns⟩,warnings⟩

def compileWithRoute (topology : MachineTopology) (route : Option Route) : Except CompileError CompileOutput :=
  (compileTopology x topology route .default).1

def compileWithWarnings (topology : MachineTopology) : Except CompileError CompileOutput := compileWithRoute x topology topology.route

/-- Without traffic analysis, top-level sniff actions are removed. -/
def withoutSniff (route : Route) : Route := { route with rules := route.rules.filter (fun rule => rule.action ≠ "sniff") }

def compileWithLocalOverrides (topology : MachineTopology) (disableTrafficAnalysis : Bool) : Except CompileError CompileOutput :=
  if disableTrafficAnalysis then compileWithRoute x topology (topology.route.map withoutSniff) else compileWithWarnings x topology

end NodeAgent.Compile
