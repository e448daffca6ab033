import NodeAgent.ClientChains

/-!
Route rules. A rule is compiled once for every inbound that it applies to: the condition on
the inbound decides which rules an inbound has and does not appear among them, all other
conditions become the `match` object of the compiled rule.
-/
namespace NodeAgent.RouteRules
open NodeAgent.Api NodeAgent.Json NodeAgent.FiniteMap NodeAgent.OutboundAdapter NodeAgent.Outbounds NodeAgent.ClientChains NodeAgent.Fallible

/-! ### Routes -/

/-- A rule; the option objects are kept as JSON. -/
structure RouteRule where
  kind : String
  inbound : List String
  network : List String
  ipVersion : Nat
  domain : List String
  domainSuffix : List String
  domainKeyword : List String
  domainRegex : List String
  sourceIpCidr : List String
  ipCidr : List String
  sourceIpIsPrivate : Option Bool
  ipIsPrivate : Option Bool
  port : List Nat
  portRange : List String
  sourcePort : List Nat
  sourcePortRange : List String
  protocol : List String
  ruleSet : List String
  invert : Bool
  action : String
  outbound : String
  method : String
  noDrop : Bool
  mode : String
  rules : List RouteRule
  authUser : List String
  client : List String
  geosite : List String
  sourceGeoip : List String
  geoip : List String
  processName : List String
  processPath : List String
  processPathRegex : List String
  packageName : List String
  user : List String
  userId : List Int
  clashMode : String
  networkType : List String
  networkIsExpensive : Option Bool
  networkIsConstrained : Option Bool
  wifiSsid : List String
  wifiBssid : List String
  defaultInterfaceAddress : List String
  preferredBy : List String
  ruleSetIpCidrMatchSource : Bool
  routeOptions : Option Value
  directOptions : Option Value
  sniffOptions : Option Value
  resolveOptions : Option Value

/-- `RouteRule::default()`. -/
def RouteRule.default : RouteRule where
  kind := ""
  inbound := []
  network := []
  ipVersion := 0
  domain := []
  domainSuffix := []
  domainKeyword := []
  domainRegex := []
  sourceIpCidr := []
  ipCidr := []
  sourceIpIsPrivate := none
  ipIsPrivate := none
  port := []
  portRange := []
  sourcePort := []
  sourcePortRange := []
  protocol := []
  ruleSet := []
  invert := false
  action := ""
  outbound := ""
  method := ""
  noDrop := false
  mode := ""
  rules := []
  authUser := []
  client := []
  geosite := []
  sourceGeoip := []
  geoip := []
  processName := []
  processPath := []
  processPathRegex := []
  packageName := []
  user := []
  userId := []
  clashMode := ""
  networkType := []
  networkIsExpensive := none
  networkIsConstrained := none
  wifiSsid := []
  wifiBssid := []
  defaultInterfaceAddress := []
  preferredBy := []
  ruleSetIpCidrMatchSource := false
  routeOptions := none
  directOptions := none
  sniffOptions := none
  resolveOptions := none

structure DomainResolveOptions where
  server : String
  strategy : String
  disableCache : Bool
  rewriteTtl : Option Nat
  clientSubnet : String

/-- A rule set as it is requested; headless rules are kept as JSON. -/
structure RouteRuleSet where
  kind : String
  tag : String
  format : String
  path : String
  url : String
  downloadDetour : String
  updateInterval : String
  rules : List Value

structure Route where
  rules : List RouteRule
  ruleSets : List RouteRuleSet
  final : String
  autoDetectInterface : Bool
  defaultInterface : String
  defaultMark : Nat
  findProcess : Bool
  geoip : Option Value
  geosite : Option Value
  overrideAndroidVpn : Bool
  defaultDomainResolver : Option DomainResolveOptions
  defaultNetworkStrategy : String
  defaultNetworkType : List String
  defaultFallbackNetworkType : List String
  defaultFallbackDelay : String

/-- Where the rules of a rule set are found. -/
structure RuleSetReference where
  format : String
  path : String

abbrev RuleSets := Map String RuleSetReference

variable (ext : Externals)

/-- The names whose condition holds. -/
def named (fields : List (Bool × String)) : List String := (fields.filter Prod.fst).map Prod.snd

def unsupportedRouteTopLevelFields (route : Route) : List String := named [
  (route.autoDetectInterface,"auto_detect_interface"),
  (!route.defaultInterface.isEmpty,"default_interface"),
  (route.defaultMark ≠ 0,"default_mark"),
  (route.findProcess,"find_process"),
  (route.geoip.isSome,"geoip"),
  (route.geosite.isSome,"geosite"),
  (route.overrideAndroidVpn,"override_android_vpn"),
  (!route.defaultNetworkStrategy.isEmpty,"default_network_strategy"),
  (!route.defaultNetworkType.isEmpty,"default_network_type"),
  (!route.defaultFallbackNetworkType.isEmpty,"default_fallback_network_type"),
  (!route.defaultFallbackDelay.isEmpty,"default_fallback_delay")]

def unsupportedRouteRuleFields (rule : RouteRule) : List String := named [
  (rule.kind ∉ ["","default"],"type"),
  (!rule.sourceIpCidr.isEmpty,"source_ip_cidr"),
  (rule.sourceIpIsPrivate.isSome,"source_ip_is_private"),
  (rule.ipIsPrivate.isSome,"ip_is_private"),
  (!rule.sourcePort.isEmpty,"source_port"),
  (!rule.sourcePortRange.isEmpty,"source_port_range"),
  (!rule.method.isEmpty,"method"),
  (rule.noDrop,"no_drop"),
  (!rule.mode.isEmpty,"mode"),
  (!rule.rules.isEmpty,"rules"),
  (!rule.authUser.isEmpty,"auth_user"),
  (!rule.client.isEmpty,"client"),
  (!rule.geosite.isEmpty,"geosite"),
  (!rule.sourceGeoip.isEmpty,"source_geoip"),
  (!rule.geoip.isEmpty,"geoip"),
  (!rule.processName.isEmpty,"process_name"),
  (!rule.processPath.isEmpty,"process_path"),
  (!rule.processPathRegex.isEmpty,"process_path_regex"),
  (!rule.packageName.isEmpty,"package_name"),
  (!rule.user.isEmpty,"user"),
  (!rule.userId.isEmpty,"user_id"),
  (!rule.clashMode.isEmpty,"clash_mode"),
  (!rule.networkType.isEmpty,"network_type"),
  (rule.networkIsExpensive.isSome,"network_is_expensive"),
  (rule.networkIsConstrained.isSome,"network_is_constrained"),
  (!rule.wifiSsid.isEmpty,"wifi_ssid"),
  (!rule.wifiBssid.isEmpty,"wifi_bssid"),
  (!rule.defaultInterfaceAddress.isEmpty,"default_interface_address"),
  (!rule.preferredBy.isEmpty,"preferred_by"),
  (rule.ruleSetIpCidrMatchSource,"rule_set_ip_cidr_match_source"),
  (rule.routeOptions.isSome,"route_options"),
  (rule.directOptions.isSome,"direct_options"),
  (rule.sniffOptions.isSome,"sniff_options"),
  (rule.resolveOptions.isSome,"resolve_options")]

/-! ### References -/

section References
variable (outbounds : Catalog) (ruleSets : RuleSets)

def unknownRuleSet (known : RuleSets) : List String → Option String
  | [] => none
  | tag :: rest => if (known[tag]?).isSome then unknownRuleSet known rest else some tag

theorem sizeOf_rules (rule : RouteRule) : sizeOf rule.rules < sizeOf rule := by
  cases rule
  simp only [RouteRule.mk.sizeOf_spec]
  omega

/-- `validate_route_rule_references` of rules and, under each, of those nested in it. -/
def validateRouteRuleReferences : List RouteRule → Except String Unit
  | [] => .ok ()
  | rule :: rest =>
    if !rule.outbound.isEmpty && (outbounds[rule.outbound]?).isNone then
      .error s!"route rule references unknown outbound {ext.quote rule.outbound}"
    else
      match unknownRuleSet ruleSets rule.ruleSet with
      | some tag => .error s!"route rule references unknown rule-set {ext.quote tag}"
      | none => do
        validateRouteRuleReferences rule.rules
        validateRouteRuleReferences rest
termination_by rules => sizeOf rules
decreasing_by
  · have smaller := sizeOf_rules rule
    simp only [List.cons.sizeOf_spec]
    omega
  · simp only [List.cons.sizeOf_spec]
    omega

def validateRoute : Option Route → Except String Unit
  | none => .ok ()
  | some route => do
    let unsupported := unsupportedRouteTopLevelFields route
    let names := String.intercalate ", " unsupported
    refuse (!unsupported.isEmpty) s!"route contains unsupported top-level fields: {names}"
    refuse (!route.final.isEmpty && (outbounds[route.final]?).isNone) s!"route final references unknown outbound {ext.quote route.final}"
    validateRouteRuleReferences ext outbounds ruleSets route.rules

end References

/-! ### Conditions -/

/-- `s.trim()`. -/
def trim (s : String) : String :=
  String.ofList (((s.toList.dropWhile isWhitespace).reverse.dropWhile isWhitespace).reverse)

def validatePortRange (value : String) : Except String Unit :=
  match splitOnce value (if ':' ∈ value.toList then ':' else '-') with
  | none => .error s!"route port_range {ext.quote value} must be START:END"
  | some (start,finish) =>
    match parseUnsigned (2 ^ 16) (trim start) with
    | .error error => .error s!"invalid route port_range {ext.quote value}: {error}"
    | .ok first =>
      match parseUnsigned (2 ^ 16) (trim finish) with
      | .error error => .error s!"invalid route port_range {ext.quote value}: {error}"
      | .ok last =>
        if first > last then .error s!"route port_range {ext.quote value} has descending bounds"
        else if first = 0 then .error s!"route port_range {ext.quote value} must start at 1 or greater"
        else .ok ()

def insertNonEmpty (matcher : Fields) (name : String) (values : List Value) : Fields :=
  if values.isEmpty then matcher else Fields.insert matcher name (.array values)

def strings (values : List String) : List Value := values.map .string

def numbers (values : List Nat) : List Value := values.map (fun n => .number (.natural n))

/-- The first value that fails its check. -/
def checkEach {α : Type} (check : α → Except String Unit) : List α → Except String Unit
  | [] => .ok ()
  | value :: rest => do
    check value
    checkEach check rest

def insertPorts (matcher : Fields) (name : String) (ports : List Nat) : Except String Fields := do
  checkEach (fun port => refuse (port ≥ 2 ^ 16 ∨ port = 0) s!"route port {port} must be in 1..=65535") ports
  return insertNonEmpty matcher name (numbers ports)

def insertPortRanges (matcher : Fields) (name : String) (ranges : List String) : Except String Fields := do
  checkEach (validatePortRange ext) ranges
  return insertNonEmpty matcher name (strings ranges)

def insertNetworks (matcher : Fields) (networks : List String) : Except String Fields := do
  checkEach (fun network => refuse (network ∉ ["tcp","udp"]) s!"route network {ext.quote network} must be tcp or udp") networks
  return insertNonEmpty matcher "network" (strings networks)

def insertProtocols (matcher : Fields) (protocols : List String) : Except String Fields := do
  checkEach (fun protocol => refuse (protocol ∉ ["http","tls"])
    s!"route protocol {ext.quote protocol} is not supported; panel-compatible TCP sniffing currently supports http and tls") protocols
  return insertNonEmpty matcher "protocol" (strings protocols)

def insertIpVersion (matcher : Fields) (version : Nat) : Except String Fields :=
  if version = 0 then .ok matcher
  else if version ∉ [4,6] then .error s!"route ip_version {version} must be 4 or 6"
  else .ok (Fields.insert matcher "ip_version" (.array (numbers [version])))

def RuleSetReference.value (reference : RuleSetReference) : Value :=
  .object (Fields.of [("format",.string reference.format),("path",.string reference.path)])

/-- The references of a rule; `unknown` is the error for a tag that has none. -/
def ruleSetReferences (ruleSets : RuleSets) (unknown : String → String) : List String → Except String (List Value)
  | [] => .ok []
  | tag :: rest =>
    match ruleSets[tag]? with
    | none => .error (unknown tag)
    | some reference => do
      let others ← ruleSetReferences ruleSets unknown rest
      return reference.value :: others

def insertRuleSets (ruleSets : RuleSets) (matcher : Fields) (tags : List String) : Except String Fields := do
  let references ← ruleSetReferences ruleSets (fun tag => s!"route rule references unknown rule-set {ext.quote tag}") tags
  return insertNonEmpty matcher "rule_set" references

def hasDirectMatch (rule : RouteRule) : Bool :=
  !rule.domain.isEmpty || !rule.domainSuffix.isEmpty || !rule.domainKeyword.isEmpty || !rule.domainRegex.isEmpty ||
    !rule.ipCidr.isEmpty || rule.ipVersion ≠ 0 || !rule.port.isEmpty || !rule.portRange.isEmpty || !rule.network.isEmpty ||
    !rule.protocol.isEmpty

/-- The conditions of a rule other than the one on its inbound, without the inversion. -/
def compileConditions (ruleSets : RuleSets) (rule : RouteRule) : Except String Fields := do
  let matcher := insertNonEmpty [] "domain" (strings rule.domain)
  let matcher := insertNonEmpty matcher "domain_suffix" (strings rule.domainSuffix)
  let matcher := insertNonEmpty matcher "domain_keyword" (strings rule.domainKeyword)
  let matcher := insertNonEmpty matcher "domain_regex" (strings rule.domainRegex)
  let matcher := insertNonEmpty matcher "ip_cidr" (strings rule.ipCidr)
  let matcher ← insertIpVersion matcher rule.ipVersion
  let matcher ← insertPorts matcher "port" rule.port
  let matcher ← insertPortRanges ext matcher "port_range" rule.portRange
  let matcher ← insertNetworks ext matcher rule.network
  let matcher ← insertProtocols ext matcher rule.protocol
  insertRuleSets ext ruleSets matcher rule.ruleSet

def compileRouteMatch (ruleSets : RuleSets) (rule : RouteRule) : Except String Fields := do
  refuse (rule.inbound.isEmpty && !hasDirectMatch rule && rule.ruleSet.isEmpty) "route rule has no match conditions"
  let matcher ← compileConditions ext ruleSets rule
  return if rule.invert then Fields.insert matcher "invert" (.bool true) else matcher

/-! ### Rules -/

def applyOutboundAction (target : Fields) (chainField : String) (action : CompiledOutboundAction) : Fields :=
  Fields.insertSome (Fields.insert target chainField action.clientChains) "client_chain_selection" (action.clientChainSelection.map .object)

/-- A rule for all destinations. -/
def ruleWith (action : String) : Fields := Fields.of [("masks",.string "0.0.0.0/0"),("action",.string action)]

section Compilation
variable (outbounds : Catalog) (ruleSets : RuleSets)

/-- What a rule does, and the outbound that it names. -/
def compileRuleAction (rule : RouteRule) (index : Nat) : Except String (String × Option ValidatedOutbound) :=
  if rule.action ∈ ["reject","reject-drop"] then
    if !rule.outbound.isEmpty then .error s!"route.rules[{index}] reject action must not contain outbound"
    else .ok ("block",none)
  else if rule.action ∈ ["","route"] then
    if rule.action = "route" ∧ rule.outbound.isEmpty then .error s!"route.rules[{index}] route action requires outbound"
    else if rule.outbound.isEmpty then .ok ("allow",none)
    else
      match outbounds[rule.outbound]? with
      | none => .error s!"route rule references unknown outbound {ext.quote rule.outbound}"
      | some outbound => .ok ("allow",some outbound)
  else .error s!"route.rules[{index}] action {ext.quote rule.action} is not supported by shoes"

/-- The rule with the chains of its outbound. -/
def withOutbound (compiled : Fields) : Option ValidatedOutbound → Projecting Fields
  | none => pure compiled
  | some outbound => do
    let action ← outboundClientAction ext outbounds outbound
    return applyOutboundAction compiled "client_chains" action

def compileRouteRule (rule : RouteRule) (index : Nat) : Projecting Value := do
  let unsupported := unsupportedRouteRuleFields rule
  let names := String.intercalate ", " unsupported
  check (refuse (!unsupported.isEmpty) s!"route.rules[{index}] contains unsupported fields: {names}")
  let (action,outbound) ← check (compileRuleAction ext outbounds rule index)
  let matchConfig ← check (compileRouteMatch ext ruleSets rule)
  let compiled ← withOutbound ext outbounds (ruleWith action) outbound
  return .object (if matchConfig.isEmpty then compiled else Fields.insert compiled "match" (.object matchConfig))

/-- The rule applies to the inbound. -/
def appliesTo (inboundTag : String) (rule : RouteRule) : Bool := rule.inbound.isEmpty || inboundTag ∈ rule.inbound

def addRule (inboundTag : String) (sniffEnabled : Bool) (rules : List Value) (entry : RouteRule × Nat) : Projecting (List Value) :=
  if !appliesTo inboundTag entry.1 then pure rules
  else if !entry.1.protocol.isEmpty && !sniffEnabled then
    fail (.message s!"route.rules[{entry.2}] uses protocol matching on inbound {ext.quote inboundTag}, but that provider does not enable sniff; enable sniff on the VLESS inbound")
  else do
    let compiled ← compileRouteRule ext outbounds ruleSets entry.1 entry.2
    return rules ++ [compiled]

def finalOutbound (route : Option Route) : Except String ValidatedOutbound :=
  let finalTag := (route.map Route.final).getD ""
  if finalTag.isEmpty then
    match outbounds[DEFAULT_DIRECT_OUTBOUND]? with
    | none => .error "route has no final outbound and no direct outbound named \"direct\""
    | some outbound => .ok outbound
  else
    match outbounds[finalTag]? with
    | none => .error s!"route final references unknown outbound {ext.quote finalTag}"
    | some outbound => .ok outbound

def routeRules (route : Option Route) : List RouteRule := (route.map Route.rules).getD []

def compileRulesForInbound (route : Option Route) (inboundTag : String) (sniffEnabled : Bool) : Projecting (List Value) := do
  let rules ← foldEach (addRule ext outbounds ruleSets inboundTag sniffEnabled) [] (routeRules route).zipIdx
  let outbound ← check (finalOutbound ext outbounds route)
  let final ← withOutbound ext outbounds (ruleWith "allow") (some outbound)
  return rules ++ [.object final]

end Compilation

end NodeAgent.RouteRules
