import NodeAgent.DnsServers

/-!
The `dns` object of an inbound, and the one for the probes of URLTests, which belong to no
inbound.
-/
namespace NodeAgent.DnsServers
open NodeAgent.Api NodeAgent.Json NodeAgent.FiniteMap NodeAgent.OutboundAdapter NodeAgent.Outbounds NodeAgent.ClientChains NodeAgent.RouteRules
open NodeAgent.Fallible

variable (ext : Externals) (dext : DnsExternals)

/-! ### Servers -/

def validateDnsServer (server : DnsServer) : Except String Unit :=
  if server.kind.isEmpty then .error "dns server type is required"
  else if server.tag.isEmpty then .error "dns server tag is required"
  else if server.server.isEmpty then .error "dns server address is required"
  else .ok ()

/-- The URL of a DNS-over-HTTP server, with the default path. -/
def httpUrl (scheme address authority : String) : String :=
  if address.startsWith (scheme ++ "://") then address
  else if '/' ∈ address.toList then s!"{scheme}://{address}"
  else s!"{scheme}://{authority}/dns-query"

def dnsServerUrl (server : DnsServer) : Except String String :=
  let address := trim server.server
  let authority := if (ext.parseIp address).any (fun ip => !ip.isIpv4) then "[" ++ address ++ "]" else address
  if server.kind ∈ ["local","system"] then .ok "system"
  else if server.kind ∈ ["udp","tcp","tls","quic"] then .ok s!"{server.kind}://{authority}"
  else if server.kind = "https" then .ok (httpUrl "https" address authority)
  else if server.kind = "h3" then .ok (httpUrl "h3" address authority)
  else .error s!"dns server {server.tag} has unsupported type {ext.quote server.kind}"

def DEFAULT_SERVER : DnsServer := ⟨"https",DEFAULT_DNS_TAG,"1.1.1.1",""⟩

def serverList (dns : Option Dns) : List DnsServer :=
  if (configuredServers dns).isEmpty then [DEFAULT_SERVER] else configuredServers dns

/-- The servers compiled so far: their descriptions, and the results in order and by tag. -/
structure CompiledDnsServers where
  servers : Map String DnsServer
  compiled : List Fields
  byTag : Map String Fields

section Servers
variable (outbounds : Catalog) (strategies : IpStrategies)

/-- A configured server, without its detour. -/
def plainServer (server : DnsServer) (url : String) : Fields :=
  Fields.insert (Fields.of [("tag",.string server.tag),("url",.string url),
    ("use_native_roots",.bool (server.kind ∈ ["tls","quic","https","h3"]))]) "ip_strategy" (.string (strategies.get server.tag).name)

/-- The requests of a server go through its detour. -/
def withDetour (server : DnsServer) (compiled : Fields) : Projecting Fields :=
  if server.detour.isEmpty then pure compiled
  else if server.kind ∈ ["local","system"] then
    fail (.message s!"dns server {server.tag} cannot apply detour {ext.quote server.detour} to the system resolver")
  else
    match outbounds[server.detour]? with
    | none => fail (.message s!"dns server {server.tag} references unknown detour outbound {ext.quote server.detour}")
    | some outbound => do
      let action ← outboundClientAction ext outbounds outbound
      return applyOutboundAction compiled "client_chain" action

def addDnsServer (done : CompiledDnsServers) (server : DnsServer) : Projecting CompiledDnsServers := do
  check (validateDnsServer server)
  check (refuse (done.servers[server.tag]?).isSome s!"duplicate dns server tag {ext.quote server.tag}")
  let url ← check (dnsServerUrl ext server)
  let compiled ← withDetour ext outbounds server (plainServer strategies server url)
  return ⟨done.servers.insert server.tag server,done.compiled ++ [compiled],done.byTag.insert server.tag compiled⟩

end Servers

/-! ### Variants of servers -/

def reserveEmbeddedOutboundAction (source : Fields) (chainField context : String) : Projecting Unit :=
  match Fields.get source chainField with
  | none => pure ()
  | some clientChains => do
    let projection ← check (ClientChainsProjection.inspect ext clientChains)
    let selectionBytes := ((Fields.get source "client_chain_selection").map (serializedJsonLen ext)).getD 0
    reserve (projection.cost selectionBytes) context

def applyDnsServerQueryProfile (server : Fields) (query : DnsServerQueryProfile) : Fields :=
  let server := if query.disableCache then Fields.insert server "disable_cache" (.bool true) else server
  let server := Fields.insertSome server "rewrite_ttl" (query.rewriteTtl.map (fun ttl => .number (.natural ttl)))
  Fields.insertSome server "client_subnet" (query.clientSubnet.map .string)

/-- The server under another name, with its own strategy and query options. -/
def variantServer (source : Fields) (variant : DnsServerVariant) : Fields :=
  let server := Fields.insert source "tag" (.string variant.tag)
  let server := Fields.insert server "__acp_source_tag" (.string variant.key.sourceTag)
  let server := Fields.insert server "ip_strategy" (.string variant.key.ipStrategy.name)
  applyDnsServerQueryProfile server variant.key.query

/-- Servers with their variants, the names of the variants, and all names. -/
structure EmittedDnsServers where
  compiled : List Fields
  profileVariants : List (DnsServerVariantKey × String)
  emittedTags : List String

def EmittedDnsServers.variant (emitted : EmittedDnsServers) (key : DnsServerVariantKey) : Option String :=
  (emitted.profileVariants.find? (fun entry => entry.1 = key)).map Prod.snd

/-- The variants that outbounds use are part of every configuration. -/
def emitVariant (byTag : Map String Fields) (emitted : EmittedDnsServers) (variant : DnsServerVariant) : Projecting EmittedDnsServers :=
  match byTag[variant.key.sourceTag]? with
  | none => fail (.message s!"DNS profile variant {ext.quote variant.tag} references unknown source server {ext.quote variant.key.sourceTag}")
  | some source => do
    reserveEmbeddedOutboundAction ext source "client_chain" s!"DNS profile variant {ext.quote variant.tag}"
    match (emitted.variant variant.key).filter (· ≠ variant.tag) with
    | some existing => fail (.message s!"DNS profile variant {ext.quote variant.tag} conflicts with existing tag {ext.quote existing}")
    | none => return ⟨emitted.compiled ++ [variantServer source variant],(variant.key,variant.tag) :: emitted.profileVariants,
        emitted.emittedTags ++ [variant.tag]⟩

/-! ### Rules -/

def parseDnsTimeoutMillis (value : String) (index : Nat) : Except String Nat :=
  match ext.parseGoDuration value with
  | .error error => .error s!"dns.rules[{index}] timeout {ext.quote value} is not a valid Go duration: {error}"
  | .ok nanos =>
    if nanos = 0 then .error s!"dns.rules[{index}] timeout must be greater than zero"
    else if nanos % 1000000 ≠ 0 then .error s!"dns.rules[{index}] timeout {ext.quote value} cannot be represented exactly in milliseconds"
    else if nanos / 1000000 < 2 ^ 64 then .ok (nanos / 1000000)
    else .error s!"dns.rules[{index}] timeout {ext.quote value} exceeds the millisecond representation"

def parseDnsServerQueryProfile (rule : DnsRule) (index : Nat) : Except String DnsServerQueryProfile := do
  let rewriteTtl ←
    if (trim rule.rewriteTtl).isEmpty then .ok none
    else
      match parseUnsigned (2 ^ 32) (trim rule.rewriteTtl) with
      | .ok ttl => .ok (some ttl)
      | .error error => .error s!"dns.rules[{index}] rewrite_ttl {ext.quote rule.rewriteTtl} must be a uint32: {error}"
  let clientSubnet ←
    match normalizeDnsClientSubnetValue ext rule.clientSubnet with
    | .ok subnet => .ok subnet
    | .error reason => .error s!"dns.rules[{index}] client_subnet {ext.quote rule.clientSubnet} {reason}"
  return ⟨rule.disableCache,rewriteTtl,clientSubnet⟩

section Rules
variable (servers : Map String DnsServer) (ruleSets : RuleSets)

def compileDnsConditions (rule : DnsRule) (index : Nat) : Except String Fields := do
  let compiled := insertNonEmpty [] "domain" (strings rule.domain)
  let compiled := insertNonEmpty compiled "domain_suffix" (strings rule.domainSuffix)
  let compiled := insertNonEmpty compiled "domain_keyword" (strings rule.domainKeyword)
  let compiled := insertNonEmpty compiled "domain_regex" (strings rule.domainRegex)
  let references ← ruleSetReferences ruleSets (fun tag => s!"dns.rules[{index}] references unknown rule-set {ext.quote tag}") rule.ruleSet
  return insertNonEmpty compiled "rule_set" references

def compileDnsRouteRule (rule : DnsRule) (index : Nat) (compiled : Fields) : Except String (Fields × Option DnsServerQueryProfile) := do
  refuse rule.noDrop s!"dns.rules[{index}] route action must not contain no_drop"
  let query ← parseDnsServerQueryProfile ext rule index
  refuse rule.server.isEmpty s!"dns.rules[{index}] route action requires server"
  refuse (servers[rule.server]?).isNone s!"dns.rules[{index}] route references unknown server {ext.quote rule.server}"
  refuse (!rule.rcode.isEmpty || !rule.method.isEmpty || !rule.answer.isEmpty || !rule.ns.isEmpty || !rule.extra.isEmpty)
    s!"dns.rules[{index}] route action must not contain rcode, method, answer, ns, or extra"
  let timeout ← if rule.timeout.isEmpty then .ok none
    else (parseDnsTimeoutMillis ext rule.timeout index).map (fun millis => some (Value.number (.natural millis)))
  let compiled := Fields.insert (Fields.insert compiled "action" (.string "route")) "server" (.string rule.server)
  return (Fields.insertSome compiled "timeout_millis" timeout,if query.isDefault then none else some query)

def compileDnsRejectRule (rule : DnsRule) (index : Nat) (compiled : Fields) : Except String Fields := do
  refuse (!rule.server.isEmpty || !rule.rcode.isEmpty || !rule.answer.isEmpty || !rule.ns.isEmpty || !rule.extra.isEmpty || !rule.timeout.isEmpty ||
      rule.disableCache || !blank rule.rewriteTtl || !blank rule.clientSubnet)
    s!"dns.rules[{index}] reject action must not contain server, rcode, answer, ns, extra, timeout, disable_cache, rewrite_ttl, or client_subnet"
  match dext.rejectMethod rule.method with
  | none => throw s!"dns.rules[{index}] reject method must be default or drop, got {ext.quote rule.method}"
  | some method => do
    refuse (rule.noDrop && method = .drop) s!"dns.rules[{index}] reject method drop conflicts with no_drop"
    let compiled := Fields.insert compiled "action" (.string "reject")
    let compiled := Fields.insertSome compiled "method" (if rule.method.isEmpty then none else some (.string method.asStr))
    let compiled := Fields.insertSome compiled "no_drop" (if rule.noDrop then some (.bool true) else none)
    return Fields.insertSome compiled "__acp_reject_flood_key"
      (if method = .default ∧ !rule.noDrop then some (.string ("__acp_dns_reject_v1_" ++ dext.rejectFloodDigest rule index)) else none)

def compileDnsPredefinedRule (rule : DnsRule) (index : Nat) (compiled : Fields) : Except String Fields := do
  refuse (!rule.server.isEmpty || !rule.method.isEmpty || !rule.timeout.isEmpty || rule.noDrop || rule.disableCache || !blank rule.rewriteTtl ||
      !blank rule.clientSubnet)
    s!"dns.rules[{index}] predefined action must not contain server, method, timeout, no_drop, disable_cache, rewrite_ttl, or client_subnet"
  refuse (!dext.rcode rule.rcode) s!"dns.rules[{index}] predefined rcode must be an exact miekg/dns response-code name, got {ext.quote rule.rcode}"
  match dext.predefined rule.answer rule.ns rule.extra with
  | .error error => throw s!"dns.rules[{index}] {error}"
  | .ok () =>
    let compiled := Fields.insert compiled "action" (.string "predefined")
    let compiled := Fields.insertSome compiled "rcode" (if rule.rcode.isEmpty then none else some (.string rule.rcode))
    let compiled := Fields.insert compiled "answer" (.array (strings rule.answer))
    return insertNonEmpty (insertNonEmpty compiled "ns" (strings rule.ns)) "extra" (strings rule.extra)

/-- A rule, and the query options of the server that it names. -/
def compileDnsRule (rule : DnsRule) (index : Nat) : Except String (Fields × Option DnsServerQueryProfile) := do
  refuse rule.action.isEmpty s!"dns.rules[{index}] action is required"
  let compiled ← compileDnsConditions ext ruleSets rule index
  if rule.action = "route" then compileDnsRouteRule ext servers rule index compiled
  else if rule.action = "reject" then do
    let compiled ← compileDnsRejectRule ext dext rule index compiled
    return (compiled,none)
  else if rule.action = "predefined" then do
    let compiled ← compileDnsPredefinedRule ext dext rule index compiled
    return (compiled,none)
  else throw s!"dns.rules[{index}] action {ext.quote rule.action} is not supported by shoes"

end Rules

/-- The rules compiled so far, and the servers with the variants that they need. -/
structure CompiledDnsRules where
  emitted : EmittedDnsServers
  rules : List Fields

/-- `dns.rules` have no inversion: a rule applies to the inbounds that it names, or to all. -/
def dnsRuleApplies (inboundTag : Option String) (rule : DnsRule) : Bool := rule.inbound.isEmpty || inboundTag.any (· ∈ rule.inbound)

/-- The variant for a rule, a new one if no other one has the same options. -/
def variantForRule (byTag : Map String Fields) (emitted : EmittedDnsServers) (key : DnsServerVariantKey) (index : Nat) :
    Projecting (String × EmittedDnsServers) :=
  match emitted.variant key with
  | some tag => pure (tag,emitted)
  | none =>
    let tag := dnsProfileVariantTag ext key
    if tag ∈ emitted.emittedTags then
      fail (.message s!"dns.rules[{index}] private DNS server tag {ext.quote tag} collides with another DNS server")
    else
      match byTag[key.sourceTag]? with
      | none => fail (.message s!"dns.rules[{index}] private DNS variant references unknown source server {ext.quote key.sourceTag}")
      | some source => do
        reserveEmbeddedOutboundAction ext source "client_chain" s!"dns.rules[{index}] private DNS profile variant"
        return (tag,⟨emitted.compiled ++ [variantServer source ⟨tag,key⟩],(key,tag) :: emitted.profileVariants,emitted.emittedTags ++ [tag]⟩)

def addDnsRule (strategies : IpStrategies) (ruleSets : RuleSets) (inboundTag : Option String) (done : CompiledDnsServers)
    (compiled : CompiledDnsRules) (entry : DnsRule × Nat) : Projecting CompiledDnsRules := do
  let (fields,query) ← check (compileDnsRule ext dext done.servers ruleSets entry.1 entry.2)
  if !dnsRuleApplies inboundTag entry.1 then return compiled
  else
    match query with
    | none => return ⟨compiled.emitted,compiled.rules ++ [fields]⟩
    | some query => do
      let (tag,emitted) ← variantForRule ext done.byTag compiled.emitted ⟨entry.1.server,strategies.get entry.1.server,query⟩ entry.2
      return ⟨emitted,compiled.rules ++ [Fields.insert fields "server" (.string tag)]⟩

/-! ### The object -/

def dnsFinalTag (dns : Option Dns) (servers : Map String DnsServer) : Except String String :=
  if (requestedFinal dns).isEmpty then
    if (servers[DEFAULT_DNS_TAG]?).isSome then .ok DEFAULT_DNS_TAG
    else .error s!"dns final is empty but no server is tagged {ext.quote DEFAULT_DNS_TAG}"
  else if (servers[requestedFinal dns]?).isNone then .error s!"dns final references unknown server {ext.quote (requestedFinal dns)}"
  else .ok (requestedFinal dns)

/-- The parts of a `dns` object. -/
structure CompiledDns where
  servers : List Fields
  final : String
  rules : List Fields

def CompiledDns.value (dns : CompiledDns) : Value :=
  let compiled := Fields.of [("servers",.array (dns.servers.map .object)),("final",.string dns.final)]
  .object (if dns.rules.isEmpty then compiled else Fields.insert compiled "rules" (.array (dns.rules.map .object)))

def compileDnsParts (dns : Option Dns) (ruleSets : RuleSets) (inboundTag : Option String) (strategies : IpStrategies)
    (projection : OutboundDnsProjection) : Projecting CompiledDns := do
  let done ← foldEach (addDnsServer ext projection.outbounds strategies) ⟨∅,[],∅⟩ (serverList dns)
  let emitted ← foldEach (emitVariant ext done.byTag) ⟨done.compiled,[],done.servers.keys⟩ projection.variants
  let final ← check (dnsFinalTag ext dns done.servers)
  let compiled ← foldEach (addDnsRule ext dext strategies ruleSets inboundTag done) ⟨emitted,[]⟩ (dnsRules dns).zipIdx
  return ⟨compiled.emitted.compiled,final,compiled.rules⟩

def compileDns (dns : Option Dns) (ruleSets : RuleSets) (inboundTag : Option String) (strategies : IpStrategies)
    (projection : OutboundDnsProjection) : Projecting Value := do
  let compiled ← compileDnsParts ext dext dns ruleSets inboundTag strategies projection
  return compiled.value

end NodeAgent.DnsServers
