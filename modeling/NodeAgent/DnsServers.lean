import NodeAgent.RouteRules

/-!
DNS servers and rules. Every inbound gets the configured servers, private variants of them
for outbounds and rules that ask for other options, and the DNS rules that apply to it. A
variant is named by a digest of the server and the options that it was made for.
-/
namespace NodeAgent.DnsServers
open NodeAgent.Api NodeAgent.Json NodeAgent.FiniteMap NodeAgent.OutboundAdapter NodeAgent.Outbounds NodeAgent.ClientChains NodeAgent.RouteRules
open NodeAgent.Fallible

def DEFAULT_DNS_TAG : String := "default-dns"

structure DnsServer where
  kind : String
  tag : String
  server : String
  detour : String

structure DnsRule where
  inbound : List String
  domain : List String
  domainSuffix : List String
  domainKeyword : List String
  domainRegex : List String
  ruleSet : List String
  action : String
  rcode : String
  server : String
  method : String
  noDrop : Bool
  answer : List String
  ns : List String
  extra : List String
  disableCache : Bool
  rewriteTtl : String
  timeout : String
  clientSubnet : String

structure Dns where
  rules : List DnsRule
  servers : List DnsServer
  final : String

inductive DnsRejectMethod
  | default
  | drop
deriving DecidableEq

def DnsRejectMethod.asStr : DnsRejectMethod → String
  | .default => "default"
  | .drop => "drop"

/-- What the adapter uses of the DNS implementation of shoes. -/
structure DnsExternals where
  /-- `DnsRejectMethod::parse`. -/
  rejectMethod : String → Option DnsRejectMethod
  /-- `DnsRcode::parse(rcode).is_some()`. -/
  rcode : String → Bool
  /-- `parse_predefined_lookup_addresses` of the answer, ns and extra records. -/
  predefined : List String → List String → List String → Except String Unit
  /-- The digest of a reject rule and its index. -/
  rejectFloodDigest : DnsRule → Nat → String

inductive IpStrategy
  | ipv4AndIpv6
  | ipv6AndIpv4
  | ipv4Only
  | ipv6Only
deriving DecidableEq

def IpStrategy.name : IpStrategy → String
  | .ipv4AndIpv6 => "ipv4_and_ipv6"
  | .ipv6AndIpv4 => "ipv6_and_ipv4"
  | .ipv4Only => "ipv4_only"
  | .ipv6Only => "ipv6_only"

/-- The strategies that differ from the one of an address lookup. -/
abbrev IpStrategies := Map String IpStrategy

def IpStrategies.get (strategies : IpStrategies) (tag : String) : IpStrategy := (strategies[tag]?).getD .ipv4AndIpv6

variable (ext : Externals) (dext : DnsExternals)

/-! ### Resolvers of outbounds -/

def outboundDnsIpStrategy (strategy : String) : Except String (Option IpStrategy) :=
  if strategy = "" then .ok none
  else if strategy = "prefer_ipv4" then .ok (some .ipv4AndIpv6)
  else if strategy = "prefer_ipv6" then .ok (some .ipv6AndIpv4)
  else if strategy = "ipv4_only" then .ok (some .ipv4Only)
  else if strategy = "ipv6_only" then .ok (some .ipv6Only)
  else .error s!"unsupported outbound domain_resolver strategy {ext.quote strategy}"

def compileDomainResolveOptions (resolver : DomainResolveOptions) (context : String) : Except String OutboundDomainResolver :=
  if resolver.server.isEmpty || !trimmed resolver.server then .error s!"{context}.server must be a non-empty trimmed string"
  else if !trimmed resolver.strategy then .error s!"{context}.strategy must be a trimmed string"
  else
    let strategy := if resolver.strategy = "as_is" then "" else resolver.strategy
    match outboundDnsIpStrategy ext strategy with
    | .error _ => .error s!"{context} strategy {ext.quote resolver.strategy} is unsupported"
    | .ok _ =>
      match normalizeDnsClientSubnetValue ext resolver.clientSubnet with
      | .error reason => .error s!"{context}.client_subnet {ext.quote resolver.clientSubnet} {reason}"
      | .ok clientSubnet => .ok ⟨resolver.server,strategy,⟨resolver.disableCache,resolver.rewriteTtl,clientSubnet⟩⟩

/-- The resolver of `route.default_domain_resolver`. -/
def defaultResolver (route : Option Route) : Except String (Option OutboundDomainResolver) :=
  match route.bind Route.defaultDomainResolver with
  | none => .ok none
  | some resolver => do
    let compiled ← compileDomainResolveOptions ext resolver "route.default_domain_resolver"
    return some compiled

/-- A dialer with a detour does not resolve its own address. -/
def outboundInheritsDefaultDomainResolver (outbound : ValidatedOutbound) : Bool :=
  if outbound.kind = .selector || outbound.kind = .urltest then false
  else (effectiveDetour outbound).isNone

/-- The explicit or inherited resolver of an outbound. -/
def resolverOf (inherited : Option OutboundDomainResolver) (outbound : ValidatedOutbound) : Option OutboundDomainResolver :=
  match outbound.domainResolver with
  | some resolver => some resolver
  | none => if outboundInheritsDefaultDomainResolver outbound then inherited else none

def configuredServers (dns : Option Dns) : List DnsServer := (dns.map Dns.servers).getD []

def dnsRules (dns : Option Dns) : List DnsRule := (dns.map Dns.rules).getD []

/-! ### Clones of direct outbounds -/

def sameEgressDnsIpStrategy (strategy : String) : Except String IpStrategy :=
  if strategy = "" then .ok .ipv4AndIpv6
  else if strategy = "ipv4_only" then .ok .ipv4Only
  else if strategy = "ipv6_only" then .ok .ipv6Only
  else .error "is not emitted for a panel same-egress runtime Direct clone"

def sameEgressRouteMatchSupported (rule : RouteRule) : Bool :=
  let fullNetwork := rule.network.length = 2 && "tcp" ∈ rule.network && "udp" ∈ rule.network
  let hostnameScope := !rule.domain.isEmpty || !rule.domainSuffix.isEmpty || !rule.domainKeyword.isEmpty || !rule.domainRegex.isEmpty ||
    !rule.ruleSet.isEmpty || !rule.inbound.isEmpty
  rule.action = "route" && !rule.invert && (unsupportedRouteRuleFields rule).isEmpty && (rule.network.isEmpty || fullNetwork) &&
    (hostnameScope || fullNetwork) && rule.ipVersion = 0 && rule.ipCidr.isEmpty && rule.port.isEmpty && rule.portRange.isEmpty &&
    rule.protocol.isEmpty

def sameEgressRuleMatchesDns (route : RouteRule) (dns : DnsRule) : Bool :=
  route.inbound = dns.inbound && route.domain = dns.domain && route.domainSuffix = dns.domainSuffix && route.domainKeyword = dns.domainKeyword &&
    route.domainRegex = dns.domainRegex && route.ruleSet = dns.ruleSet

def sameEgressClone (outbound : ValidatedOutbound) : Bool :=
  outbound.tag.startsWith "__acp_direct_" && outbound.tag.endsWith "_same_egress"

section Projection
variable (route : Option Route) (dns : Option Dns) (outbounds : Catalog)

/-- The servers by their tags; the implicit one has no description. -/
def addServerTags (servers : Map String (Option DnsServer)) : List DnsServer → Except String (Map String (Option DnsServer))
  | [] => .ok servers
  | server :: rest =>
    if (servers[server.tag]?).isSome then .error s!"duplicate dns server tag {ext.quote server.tag}"
    else addServerTags (servers.insert server.tag (some server)) rest

def serversByTag : Except String (Map String (Option DnsServer)) :=
  if (configuredServers dns).isEmpty then .ok ((∅ : Map String (Option DnsServer)).insert DEFAULT_DNS_TAG none)
  else addServerTags ext ∅ (configuredServers dns)

/-- A clone resolves through a server of its own, and is used together with it only. -/
def validateSameEgress (servers : Map String (Option DnsServer)) (outbound : ValidatedOutbound) (resolver : OutboundDomainResolver) :
    Except String IpStrategy := do
  refuse (!resolver.server.startsWith "__acp_dns_")
    s!"same-egress runtime Direct {ext.quote outbound.tag} must resolve through a reserved synthetic DNS server"
  match (servers[resolver.server]?).bind id with
  | none => throw s!"same-egress runtime Direct {ext.quote outbound.tag} references missing synthetic DNS server {ext.quote resolver.server}"
  | some server => do
    refuse server.detour.isEmpty s!"synthetic DNS server {ext.quote resolver.server} must detour through the original Direct outbound"
    match outbounds[server.detour]? with
    | none => throw s!"synthetic DNS server {ext.quote resolver.server} references unknown original Direct {ext.quote server.detour}"
    | some original => do
      refuse (original.kind ≠ .direct || !sameFields original.options outbound.options)
        s!"same-egress runtime Direct {ext.quote outbound.tag} does not preserve the original Direct {ext.quote original.tag} local dialer options"
      refuse (ext.parseIp server.server).isNone
        s!"synthetic DNS server {ext.quote resolver.server} must use a literal IP address so stripping the original Direct resolver is lossless"
      refuse (route.any (fun route => route.final = outbound.tag)) s!"same-egress runtime Direct {ext.quote outbound.tag} cannot be route.final"
      let linked := (routeRules route).filter (fun rule => rule.outbound = outbound.tag)
      refuse (linked.isEmpty || linked.any (fun rule => !sameEgressRouteMatchSupported rule ||
          !(dnsRules dns).any (fun dnsRule => dnsRule.action = "route" && dnsRule.server = resolver.server && sameEgressRuleMatchesDns rule dnsRule)))
        s!"same-egress runtime Direct {ext.quote outbound.tag} requires a matching panel-generated route and DNS rule pair"
      refuse ((dnsRules dns).any (fun dnsRule => dnsRule.server = resolver.server &&
          (dnsRule.action ≠ "route" || !linked.any (fun rule => sameEgressRuleMatchesDns rule dnsRule))))
        s!"synthetic DNS server {ext.quote resolver.server} is referenced outside its same-egress rule pair"
      match sameEgressDnsIpStrategy resolver.strategy with
      | .error reason => throw s!"same-egress runtime Direct {ext.quote outbound.tag} domain_resolver strategy {ext.quote resolver.strategy} {reason}"
      | .ok strategy => return strategy

/-- The strategies of the servers that clones of direct outbounds use. -/
def resolutionStrategies (servers : Map String (Option DnsServer)) (inherited : Option OutboundDomainResolver) (strategies : IpStrategies) :
    List ValidatedOutbound → Except String IpStrategies
  | [] => .ok strategies
  | outbound :: rest =>
    match resolverOf inherited outbound with
    | none => resolutionStrategies servers inherited strategies rest
    | some resolver =>
      if (servers[resolver.server]?).isNone then
        .error s!"outbound {ext.quote outbound.tag} domain_resolver references unknown DNS server {ext.quote resolver.server}"
      else if !sameEgressClone outbound then resolutionStrategies servers inherited strategies rest
      else do
        let strategy ← validateSameEgress ext route dns outbounds servers outbound resolver
        match (strategies[resolver.server]?).filter (· ≠ strategy) with
        | some existing =>
          throw s!"DNS server {ext.quote resolver.server} is required with conflicting IP strategies {ext.quote existing.name} and {ext.quote strategy.name}"
        | none => resolutionStrategies servers inherited (strategies.insert resolver.server strategy) rest

def requestedFinal : String := (dns.map Dns.final).getD ""

def validateDnsResolutionProjection : Except String IpStrategies := do
  let servers ← serversByTag ext dns
  let finalTag := if (requestedFinal dns).isEmpty then DEFAULT_DNS_TAG else requestedFinal dns
  refuse (servers[finalTag]?).isNone s!"dns final references unknown server {ext.quote finalTag}"
  let inherited ← defaultResolver ext route
  match inherited.filter (fun resolver => (servers[resolver.server]?).isNone) with
  | some resolver => throw s!"route.default_domain_resolver references unknown DNS server {ext.quote resolver.server}"
  | none => resolutionStrategies ext route dns outbounds servers inherited ∅ (outbounds.toList.map Prod.snd)

end Projection

/-! ### Variants -/

structure DnsServerVariantKey where
  sourceTag : String
  ipStrategy : IpStrategy
  query : DnsServerQueryProfile
deriving DecidableEq

structure DnsServerVariant where
  tag : String
  key : DnsServerVariantKey

/-- What the name of a variant is a digest of. -/
def profileText (key : DnsServerVariantKey) : String :=
  key.sourceTag ++ "\x00" ++ key.ipStrategy.name ++ "\x00" ++ (if key.query.disableCache then "true" else "false") ++ "\x00" ++
    (key.query.rewriteTtl.map toString).getD "" ++ "\x00" ++ key.query.clientSubnet.getD ""

def dnsProfileVariantTag (key : DnsServerVariantKey) : String := "__acp_dns_profile_" ++ ext.sha256 (profileText key)

def compareOption {α : Type} (compareSome : α → α → Ordering) : Option α → Option α → Ordering
  | none, none => .eq
  | none, some _ => .lt
  | some _, none => .gt
  | some a, some b => compareSome a b

/-- The order of variants: by their servers, then by what they ask for. -/
def DnsServerVariantKey.compare (a b : DnsServerVariantKey) : Ordering :=
  (Ord.compare a.sourceTag b.sourceTag).then <| (Ord.compare a.ipStrategy.name b.ipStrategy.name).then <|
    (Ord.compare a.query.disableCache.toNat b.query.disableCache.toNat).then <|
      (compareOption Ord.compare a.query.rewriteTtl b.query.rewriteTtl).then <|
        compareOption Ord.compare a.query.clientSubnet b.query.clientSubnet

/-- `entry(key).or_insert(variant)` in the order of the keys. -/
def addVariant (variant : DnsServerVariant) : List DnsServerVariant → List DnsServerVariant
  | [] => [variant]
  | first :: rest =>
    if first.key = variant.key then first :: rest
    else if variant.key.compare first.key = .lt then variant :: first :: rest
    else first :: addVariant variant rest

/-- The catalog with the servers of its outbounds, and the variants that these need. -/
structure OutboundDnsProjection where
  outbounds : Catalog
  variants : List DnsServerVariant

section Assignment
variable (configured : List String) (strategies : IpStrategies) (inherited : Option OutboundDomainResolver)

/-- The server for an outbound, and the variants with it. -/
def selectServer (resolver : OutboundDomainResolver) (variants : List DnsServerVariant) : Except String (String × List DnsServerVariant) := do
  let desired ← outboundDnsIpStrategy ext resolver.strategy
  let source := strategies.get resolver.server
  let effective := desired.getD source
  if effective = source && resolver.query.isDefault then return (resolver.server,variants)
  else
    let key : DnsServerVariantKey := ⟨resolver.server,effective,resolver.query⟩
    let tag := dnsProfileVariantTag ext key
    if tag ∈ configured then throw s!"configured DNS server tag {ext.quote tag} collides with a reserved DNS profile tag"
    else return (tag,addVariant ⟨tag,key⟩ variants)

def assignServers (projection : OutboundDnsProjection) : List ValidatedOutbound → Except String OutboundDnsProjection
  | [] => .ok projection
  | outbound :: rest =>
    match resolverOf inherited outbound with
    | none => assignServers projection rest
    | some resolver =>
      if resolver.server ∉ configured then
        .error s!"outbound {ext.quote outbound.tag} domain_resolver references unknown DNS server {ext.quote resolver.server}"
      else do
        let (tag,variants) ← selectServer ext configured strategies resolver projection.variants
        assignServers ⟨projection.outbounds.insert outbound.tag { outbound with shoesDnsResolver := some tag },variants⟩ rest

end Assignment

def configuredTags (dns : Option Dns) : List String :=
  if (configuredServers dns).isEmpty then [DEFAULT_DNS_TAG] else (configuredServers dns).map DnsServer.tag

def projectOutboundDnsResolvers (route : Option Route) (dns : Option Dns) (outbounds : Catalog) (strategies : IpStrategies) :
    Except String OutboundDnsProjection := do
  let inherited ← defaultResolver ext route
  assignServers ext (configuredTags dns) strategies inherited ⟨outbounds,[]⟩ (outbounds.toList.map Prod.snd)

end NodeAgent.DnsServers
