import NodeAgent.FiniteMap
import NodeAgent.OutboundAdapter

/-!
The catalog of outbounds. Every outbound of a topology is checked on its own, then the graph
of their references must be complete, without cycles and not too deep, and no selection that
is made at run time may stand where a fixed chain is needed.
-/
namespace NodeAgent.Outbounds
open NodeAgent.Api NodeAgent.Json NodeAgent.FiniteMap NodeAgent.OutboundAdapter

def DEFAULT_DIRECT_OUTBOUND : String := "direct"

/-- JSON as it came from the panel. -/
inductive RawJson
  | empty
  | invalid (error : String)
  | value (v : Value)

structure Outbound where
  kind : String
  tag : String
  options : RawJson

structure DnsServerQueryProfile where
  disableCache : Bool
  rewriteTtl : Option Nat
  clientSubnet : Option String
deriving DecidableEq

def DnsServerQueryProfile.default : DnsServerQueryProfile := ⟨false,none,none⟩

def DnsServerQueryProfile.isDefault (q : DnsServerQueryProfile) : Bool := !q.disableCache && q.rewriteTtl.isNone && q.clientSubnet.isNone

structure OutboundDomainResolver where
  server : String
  strategy : String
  query : DnsServerQueryProfile

/-- An outbound of the catalog; its options are those that the adapter sees. -/
structure ValidatedOutbound where
  /-- Stable identity within one catalog. -/
  id : Nat
  kind : OutboundKind
  tag : String
  options : Fields
  requestedOptions : Fields
  domainResolver : Option OutboundDomainResolver
  /-- The DNS server that the outbound's connector uses. -/
  shoesDnsResolver : Option String

abbrev Catalog := Map String ValidatedOutbound

variable (ext : Externals)

/-! ### Single outbounds -/

def OutboundKind.parse (kind : String) : Option OutboundKind :=
  [.direct,.selector,.urltest,.shadowsocks,.trojan,.vless,.hysteria2].find? (fun k => k.name = kind)

/-- `s.trim() == s`. -/
def trimmed (s : String) : Bool :=
  !(s.toList.head?.any isWhitespace) && !(s.toList.getLast?.any isWhitespace)

/-! ### Numbers and separators -/

/-- `s.split_once(separator)`. -/
def splitOnce (s : String) (separator : Char) : Option (String × String) :=
  match s.toList.span (· ≠ separator) with
  | (before,_ :: after) => some (String.ofList before,String.ofList after)
  | (_,[]) => none

def parseDigits (bound : Nat) (value : Nat) : List Char → Except String Nat
  | [] => .ok value
  | c :: rest =>
    if c.isDigit then
      if value * 10 + (c.toNat - '0'.toNat) < bound then parseDigits bound (value * 10 + (c.toNat - '0'.toNat)) rest
      else .error "number too large to fit in target type"
    else .error "invalid digit found in string"

/-- `str::parse` for an unsigned number below a bound; one plus sign may come first. -/
def parseUnsigned (bound : Nat) (s : String) : Except String Nat :=
  match s.toList with
  | [] => .error "cannot parse integer from empty string"
  | ['+'] => .error "invalid digit found in string"
  | '+' :: digits => parseDigits bound 0 digits
  | digits => parseDigits bound 0 digits

/-! ### Client subnets -/

/-- `x << n`. A shift by the width or more overflows. -/
def checkedShl {w : Nat} (x : BitVec w) (n : Nat) : Option (BitVec w) := if n < w then some (x <<< n) else none

/-- `u32::MAX << (32 - prefix_len)`, and the same with 128 bits. -/
def prefixMask (w prefixLen : Nat) : Option (BitVec w) :=
  if prefixLen = 0 then some 0
  else if w < prefixLen then none
  else checkedShl (BitVec.allOnes w) (w - prefixLen)

/-- The address without the bits after the prefix. -/
def networkOf (address : IpAddr) (prefixLen : Nat) : Option IpAddr :=
  match address with
  | .v4 address => (prefixMask 32 prefixLen).map (fun mask => .v4 (address &&& mask))
  | .v6 address => (prefixMask 128 prefixLen).map (fun mask => .v6 (address &&& mask))

/-- The address and the prefix length of a client subnet. -/
def subnetTarget (value : String) : Except String (IpAddr × Nat) :=
  match splitOnce value '/' with
  | some (address,length) =>
    if address.isEmpty || length.isEmpty || '/' ∈ length.toList then .error "must be an IP address or CIDR prefix"
    else
      match ext.parseIp address with
      | none => .error s!"has invalid address {ext.quote address}: invalid IP address syntax"
      | some parsed =>
        if !length.toList.all Char.isDigit || (1 < length.length && length.toList.head? = some '0') then
          .error s!"has invalid prefix {ext.quote length}"
        else
          match parseUnsigned 256 length with
          | .error error => .error s!"has invalid prefix {ext.quote length}: {error}"
          | .ok prefixLen => .ok (parsed,prefixLen)
  | none =>
    match ext.parseIp value with
    | none => .error "has invalid address: invalid IP address syntax"
    | some parsed => .ok (parsed,parsed.maxPrefix)

/-- What stands for the panic of an overflowing shift. -/
def SHIFT_OVERFLOW : String := "attempt to shift left with overflow"

/-- An IP address or prefix in the form of a network. -/
def normalizeDnsClientSubnetValue (value : String) : Except String (Option String) :=
  if value.isEmpty then .ok none
  else
    match subnetTarget ext value with
    | .error reason => .error reason
    | .ok (address,prefixLen) =>
      if prefixLen > address.maxPrefix then
        .error s!"has prefix length {prefixLen}, which exceeds {address.maxPrefix} for {ext.displayIp address}"
      else
        match networkOf address prefixLen with
        | none => .error SHIFT_OVERFLOW
        | some network => .ok (some s!"{ext.displayIp network}/{prefixLen}")

def DIRECT_FIELDS : List String :=
  ["detour","bind_interface","inet4_bind_address","inet6_bind_address","routing_mark","reuse_addr","connect_timeout","tcp_fast_open",
    "tcp_multi_path","udp_fragment","udp_timeout","domain_strategy","bind_address_no_port","protect_path","netns",
    "disable_tcp_keep_alive","tcp_keep_alive","tcp_keep_alive_interval","domain_resolver","network_strategy","network_type",
    "fallback_network_type","fallback_delay","override_address","override_port"]

def validateOutboundOptions (kind : OutboundKind) (tag : String) (fields : Fields) : Except String Unit :=
  if kind = .direct then
    match fields.find? (fun field => field.1 ∉ DIRECT_FIELDS) with
    | some (field,_) => .error s!"invalid direct outbound {ext.quote tag} options: unknown field {ext.quote field}"
    | none => .ok ()
  else .ok ()

/-- The resolver that an outbound asks for, and its options without it. -/
def extractOutboundDomainResolver (kind : OutboundKind) (tag : String) (fields : Fields) :
    Except String (Option OutboundDomainResolver × Fields) := do
  let context := s!"outbound {ext.quote tag} ({kind.name}) domain_resolver"
  let rest := Fields.without fields "domain_resolver"
  match Fields.get fields "domain_resolver" with
  | none => return (none,rest)
  | some value =>
    if kind = .selector || kind = .urltest then
      throw s!"outbound {ext.quote tag} ({kind.name}) does not have sing-box dialer options and cannot declare domain_resolver"
    match value with
    | .null => return (none,rest)
    | .string server =>
      if server.isEmpty then return (none,rest)
      if !trimmed server then throw s!"{context} must be a non-empty trimmed DNS server tag"
      return (some ⟨server,"",.default⟩,rest)
    | .object resolver =>
      if let some (field,_) := resolver.find? (fun field => field.1 ∉ ["server","strategy","disable_cache","rewrite_ttl","client_subnet"]) then
        throw s!"{context} field {ext.quote field} cannot be represented by shoes"
      let server ← match Fields.get resolver "server" with
        | some (.string server) =>
          if blank server || !trimmed server then throw s!"{context}.server must be a non-empty trimmed string" else pure server
        | _ => throw s!"{context}.server must be a non-empty trimmed string"
      let strategy ← match Fields.get resolver "strategy" with
        | none | some .null => pure ""
        | some (.string strategy) =>
          if !trimmed strategy then throw s!"{context}.strategy must be a string"
          else pure (if strategy = "as_is" then "" else strategy)
        | some _ => throw s!"{context}.strategy must be a string"
      if strategy ∉ ["","prefer_ipv4","prefer_ipv6","ipv4_only","ipv6_only"] then
        throw s!"{context} strategy {ext.quote strategy} is unsupported"
      let disableCache ← match Fields.get resolver "disable_cache" with
        | none | some .null => pure false
        | some (.bool value) => pure value
        | some _ => throw s!"{context}.disable_cache must be a boolean"
      let rewriteTtl ← match Fields.get resolver "rewrite_ttl" with
        | none | some .null => pure none
        | some (.number value) =>
          match value.asU64.filter (· < 2 ^ 32) with
          | some value => pure (some value)
          | none => throw s!"{context}.rewrite_ttl must be a uint32"
        | some _ => throw s!"{context}.rewrite_ttl must be a uint32"
      let clientSubnet ← match Fields.get resolver "client_subnet" with
        | none | some .null => pure none
        | some (.string value) =>
          match normalizeDnsClientSubnetValue ext value with
          | .ok subnet => pure subnet
          | .error reason => throw s!"{context}.client_subnet {ext.quote value} {reason}"
        | some _ => throw s!"{context}.client_subnet must be a string"
      return (some ⟨server,strategy,⟨disableCache,rewriteTtl,clientSubnet⟩⟩,rest)
    | _ => throw s!"{context} must be a string, object, or null"

/-- `field.eq_ignore_ascii_case("type") || field.eq_ignore_ascii_case("tag")`. -/
def managedField (field : String) : Bool :=
  let lower := String.ofList (field.toList.map Char.toLower)
  lower = "type" || lower = "tag"

/-- The options of an outbound, which must be a JSON object. -/
def outboundFields (outbound : Outbound) : Except String Fields :=
  match outbound.options with
  | .empty => .ok []
  | .invalid error => .error s!"outbound {ext.quote outbound.tag} options must be a JSON object: {error}"
  | .value (.object fields) => .ok fields
  | .value _ => .error s!"outbound {ext.quote outbound.tag} options must be a JSON object"

def validateOutbound (id : Nat) (outbound : Outbound) : Except String ValidatedOutbound :=
  if outbound.kind.isEmpty then .error "outbound type is required"
  else if outbound.tag.isEmpty then .error s!"outbound {outbound.kind} tag is required"
  else
    match OutboundKind.parse outbound.kind with
    | none => .error s!"unknown outbound type {ext.quote outbound.kind}"
    | some kind => do
      let fields ← outboundFields ext outbound
      match fields.find? (fun field => managedField field.1) with
      | some (field,_) => throw s!"outbound {ext.quote outbound.tag} options must not contain managed field {ext.quote field}"
      | none => do
        validateOutboundOptions ext kind outbound.tag fields
        let (domainResolver,options) ← extractOutboundDomainResolver ext kind outbound.tag fields
        return ⟨id,kind,outbound.tag,options,fields,domainResolver,none⟩

def addOutbounds (catalog : Catalog) (id : Nat) : List Outbound → Except String Catalog
  | [] => .ok catalog
  | outbound :: rest => do
    let validated ← validateOutbound ext id outbound
    if (catalog[validated.tag]?).isSome then .error s!"duplicate outbound tag {ext.quote validated.tag}"
    else addOutbounds (catalog.insert validated.tag validated) (id + 1) rest

def validateOutbounds (values : List Outbound) : Except String Catalog :=
  if values.isEmpty then .ok ((∅ : Catalog).insert DEFAULT_DIRECT_OUTBOUND ⟨0,.direct,DEFAULT_DIRECT_OUTBOUND,[],[],none,none⟩)
  else addOutbounds ext ∅ 0 values

/-! ### References -/

/-- A non-empty member list of strings. -/
def memberTags (kind : OutboundKind) (outbound : ValidatedOutbound) : Except String (List String) :=
  match Fields.get outbound.options "outbounds" with
  | some (.array []) => .error s!"{kind.name} outbound {ext.quote outbound.tag} requires at least one member"
  | some (.array values) => values.zipIdx.mapM (fun entry =>
      match entry.1 with
      | .string member =>
        if member.isEmpty then .error s!"{kind.name} outbound {ext.quote outbound.tag} outbounds[{entry.2}] must be a non-empty string"
        else .ok member
      | _ => .error s!"{kind.name} outbound {ext.quote outbound.tag} outbounds[{entry.2}] must be a non-empty string")
  | _ => .error s!"{kind.name} outbound {ext.quote outbound.tag} requires an outbounds string array"

/-- The members of a selector, and its default or first one. -/
def parseSelectorDefinition (outbound : ValidatedOutbound) : Except String Selection := do
  let members ← memberTags ext .selector outbound
  match Fields.get outbound.options "default" with
  | none | some .null => return ⟨members,members.headD ""⟩
  | some (.string default) =>
    if default.isEmpty then .ok ⟨members,members.headD ""⟩
    else if default ∈ members then .ok ⟨members,default⟩
    else .error s!"selector outbound {ext.quote outbound.tag} default {ext.quote default} is not a member"
  | some _ => .error s!"selector outbound {ext.quote outbound.tag} default must be a string"

def parseUrltestDuration (tag : String) (value : Option Value) (field : String) (defaultMillis : Nat) : Except String Nat :=
  match value with
  | none => .ok defaultMillis
  | some (.string value) =>
    match ext.parseGoDuration value with
    | .error error => .error s!"urltest outbound {ext.quote tag} has invalid {field} {ext.quote value}: {error}"
    | .ok nanos =>
      if nanos = 0 then .ok defaultMillis
      else if nanos % 1000000 ≠ 0 then
        .error s!"urltest outbound {ext.quote tag} {field} {ext.quote value} has sub-millisecond precision that shoes cannot preserve"
      else if nanos / 1000000 < 2 ^ 64 then .ok (nanos / 1000000)
      else .error s!"urltest outbound {ext.quote tag} {field} {ext.quote value} is too large"
  | some _ => .error s!"urltest outbound {ext.quote tag} {field} must be a Go duration string"

def DEFAULT_INTERVAL_MILLIS : Nat := 3 * 60 * 1000
def DEFAULT_IDLE_TIMEOUT_MILLIS : Nat := 30 * 60 * 1000

structure UrltestDefinition where
  members : List String
  selection : Fields

def parseUrltestDefinition (outbound : ValidatedOutbound) : Except String UrltestDefinition := do
  let fields := outbound.options
  if let some (field,_) := fields.find? (fun field =>
      field.1 ∉ ["outbounds","url","interval","tolerance","idle_timeout","interrupt_exist_connections"]) then
    throw s!"urltest outbound {ext.quote outbound.tag} field {ext.quote field} cannot be represented by shoes"
  let members ← memberTags ext .urltest outbound
  let requestedUrl ← match Fields.get fields "url" with
    | none | some .null => pure ""
    | some (.string url) => pure url
    | some _ => throw s!"urltest outbound {ext.quote outbound.tag} url must be a string"
  let intervalMillis ← parseUrltestDuration ext outbound.tag (Fields.get fields "interval") "interval" DEFAULT_INTERVAL_MILLIS
  let idleTimeoutMillis ← parseUrltestDuration ext outbound.tag (Fields.get fields "idle_timeout") "idle_timeout" DEFAULT_IDLE_TIMEOUT_MILLIS
  if intervalMillis > idleTimeoutMillis then
    throw s!"urltest outbound {ext.quote outbound.tag} interval must be less than or equal to idle_timeout"
  let tolerance ← match Fields.get fields "tolerance" with
    | none | some .null => pure 50
    | some (.number value) =>
      match value.asU64.filter (· < 2 ^ 16) with
      | some value => pure (if value = 0 then 50 else value)
      | none => throw s!"urltest outbound {ext.quote outbound.tag} tolerance must be an unsigned 16-bit integer"
    | some _ => throw s!"urltest outbound {ext.quote outbound.tag} tolerance must be an unsigned 16-bit integer"
  match Fields.get fields "interrupt_exist_connections" with
  | none | some .null | some (.bool false) => pure ()
  | some (.bool true) => throw s!"urltest outbound {ext.quote outbound.tag} requests interrupt_exist_connections; shoes cannot revoke already-established connections when the selected chain changes"
  | some _ => throw s!"urltest outbound {ext.quote outbound.tag} interrupt_exist_connections must be a boolean"
  return ⟨members,Fields.of [("type",.string "urltest"),
    -- The digest that takes the place of this one has the same length.
    ("shared_id",.string "node-agent-urltest-v1:0000000000000000000000000000000000000000000000000000000000000000"),
    ("url",.string requestedUrl),("use_native_roots",.bool true),("reselect_on_connection_failure",.bool false),
    ("interval_millis",.number (.natural intervalMillis)),("idle_timeout_millis",.number (.natural idleTimeoutMillis)),
    ("tolerance_millis",.number (.natural tolerance))]⟩

def effectiveDetour (outbound : ValidatedOutbound) : Option String :=
  ((Fields.get outbound.options "detour").bind Value.asStr).filter (fun detour => !detour.isEmpty)

/-- The outbounds that an outbound refers to. -/
def outboundReferences (outbound : ValidatedOutbound) : Except String (List String) :=
  match outbound.kind with
  | .selector => return (← parseSelectorDefinition ext outbound).members
  | .urltest => return (← parseUrltestDefinition ext outbound).members
  | _ => .ok (effectiveDetour outbound).toList

def unknownReference (outbound : ValidatedOutbound) (target : String) : String :=
  match outbound.kind with
  | .selector => s!"selector outbound {ext.quote outbound.tag} references unknown member {ext.quote target}"
  | .urltest => s!"urltest outbound {ext.quote outbound.tag} references unknown member {ext.quote target}"
  | _ => s!"outbound {ext.quote outbound.tag} references unknown detour {ext.quote target}"

/-! ### The graph of references -/

inductive ReferenceVisitState
  | visiting
  | complete (depth : Nat)

abbrev VisitStates := Map String ReferenceVisitState

def pathText (path : List String) : String := String.intercalate " -> " path

variable (catalog : Catalog)

abbrev Visitor := List String → VisitStates → String → Except String (Nat × VisitStates)

/-- The references of an outbound, one after the other. -/
def visitEach (visit : VisitStates → String → Except String (Nat × VisitStates)) (outbound : ValidatedOutbound) (deepest : Nat)
    (states : VisitStates) : List String → Except String (Nat × VisitStates)
  | [] => .ok (deepest,states)
  | target :: rest =>
    if (catalog[target]?).isNone then .error (unknownReference ext outbound target)
    else do
      let (depth,states) ← visit states target
      visitEach visit outbound (max deepest depth) states rest

/-- The depth of an outbound, and what has been visited after it. The stack is kept from its
    top; nothing can be visited from here when it is full. -/
def visitFrom (descend : Option Visitor) : Visitor := fun stack states tag =>
  match states[tag]? with
  | some (.complete depth) => .ok (depth,states)
  | some .visiting => .error s!"outbound reference cycle: {pathText ((stack.takeWhile (· ≠ tag) ++ [tag]).reverse ++ [tag])}"
  | none =>
    match descend with
    | none => .error s!"outbound reference depth exceeds maximum {MAX_OUTBOUND_REFERENCE_DEPTH}: {pathText (stack.reverse ++ [tag])}"
    | some descend =>
      match catalog[tag]? with
      | none => .error s!"unknown outbound {ext.quote tag}"
      | some outbound => do
        let references ← outboundReferences ext outbound
        let (maxChildDepth,states) ← visitEach ext catalog (descend (tag :: stack)) outbound 0 (states.insert tag .visiting) references
        let depth := maxChildDepth + 1
        if depth > MAX_OUTBOUND_REFERENCE_DEPTH then
          throw s!"outbound reference depth from {ext.quote tag} is {depth}, exceeding maximum {MAX_OUTBOUND_REFERENCE_DEPTH}"
        return (depth,states.insert tag (.complete depth))

/-- A visit with so much room on the stack. -/
def visit : Nat → Visitor
  | 0 => visitFrom ext catalog none
  | room + 1 => visitFrom ext catalog (some (visit room))

/-- `ReferenceGraphValidator::validate`. -/
def validateReferences (states : VisitStates) : List String → Except String VisitStates
  | [] => .ok states
  | tag :: rest => do
    let (_,states) ← visit ext catalog MAX_OUTBOUND_REFERENCE_DEPTH [] states tag
    validateReferences states rest

/-! ### The shapes of actions -/

inductive OutboundActionShape
  | plain
  | urltest
deriving DecidableEq

abbrev Shapes := Map String OutboundActionShape

/-- The members of a URLTest, none of which may be selected at run time itself. -/
def membersPlain (shape : Shapes → String → Except String (OutboundActionShape × Shapes)) (tag : String) (completed : Shapes) :
    List String → Except String Shapes
  | [] => .ok completed
  | member :: rest => do
    let (memberShape,completed) ← shape completed member
    if memberShape = .urltest then
      throw s!"urltest outbound {ext.quote tag} contains nested active urltest through member {ext.quote member}"
    membersPlain shape tag completed rest

/-- The shape of an outbound from those of its references. -/
def referredShape (shape : Shapes → String → Except String (OutboundActionShape × Shapes)) (completed : Shapes) (outbound : ValidatedOutbound) :
    Except String (OutboundActionShape × Shapes) :=
  match outbound.kind with
  | .selector => do
    let definition ← parseSelectorDefinition ext outbound
    shape completed definition.selected
  | .urltest => do
    let definition ← parseUrltestDefinition ext outbound
    let completed ← membersPlain ext shape outbound.tag completed definition.members
    return (.urltest,completed)
  | _ =>
    match effectiveDetour outbound with
    | none => .ok (.plain,completed)
    | some detour => do
      let (detourShape,completed) ← shape completed detour
      if detourShape = .urltest then
        throw s!"outbound {ext.quote outbound.tag} detour {ext.quote detour} selects urltest; shoes cannot embed active client-chain selection inside one proxy chain"
      return (.plain,completed)

/-- `OutboundActionShapeValidator::shape`. The recursion follows references, so that a chain
    of more than the maximum depth cannot come up. -/
def shape : Nat → Shapes → String → Except String (OutboundActionShape × Shapes)
  | 0, _, tag => .error s!"outbound reference depth exceeds maximum {MAX_OUTBOUND_REFERENCE_DEPTH}: {tag}"
  | room + 1, completed, tag =>
    match completed[tag]? with
    | some shape => .ok (shape,completed)
    | none =>
      match catalog[tag]? with
      | none => .error s!"unknown outbound {ext.quote tag}"
      | some outbound => do
        let (result,completed) ← referredShape ext (shape room) completed outbound
        return (result,completed.insert tag result)

/-- `OutboundActionShapeValidator::validate`. -/
def validateShapes (completed : Shapes) : List String → Except String Shapes
  | [] => .ok completed
  | tag :: rest => do
    let (_,completed) ← shape ext catalog MAX_OUTBOUND_REFERENCE_DEPTH completed tag
    validateShapes completed rest

/-! ### The catalog -/

/-- The outbound of a tag that a selector or a detour names; `what` says which. -/
def resolve (unknown what target : String) : Except String ValidatedOutbound :=
  match catalog[target]? with
  | none => .error unknown
  | some outbound =>
    if outbound.tag ≠ target then .error s!"outbound catalog resolved {what}{ext.quote target} as mismatched tag {ext.quote outbound.tag}"
    else .ok outbound

def resolveMember (tag member : String) : Except String ValidatedOutbound :=
  resolve ext catalog s!"selector outbound {ext.quote tag} references unknown member {ext.quote member}" "" member

def resolveDetour (tag detour : String) : Except String ValidatedOutbound :=
  resolve ext catalog s!"outbound {ext.quote tag} references unknown detour {ext.quote detour}" "detour " detour

/-- Every member is checked, though only one is used. -/
def resolveMembers (tag : String) : List String → Except String Unit
  | [] => .ok ()
  | member :: rest => do
    let _ ← resolveMember ext catalog tag member
    resolveMembers tag rest

/-- The adapter's check of one outbound and of its immediate references. -/
def validateClientOutbound (outbound : ValidatedOutbound) : Except String Unit :=
  if blank outbound.tag then .error s!"outbound {ext.quote outbound.kind.name} tag is required"
  else if outbound.kind = .selector then do
    let selection ← compileSelectorFields ext outbound.tag outbound.options
    resolveMembers ext catalog outbound.tag selection.members
  else do
    let hop ← compileHop ext outbound.kind outbound.tag outbound.options
    match hop.detour with
    | some detour => do
      let _ ← resolveDetour ext catalog outbound.tag detour
      return ()
    | none => return ()

/-- The local checks of one outbound. -/
def validateOne (outbound : ValidatedOutbound) : Except String Unit :=
  if outbound.kind = .urltest then do
    let _ ← parseUrltestDefinition ext outbound
    return ()
  else
    match validateClientOutbound ext catalog outbound with
    | .ok () => .ok ()
    | .error error => .error s!"compile outbound {ext.quote outbound.tag}: {error}"

def validateEach : List ValidatedOutbound → Except String Unit
  | [] => .ok ()
  | outbound :: rest => do
    validateOne ext catalog outbound
    validateEach rest

def validateOutboundCatalog : Except String Unit := do
  validateEach ext catalog (catalog.toList.map Prod.snd)
  let _ ← validateReferences ext catalog ∅ catalog.keys
  let _ ← validateShapes ext catalog ∅ catalog.keys
  return ()

end NodeAgent.Outbounds
