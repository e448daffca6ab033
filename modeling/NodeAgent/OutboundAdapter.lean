import NodeAgent.Api
import NodeAgent.Json

/-!
The adapter from outbound options to hops of a client chain. Each protocol accepts the
options that it can express and refuses all others. What an outbound becomes on its own, and
the detour that it asks for, is here; the chains that follow detours and selectors are built
over it.
-/
namespace NodeAgent.OutboundAdapter
open NodeAgent.Api NodeAgent.Json

inductive IpAddr
  | v4 (address : BitVec 32)
  | v6 (address : BitVec 128)
deriving DecidableEq

def IpAddr.isIpv4 : IpAddr → Bool
  | .v4 _ => true
  | .v6 _ => false

def IpAddr.maxPrefix (address : IpAddr) : Nat := if address.isIpv4 then 32 else 128

/-- What the compiler uses of other packages. -/
structure Externals where
  /-- The debug form of a string. -/
  quote : String → String
  /-- `str::parse::<IpAddr>`. -/
  parseIp : String → Option IpAddr
  displayIp : IpAddr → String
  /-- `parse_go_duration`, in nanoseconds. -/
  parseGoDuration : String → Except String Nat
  /-- The text of a JSON value. -/
  serialize : Value → String
  /-- The SHA-256 digest of a text, in hexadecimal. -/
  sha256 : String → String

/-- Maximum number of outbounds on any selector, URLTest or detour reference path. -/
def MAX_OUTBOUND_REFERENCE_DEPTH : Nat := 128

/-- The supported types. -/
inductive OutboundKind
  | direct
  | selector
  | urltest
  | shadowsocks
  | trojan
  | vless
  | hysteria2
deriving DecidableEq

def OutboundKind.name : OutboundKind → String
  | .direct => "direct"
  | .selector => "selector"
  | .urltest => "urltest"
  | .shadowsocks => "shadowsocks"
  | .trojan => "trojan"
  | .vless => "vless"
  | .hysteria2 => "hysteria2"

variable (ext : Externals)

/-! ### Fields -/

/-- An early return with an error. -/
def refuse (condition : Bool) (message : String) : Except String Unit := if condition then .error message else .ok ()

def rejectUnknownFields (tag kind : String) (fields : Fields) (allowed : List String) : Except String Unit :=
  match fields.find? (fun field => field.1 ∉ allowed) with
  | some (field,_) => .error s!"outbound {ext.quote tag} {kind} field {ext.quote field} is not expressible by shoes"
  | none => .ok ()

def requiredNonemptyString (tag : String) (fields : Fields) (name : String) : Except String String :=
  match Fields.get fields name with
  | some (.string value) =>
    if value.isEmpty then .error s!"outbound {ext.quote tag} field {ext.quote name} must be a non-empty string" else .ok value
  | _ => .error s!"outbound {ext.quote tag} field {ext.quote name} must be a non-empty string"

def optionalString (tag : String) (fields : Fields) (name : String) : Except String (Option String) :=
  match Fields.get fields name with
  | none | some .null => .ok none
  | some (.string value) => .ok (some value)
  | some _ => .error s!"outbound {ext.quote tag} field {ext.quote name} must be a string"

def optionalNonemptyString (tag : String) (fields : Fields) (name : String) : Except String (Option String) := do
  return (← optionalString ext tag fields name).filter (fun value => !value.isEmpty)

def optionalBool (tag : String) (fields : Fields) (name : String) : Except String (Option Bool) :=
  match Fields.get fields name with
  | none | some .null => .ok none
  | some (.bool value) => .ok (some value)
  | some _ => .error s!"outbound {ext.quote tag} field {ext.quote name} must be a boolean"

def optionalU32 (tag : String) (fields : Fields) (name : String) : Except String (Option Nat) :=
  match Fields.get fields name with
  | none | some .null => .ok none
  | some (.number value) =>
    match value.asU64.filter (· < 2 ^ 32) with
    | some value => .ok (some value)
    | none => .error s!"outbound {ext.quote tag} field {ext.quote name} must be an unsigned 32-bit integer"
  | some _ => .error s!"outbound {ext.quote tag} field {ext.quote name} must be an unsigned 32-bit integer"

def requiredStringArray (tag : String) (fields : Fields) (name : String) : Except String (List String) :=
  match Fields.get fields name with
  | some (.array values) => values.mapM (fun value =>
      match value with
      | .string value =>
        if value.isEmpty then .error s!"outbound {ext.quote tag} field {ext.quote name} must contain non-empty strings" else .ok value
      | _ => .error s!"outbound {ext.quote tag} field {ext.quote name} must contain non-empty strings")
  | _ => .error s!"outbound {ext.quote tag} field {ext.quote name} must be a string array"

def optionalIpAddress (tag : String) (fields : Fields) (name : String) (requireIpv6 : Bool) : Except String (Option String) := do
  match ← optionalNonemptyString ext tag fields name with
  | none => return none
  | some value =>
    let family := if requireIpv6 then "IPv6" else "IPv4"
    match ext.parseIp value with
    | none => throw s!"outbound {ext.quote tag} field {ext.quote name} must be a valid {family} address"
    | some address =>
      if address.isIpv4 = requireIpv6 then throw s!"outbound {ext.quote tag} field {ext.quote name} must be an {family} address"
      return some value

/-! ### Dialers -/

def DIALER_FIELD_NAMES : List String :=
  ["bind_interface","inet4_bind_address","inet6_bind_address","routing_mark","connect_timeout","bind_address_no_port"]

structure DialerProjection where
  bindInterface : Option String
  inet4BindAddress : Option String
  inet6BindAddress : Option String
  routingMark : Option Nat
  connectTimeout : Option String
  bindAddressNoPort : Bool

def DialerProjection.parse (tag : String) (fields : Fields) : Except String DialerProjection := do
  let inet4BindAddress ← optionalIpAddress ext tag fields "inet4_bind_address" false
  let inet6BindAddress ← optionalIpAddress ext tag fields "inet6_bind_address" true
  let routingMark := (← optionalU32 ext tag fields "routing_mark").filter (· ≠ 0)
  let connectTimeout ← optionalString ext tag fields "connect_timeout"
  refuse (connectTimeout = some "") s!"outbound {ext.quote tag} field \"connect_timeout\" must be a non-empty Go duration string"
  let bindInterface ← optionalNonemptyString ext tag fields "bind_interface"
  let bindAddressNoPort := (← optionalBool ext tag fields "bind_address_no_port").getD false
  return ⟨bindInterface,inet4BindAddress,inet6BindAddress,routingMark,connectTimeout,bindAddressNoPort⟩

def DialerProjection.effectiveFieldNames (d : DialerProjection) : List String :=
  (if d.bindInterface.isSome then ["bind_interface"] else []) ++
  (if d.inet4BindAddress.isSome then ["inet4_bind_address"] else []) ++
  (if d.inet6BindAddress.isSome then ["inet6_bind_address"] else []) ++
  (if d.routingMark.isSome then ["routing_mark"] else []) ++
  (if d.connectTimeout.isSome then ["connect_timeout"] else []) ++
  (if d.bindAddressNoPort then ["bind_address_no_port"] else [])

def clientConfig (address : Option String) (protocol : Value) (dialer : DialerProjection) (dnsResolver : Option String) : Value :=
  let config := Fields.insertSome [] "address" (address.map .string)
  let config := Fields.insertSome config "bind_interface" (dialer.bindInterface.map .string)
  let config := Fields.insertSome config "inet4_bind_address" (dialer.inet4BindAddress.map .string)
  let config := Fields.insertSome config "inet6_bind_address" (dialer.inet6BindAddress.map .string)
  let config := Fields.insertSome config "routing_mark" (dialer.routingMark.map (fun mark => .number (.natural mark)))
  let config := Fields.insertSome config "connect_timeout" (dialer.connectTimeout.map .string)
  let config := Fields.insertSome config "bind_address_no_port" (if dialer.bindAddressNoPort then some (.bool true) else none)
  let config := Fields.insertSome config "dns_resolver" (dnsResolver.map .string)
  .object (Fields.insert config "protocol" protocol)

/-! ### Parts of the protocols -/

inductive NetworkMode
  | both
  | tcpOnly
  | udpOnly
deriving DecidableEq

def parseNetwork (tag : String) (fields : Fields) : Except String NetworkMode := do
  let values ← match Fields.get fields "network" with
    | none | some .null => return .both
    | some (.string value) => pure [value]
    | some (.array values) => values.mapM (fun value =>
        match value with
        | .string value => .ok value
        | _ => .error s!"outbound {ext.quote tag} network entries must be strings")
    | some _ => throw s!"outbound {ext.quote tag} field \"network\" must be a string or string array"
  match values.find? (fun network => network ≠ "tcp" ∧ network ≠ "udp") with
  | some other => throw s!"outbound {ext.quote tag} has unsupported network {ext.quote other}"
  | none =>
    return match decide ("tcp" ∈ values), decide ("udp" ∈ values) with
    | true, false => .tcpOnly
    | false, true => .udpOnly
    | _, _ => .both

def parseUot (tag : String) (value : Option Value) : Except String Bool := do
  match value with
  | none | some .null => return false
  | some (.bool enabled) => return enabled
  | some (.object fields) =>
    rejectUnknownFields ext tag "udp_over_tcp" fields ["enabled","version"]
    let enabled ← match Fields.get fields "enabled" with
      | none => pure false
      | some (.bool enabled) => pure enabled
      | some _ => throw s!"outbound {ext.quote tag} udp_over_tcp.enabled must be a boolean"
    let version ← match Fields.get fields "version" with
      | none => pure 0
      | some (.number version) =>
        match version.asU64 with
        | some version => pure version
        | none => throw s!"outbound {ext.quote tag} udp_over_tcp.version must be an unsigned integer"
      | some _ => throw s!"outbound {ext.quote tag} udp_over_tcp.version must be an unsigned integer"
    if enabled && version ≠ 0 && version ≠ 2 then
      throw s!"outbound {ext.quote tag} requests UoT version {version}; shoes implements UoT v2 only"
    return enabled
  | some _ => throw s!"outbound {ext.quote tag} field \"udp_over_tcp\" must be a boolean or object"

def wrapTls (tag : String) (value : Option Value) (vision : Bool) (inner : Value) : Except String Value := do
  match value with
  | none =>
    if vision then throw s!"vless outbound {ext.quote tag} enables Vision flow without TLS"
    return inner
  | some (.object fields) =>
    rejectUnknownFields ext tag "tls" fields ["enabled","server_name","insecure"]
    let enabled := (← optionalBool ext tag fields "enabled").getD false
    let serverName ← optionalNonemptyString ext tag fields "server_name"
    let insecure := (← optionalBool ext tag fields "insecure").getD false
    if !enabled then
      if vision then throw s!"vless outbound {ext.quote tag} enables Vision flow while tls.enabled is false"
      if serverName.isSome || insecure then throw s!"outbound {ext.quote tag} configures TLS fields while tls.enabled is false"
      return inner
    let tls := Fields.of [("type",.string "tls"),("verify",.bool !insecure),("use_native_roots",.bool true),("protocol",inner)]
    let tls := Fields.insertSome tls "sni_hostname" (serverName.map .string)
    return .object (Fields.insertSome tls "vision" (if vision then some (.bool true) else none))
  | some _ => throw s!"outbound {ext.quote tag} field \"tls\" must be an object"

def compileHysteria2Tls (tag : String) (value : Option Value) : Except String Value := do
  match value with
  | some (.object fields) =>
    rejectUnknownFields ext tag "hysteria2 tls" fields ["enabled","server_name","insecure"]
    if !((← optionalBool ext tag fields "enabled").getD false) then throw s!"hysteria2 outbound {ext.quote tag} requires tls.enabled=true"
    let serverName ← optionalNonemptyString ext tag fields "server_name"
    let insecure := (← optionalBool ext tag fields "insecure").getD false
    let tls := Fields.of [("verify",.bool !insecure),("use_native_roots",.bool true)]
    return .object (Fields.insertSome tls "sni_hostname" (serverName.map .string))
  | _ => throw s!"hysteria2 outbound {ext.quote tag} requires tls.enabled=true"

def compileHysteria2Obfs (tag : String) (value : Option Value) : Except String (Option Value) := do
  match value with
  | none | some .null => return none
  | some (.object fields) =>
    rejectUnknownFields ext tag "hysteria2 obfs" fields ["type","password"]
    let kind ← requiredNonemptyString ext tag fields "type"
    if kind ≠ "salamander" then throw s!"hysteria2 outbound {ext.quote tag} has unsupported obfs type {ext.quote kind}"
    let password ← requiredNonemptyString ext tag fields "password"
    return some (.object (Fields.of [("type",.string "salamander"),("password",.string password)]))
  | some _ => throw s!"hysteria2 outbound {ext.quote tag} field \"obfs\" must be an object"

def rejectHysteria2PortHopping (tag : String) (fields : Fields) : Except String Unit :=
  let serverPortsEnabled := match Fields.get fields "server_ports" with
    | none | some .null => false
    | some (.array values) => !values.isEmpty
    | some _ => true
  let hopIntervalEnabled := match Fields.get fields "hop_interval" with
    | none | some .null => false
    | some _ => true
  if serverPortsEnabled || hopIntervalEnabled then
    .error s!"hysteria2 outbound {ext.quote tag} uses server_ports/hop_interval port hopping, which shoes does not implement"
  else .ok ()

def MBPS_TO_BYTES_PER_SECOND : Nat := 125000
def MAX_SAFE_MBPS : Nat := (2 ^ 64 - 1) / MBPS_TO_BYTES_PER_SECOND

def optionalHysteria2Mbps (tag : String) (fields : Fields) (name : String) : Except String Nat :=
  match Fields.get fields name with
  | none | some .null => .ok 0
  | some (.number value) =>
    match value.asI64.filter (0 ≤ ·) with
    | some value =>
      if value.toNat > MAX_SAFE_MBPS then
        .error s!"hysteria2 outbound {ext.quote tag} field {ext.quote name} exceeds the largest Mbps value whose Go bytes-per-second conversion does not overflow ({MAX_SAFE_MBPS})"
      else .ok value.toNat
    | none => .error s!"hysteria2 outbound {ext.quote tag} field {ext.quote name} must be a non-negative integer"
  | some _ => .error s!"hysteria2 outbound {ext.quote tag} field {ext.quote name} must be a non-negative integer"

def serverAddress (tag : String) (fields : Fields) : Except String String := do
  let server ← requiredNonemptyString ext tag fields "server"
  if server.toList.any isWhitespace then throw s!"outbound {ext.quote tag} server contains whitespace"
  let port ← match Fields.get fields "server_port" with
    | some (.number port) =>
      match port.asU64.filter (fun port => 1 ≤ port ∧ port ≤ 65535) with
      | some port => pure port
      | none => throw s!"outbound {ext.quote tag} field \"server_port\" must be an integer from 1 to 65535"
    | _ => throw s!"outbound {ext.quote tag} field \"server_port\" must be an integer from 1 to 65535"
  match ext.parseIp server with
  | some address => return if address.isIpv4 then s!"{ext.displayIp address}:{port}" else s!"[{ext.displayIp address}]:{port}"
  | none =>
    if ':' ∈ server.toList then throw s!"outbound {ext.quote tag} server {ext.quote server} is not a valid hostname or IP address"
    return s!"{server}:{port}"

/-! ### Hops -/

/-- What an outbound becomes on its own: the hop, given the DNS server that its connector
    uses, and the outbound in front of it. -/
structure Hop where
  config : Option String → Value
  detour : Option String

/-- A proxy that may stand behind another one. -/
def compileProxyChain (tag : String) (fields : Fields) (address : String) (protocol : Value) : Except String Hop := do
  let detour ← optionalNonemptyString ext tag fields "detour"
  let dialer ← DialerProjection.parse ext tag fields
  let names := String.intercalate ", " dialer.effectiveFieldNames
  refuse (detour.isSome && !dialer.effectiveFieldNames.isEmpty) s!"outbound {ext.quote tag} combines detour with local dialer field(s) {names}; sing-box bypasses the current outbound's local dialer on detour, so applying them to shoes hop zero would change behavior"
  return ⟨clientConfig (some address) protocol dialer,detour⟩

def compileDirect (tag : String) (fields : Fields) : Except String Hop := do
  rejectUnknownFields ext tag "direct" fields DIALER_FIELD_NAMES
  let dialer ← DialerProjection.parse ext tag fields
  return ⟨clientConfig none (.object [("type",.string "direct")]) dialer,none⟩

/-- Native UDP is possible only for a proxy that stands alone. -/
def refuseNativeDetour (nativeUdp : Bool) (tag : String) (fields : Fields) : Except String Unit :=
  if nativeUdp then do
    let detour ← optionalNonemptyString ext tag fields "detour"
    refuse detour.isSome s!"shadowsocks outbound {ext.quote tag} combines native UDP with detour; shoes native datagram proxying currently requires Shadowsocks to be the first and final hop (use UoT v2 or remove detour)"
  else .ok ()

def compileShadowsocks (tag : String) (fields : Fields) : Except String Hop := do
  rejectUnknownFields ext tag "shadowsocks" fields
    (["server","server_port","method","password","network","udp_over_tcp","detour"] ++ DIALER_FIELD_NAMES)
  let address ← serverAddress ext tag fields
  let method ← requiredNonemptyString ext tag fields "method"
  let password ← requiredNonemptyString ext tag fields "password"
  let network ← parseNetwork ext tag fields
  refuse (network = .udpOnly) s!"shadowsocks outbound {ext.quote tag} is UDP-only; shoes client chains cannot disable TCP on a proxy hop"
  let uot ← parseUot ext tag (Fields.get fields "udp_over_tcp")
  let udpEnabled := decide (network = .both)
  let nativeUdp := udpEnabled && !uot
  refuseNativeDetour ext nativeUdp tag fields
  let protocol := Fields.of [("type",.string "shadowsocks"),("cipher",.string method),("password",.string password),("udp_enabled",.bool udpEnabled)]
  let protocol := Fields.insertSome protocol "udp_mode" (if nativeUdp then some (.string "native") else none)
  compileProxyChain ext tag fields address (.object protocol)

def compileTrojan (tag : String) (fields : Fields) : Except String Hop := do
  rejectUnknownFields ext tag "trojan" fields (["server","server_port","password","network","tls","detour"] ++ DIALER_FIELD_NAMES)
  let network ← parseNetwork ext tag fields
  refuse (network = .udpOnly) s!"trojan outbound {ext.quote tag} is UDP-only; shoes client chains cannot disable TCP on a proxy hop"
  let address ← serverAddress ext tag fields
  let password ← requiredNonemptyString ext tag fields "password"
  let inner := .object (Fields.of [("type",.string "trojan"),("password",.string password),("udp_enabled",.bool (network = .both))])
  let protocol ← wrapTls ext tag (Fields.get fields "tls") false inner
  compileProxyChain ext tag fields address protocol

def compileVless (tag : String) (fields : Fields) : Except String Hop := do
  rejectUnknownFields ext tag "vless" fields
    (["server","server_port","uuid","flow","network","packet_encoding","tls","detour"] ++ DIALER_FIELD_NAMES)
  let network ← parseNetwork ext tag fields
  refuse (network = .udpOnly) s!"vless outbound {ext.quote tag} is UDP-only; shoes client chains cannot disable TCP on a proxy hop"
  let packetEncoding ← optionalString ext tag fields "packet_encoding"
  -- An omitted encoding is XUDP, and an explicit empty one is the framing without any.
  let encoding := packetEncoding.getD "xudp"
  refuse (encoding ∉ ["","xudp","packetaddr"]) s!"vless outbound {ext.quote tag} has unsupported packet_encoding {ext.quote encoding}"
  let flow := (← optionalString ext tag fields "flow").getD ""
  refuse (flow ≠ "" ∧ flow ≠ "xtls-rprx-vision") s!"vless outbound {ext.quote tag} has unsupported flow {ext.quote flow}"
  let address ← serverAddress ext tag fields
  let uuid ← requiredNonemptyString ext tag fields "uuid"
  let inner := Fields.of [("type",.string "vless"),("user_id",.string uuid),("udp_enabled",.bool (network = .both))]
  let inner := Fields.insertSome inner "packet_encoding"
    (if network = .both ∧ encoding ≠ "" then some (.string encoding) else none)
  let protocol ← wrapTls ext tag (Fields.get fields "tls") (flow = "xtls-rprx-vision") (.object inner)
  compileProxyChain ext tag fields address protocol

def compileHysteria2 (tag : String) (fields : Fields) : Except String Hop := do
  rejectUnknownFields ext tag "hysteria2" fields
    (["server","server_port","server_ports","hop_interval","up_mbps","down_mbps","obfs","password","network","tls","brutal_debug","detour"] ++
      DIALER_FIELD_NAMES)
  let detour ← optionalNonemptyString ext tag fields "detour"
  refuse detour.isSome s!"hysteria2 outbound {ext.quote tag} uses detour; shoes Hysteria2 owns its UDP/QUIC socket and must be the first client-chain hop"
  rejectHysteria2PortHopping ext tag fields
  let brutalDebug ← optionalBool ext tag fields "brutal_debug"
  refuse (brutalDebug.getD false) s!"hysteria2 outbound {ext.quote tag} enables brutal_debug, which shoes does not expose"
  let connectTimeout ← optionalNonemptyString ext tag fields "connect_timeout"
  refuse connectTimeout.isSome s!"hysteria2 outbound {ext.quote tag} configures connect_timeout; shoes does not yet apply that timeout to the underlying UDP dial without changing Hysteria2's separate 15-second QUIC/authentication budget"
  let network ← parseNetwork ext tag fields
  refuse (network = .udpOnly) s!"hysteria2 outbound {ext.quote tag} is UDP-only; shoes client chains cannot disable TCP on a proxy hop"
  let address ← serverAddress ext tag fields
  let password := (← optionalString ext tag fields "password").getD ""
  let upMbps ← optionalHysteria2Mbps ext tag fields "up_mbps"
  let downMbps ← optionalHysteria2Mbps ext tag fields "down_mbps"
  let obfs ← compileHysteria2Obfs ext tag (Fields.get fields "obfs")
  let quicSettings ← compileHysteria2Tls ext tag (Fields.get fields "tls")
  let dialer ← DialerProjection.parse ext tag fields
  refuse dialer.bindAddressNoPort s!"hysteria2 outbound {ext.quote tag} enables bind_address_no_port, which shoes has not implemented on the Hysteria2 UDP socket"
  let protocol := Fields.of [("type",.string "hysteria2"),("password",.string password),("udp_enabled",.bool (network = .both)),
    ("up_mbps",.number (.natural upMbps)),("down_mbps",.number (.natural downMbps))]
  let protocol := Fields.insertSome protocol "obfs" obfs
  return ⟨fun dns => ((clientConfig (some address) (.object protocol) dialer dns).set "transport" (.string "quic")).set "quic_settings" quicSettings,none⟩

/-- The local options of an outbound that is neither a selector nor a URLTest. -/
def compileHop (kind : OutboundKind) (tag : String) (fields : Fields) : Except String Hop :=
  match kind with
  | .direct => compileDirect ext tag fields
  | .shadowsocks => compileShadowsocks ext tag fields
  | .trojan => compileTrojan ext tag fields
  | .vless => compileVless ext tag fields
  | .hysteria2 => compileHysteria2 ext tag fields
  | .selector => .error s!"outbound {ext.quote tag} has unsupported type {ext.quote kind.name}"
  | .urltest => .error s!"outbound {ext.quote tag} uses urltest; shoes has no equivalent active health-check and latency-selection client"

/-! ### Selectors -/

/-- The members of a selector and the one that it stands for. -/
structure Selection where
  members : List String
  selected : String

/-- The options of a selector as the adapter reads them. -/
def compileSelectorFields (tag : String) (fields : Fields) : Except String Selection := do
  rejectUnknownFields ext tag "selector" fields ["outbounds","default","interrupt_exist_connections"]
  let _ ← optionalBool ext tag fields "interrupt_exist_connections"
  let members ← requiredStringArray ext tag fields "outbounds"
  match members with
  | [] => .error s!"selector outbound {ext.quote tag} requires at least one member"
  | first :: rest => do
    match ← optionalNonemptyString ext tag fields "default" with
    | some default =>
      if default ∈ first :: rest then .ok ⟨first :: rest,default⟩
      else .error s!"selector outbound {ext.quote tag} default {ext.quote default} is not a member"
    | none => .ok ⟨first :: rest,first⟩

end NodeAgent.OutboundAdapter
