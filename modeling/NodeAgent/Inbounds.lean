import NodeAgent.Runtime
import NodeAgent.RouteRules

/-!
Inbounds of nodes. Every node names a provider, whose configuration is decoded, checked and
compiled into one listener with its users.
-/
namespace NodeAgent.Inbounds
open NodeAgent.Api NodeAgent.Json NodeAgent.OutboundAdapter NodeAgent.Outbounds NodeAgent.RouteRules
open NodeAgent.Credential (Bytes)
open NodeAgent.EngineTable (InboundSpec)
open NodeAgent.Runtime (CompiledInbound)

def VLESS_REALITY_VISION_ID : String := "vless-reality-vision@1"
def HYSTERIA2_SALAMANDER_ID : String := "hysteria2-salamander@1"
def CURRENT_CONFIG_VERSION : Nat := 1
def VLESS_FLOW_REALITY_VISION : String := "xtls-rprx-vision"
def DEFAULT_INBOUND_LISTEN : String := "::"

structure UserCredential where
  userId : String
  name : String
  credential : String
  status : String
  uploadSpeedLimitBps : UInt64
  downloadSpeedLimitBps : UInt64

structure NodeInstance where
  nodeId : String
  providerId : String
  providerConfigVersion : Nat
  providerConfig : Bytes
  users : List UserCredential

structure VlessRealityVisionConfig where
  tag : String
  listen : String
  listenPort : Nat
  flow : String
  tcpFastOpen : Bool
  sniff : Bool
  tlsEnabled : Bool
  tlsServerName : String
  realityEnabled : Bool
  handshakeServer : String
  handshakeServerPort : Nat
  privateKey : String
  shortId : List String

structure Hysteria2MasqueradeConfig where
  kind : String
  url : String
  rewriteHost : Bool
  content : String

structure Hysteria2SalamanderConfig where
  tag : String
  listen : String
  listenPort : Nat
  portHopping : String
  upMbps : Int
  downMbps : Int
  ignoreClientBandwidth : Bool
  obfsKind : String
  obfsPassword : String
  masquerade : Option Hysteria2MasqueradeConfig
  certificatePem : String
  privateKeyPem : String

/-- Decoders of provider configurations and keys. -/
structure ProviderExternals where
  /-- The JSON decoder for the configuration of the VLESS provider. -/
  parseVless : Bytes → Except String VlessRealityVisionConfig
  /-- The JSON decoder for the configuration of the Hysteria2 provider. -/
  parseHysteria2 : Bytes → Except String Hysteria2SalamanderConfig
  /-- The base64url text stands for 32 bytes. -/
  decodesKey : String → Bool

variable (ext : Externals) (prov : ProviderExternals)

def defaulted (value fallback : String) : String := if value.isEmpty then fallback else value

/-- IPv6 addresses are put in brackets. -/
def socketAddress (host : String) (port : Nat) : String :=
  if host.startsWith "[" || host.toList.count ':' ≤ 1 then s!"{host}:{port}"
  else "[" ++ host ++ "]:" ++ toString port

/-! ### Users -/

def activeUsers (users : List UserCredential) : List UserCredential := users.filter (fun user => user.status ≠ "disabled")

def reportedId (user : UserCredential) : String := if user.userId.isEmpty then user.name else user.userId

def limit (bps : UInt64) : Option UInt64 := if bps = 0 then none else some bps

def userSpec (protocol : String) (user : UserCredential) : UserSpec where
  id := if (reportedId user).isEmpty then none else some (reportedId user)
  uuid := if protocol = "vless" then some user.credential else none
  password := if protocol = "hysteria2" then some user.credential else none
  enabled := true
  maxConns := none
  uploadLimitBps := limit user.uploadSpeedLimitBps
  downloadLimitBps := limit user.downloadSpeedLimitBps

/-- Users one after another; nobody is listed twice under one identity. -/
def addUsers (nodeId protocol : String) (identities : List String) : List UserCredential → Except String (List UserSpec)
  | [] => .ok []
  | user :: rest =>
    let identity := if (reportedId user).isEmpty && protocol = "vless" then user.credential else reportedId user
    if user.credential.isEmpty then .error s!"node {nodeId} user {user.userId} credential is required"
    else if identity.isEmpty then .error s!"node {nodeId} hysteria2 user identity is required"
    else if identity ∈ identities then .error s!"node {nodeId} lists user {ext.quote identity} twice"
    else do
      let others ← addUsers nodeId protocol (identity :: identities) rest
      return userSpec protocol user :: others

def compileUsers (node : NodeInstance) (protocol : String) : Except String (List UserSpec) :=
  addUsers ext node.nodeId protocol [] (activeUsers node.users)

/-! ### Providers -/

def isHexDigit (c : Char) : Bool := c.isDigit || ('a' ≤ c && c ≤ 'f') || ('A' ≤ c && c ≤ 'F')

def checkShortIds (nodeId : String) : List (String × Nat) → Except String Unit
  | [] => .ok ()
  | (shortId,index) :: rest =>
    if shortId.utf8ByteSize > 16 then .error s!"node {nodeId} vless reality short_id[{index}] must contain at most 16 hex characters"
    else if shortId.utf8ByteSize % 2 ≠ 0 || !shortId.toList.all isHexDigit then
      .error s!"node {nodeId} vless reality short_id[{index}] must contain an even number of hex characters"
    else checkShortIds nodeId rest

def decodeVless (node : NodeInstance) : Except String VlessRealityVisionConfig :=
  match prov.parseVless node.providerConfig with
  | .ok cfg => .ok cfg
  | .error error => .error s!"node {node.nodeId} decode vless provider config: {error}"

def vlessConfig (cfg : VlessRealityVisionConfig) : Value :=
  let target := Fields.of [("private_key",.string cfg.privateKey),("short_ids",.array (strings cfg.shortId)),
    ("dest",.string (socketAddress cfg.handshakeServer cfg.handshakeServerPort)),("vision",.bool (cfg.flow = VLESS_FLOW_REALITY_VISION)),
    ("protocol",.object (Fields.of [("type",.string "vless"),("udp_enabled",.bool true)]))]
  .object (Fields.of [("address",.string (socketAddress (defaulted cfg.listen DEFAULT_INBOUND_LISTEN) cfg.listenPort)),("sniff",.bool cfg.sniff),
    ("protocol",.object (Fields.of [("type",.string "tls"),("reality_targets",.object [(cfg.tlsServerName,.object target)])]))])

def compileVless (node : NodeInstance) : Except String (CompiledInbound Value) := do
  let cfg ← decodeVless prov node
  refuse (cfg.listenPort = 0 || cfg.privateKey.isEmpty || cfg.shortId.isEmpty) s!"node {node.nodeId} vless provider config is incomplete"
  refuse (!cfg.tlsEnabled || !cfg.realityEnabled)
    s!"node {node.nodeId} vless provider requires tls.enabled and tls.reality.enabled: tls={cfg.tlsEnabled} reality={cfg.realityEnabled}"
  refuse (cfg.handshakeServer.isEmpty || cfg.handshakeServerPort = 0)
    s!"node {node.nodeId} vless provider requires a reality handshake server and port"
  refuse (blank cfg.tlsServerName) s!"node {node.nodeId} vless provider requires tls.server_name"
  refuse (cfg.privateKey.utf8ByteSize ≠ 43 || !prov.decodesKey cfg.privateKey)
    s!"node {node.nodeId} vless reality private_key must be a base64url-encoded 32-byte key"
  checkShortIds node.nodeId cfg.shortId.zipIdx
  refuse (!cfg.flow.isEmpty && cfg.flow ≠ VLESS_FLOW_REALITY_VISION) s!"node {node.nodeId} vless provider has unsupported flow {ext.quote cfg.flow}"
  let users ← compileUsers ext node "vless"
  refuse cfg.tcpFastOpen s!"node {node.nodeId} enables tcp_fast_open, which is not configurable on a shoes inbound"
  return ⟨node.nodeId,"vless",⟨defaulted cfg.tag node.nodeId,vlessConfig cfg,some users⟩⟩

def checkObfs (nodeId : String) (cfg : Hysteria2SalamanderConfig) : Except String Unit :=
  if cfg.obfsKind = "salamander" then
    if cfg.obfsPassword.isEmpty then .error s!"node {nodeId} hysteria2 salamander password is required"
    else if cfg.masquerade.isSome then .error s!"node {nodeId} hysteria2 masquerade requires obfs to be disabled"
    else .ok ()
  else if cfg.obfsKind ∈ ["","none"] then
    if !cfg.obfsPassword.isEmpty then .error s!"node {nodeId} hysteria2 obfs password requires salamander" else .ok ()
  else .error s!"node {nodeId} has unsupported hysteria2 obfs type {ext.quote cfg.obfsKind}"

def masqueradeValue (nodeId : String) (masquerade : Hysteria2MasqueradeConfig) : Except String Value :=
  if masquerade.kind = "proxy" then
    if masquerade.url.isEmpty then .error s!"node {nodeId} hysteria2 proxy masquerade config is incomplete"
    else .ok (.object (Fields.of [("type",.string "proxy"),("url",.string masquerade.url),("rewrite_host",.bool masquerade.rewriteHost),
      ("use_native_roots",.bool true)]))
  else if masquerade.kind = "string" then
    if masquerade.content.isEmpty then .error s!"node {nodeId} hysteria2 fixed response masquerade content is required"
    else .ok (.object (Fields.of [("type",.string "string"),("content",.string masquerade.content),
      ("content_type",.string "text/html; charset=utf-8")]))
  else .error s!"node {nodeId} has unsupported hysteria2 masquerade type {ext.quote masquerade.kind}"

def compileMasquerade (nodeId : String) : Option Hysteria2MasqueradeConfig → Except String (Option Value)
  | none => .ok none
  | some masquerade => (masqueradeValue ext nodeId masquerade).map some

def hysteria2Config (cfg : Hysteria2SalamanderConfig) (masquerade : Option Value) : Value :=
  let protocol := Fields.of [("type",.string "hysteria2"),("udp_enabled",.bool true),("up_mbps",.number (.natural cfg.upMbps.toNat)),
    ("down_mbps",.number (.natural cfg.downMbps.toNat)),("ignore_client_bandwidth",.bool cfg.ignoreClientBandwidth)]
  let obfs := if cfg.obfsKind = "salamander" then
      some (.object (Fields.of [("type",.string "salamander"),("password",.string cfg.obfsPassword)]))
    else none
  let protocol := Fields.insertSome (Fields.insertSome protocol "obfs" obfs) "masquerade" masquerade
  .object (Fields.of [("address",.string (socketAddress (defaulted cfg.listen DEFAULT_INBOUND_LISTEN) cfg.listenPort)),("transport",.string "quic"),
    ("quic_settings",.object (Fields.of [("cert",.string cfg.certificatePem),("key",.string cfg.privateKeyPem),("alpn_protocols",.string "h3")])),
    ("protocol",.object protocol),("sniff",.bool true)])

/-- The listener and a warning about what it does not represent. -/
def compileHysteria2 (node : NodeInstance) : Except String (CompiledInbound Value × List String) := do
  let cfg ← match prov.parseHysteria2 node.providerConfig with
    | .ok cfg => .ok cfg
    | .error error => .error s!"node {node.nodeId} decode hysteria2 provider config: {error}"
  refuse (cfg.listenPort = 0 || cfg.certificatePem.isEmpty || cfg.privateKeyPem.isEmpty)
    s!"node {node.nodeId} hysteria2 provider config is incomplete"
  refuse (cfg.upMbps < 0 || cfg.downMbps < 0)
    s!"node {node.nodeId} hysteria2 bandwidth must not be negative: up_mbps={cfg.upMbps} down_mbps={cfg.downMbps}"
  checkObfs ext node.nodeId cfg
  let masquerade ← compileMasquerade ext node.nodeId cfg.masquerade
  let users ← compileUsers ext node "hysteria2"
  let warning := s!"node {node.nodeId} port_hopping {ext.quote cfg.portHopping} is retained for the nftables phase and is not represented by the shoes listener"
  return (⟨node.nodeId,"hysteria2",⟨defaulted cfg.tag node.nodeId,hysteria2Config cfg masquerade,some users⟩⟩,
    if cfg.portHopping.isEmpty then [] else [warning])

/-- The inbound of a node and the warnings about it. -/
def compileInbound (node : NodeInstance) : Except String (CompiledInbound Value × List String) :=
  if blank node.nodeId then .error "node_id is required"
  else if node.providerId ∈ [VLESS_REALITY_VISION_ID,HYSTERIA2_SALAMANDER_ID] ∧ node.providerConfigVersion ≠ CURRENT_CONFIG_VERSION then
    .error s!"node {node.nodeId} provider {node.providerId} config version {node.providerConfigVersion} is unsupported"
  else if node.providerId = VLESS_REALITY_VISION_ID then (compileVless ext prov node).map (fun inbound => (inbound,[]))
  else if node.providerId = HYSTERIA2_SALAMANDER_ID then compileHysteria2 ext prov node
  else .error s!"node {node.nodeId} has unsupported provider {ext.quote node.providerId}"

def inboundProtocolSniffEnabled (node : NodeInstance) : Except String Bool :=
  if node.providerId = VLESS_REALITY_VISION_ID then (decodeVless prov node).map VlessRealityVisionConfig.sniff
  else .ok (node.providerId = HYSTERIA2_SALAMANDER_ID)

end NodeAgent.Inbounds
