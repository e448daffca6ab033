import NodeAgent.NftRules

/-!
What the agent sees of the kernel's tables and how it judges it: the markers that prove
whose a table is, the inspection of a snapshot, the batch that replaces the tables, and the
search for rules of others that take the same ports.
-/
namespace NodeAgent.NftTables
open NodeAgent.TopologyDigest NodeAgent.ForwardingPlans NodeAgent.NftRules
open NodeAgent.Credential (Bytes)

/-! ### Errors -/

/-- An error of the operating system, with its number where it has one. -/
structure IoError where
  rawOsError : Option Int
  text : String
deriving DecidableEq

inductive BackendError
  | operation (message : String)
  | wrapped (message : String) (source : IoError)
  | capability (platform capability reason : String) (source : IoError)
  | stateUncertain (message : String)
deriving DecidableEq

def BackendError.display : BackendError → String
  | .operation message => message
  | .wrapped message source => s!"{message}: {source.text}"
  | .capability platform feature reason source =>
    let reason := if reason.isEmpty then source.text else reason
    "port hopping forwarding capability is unavailable" ++ (if platform.isEmpty then "" else s!" on {platform}") ++
      (if feature.isEmpty then "" else s!": {feature}") ++ (if reason.isEmpty then "" else s!" ({reason})")
  | .stateUncertain message => message

/-- EOPNOTSUPP, EAFNOSUPPORT, EPROTONOSUPPORT, ENOSYS, ENOENT and ENODEV. -/
def isCapabilityErrno (error : IoError) : Bool :=
  error.rawOsError = some 95 || error.rawOsError = some 97 || error.rawOsError = some 93 || error.rawOsError = some 38 ||
    error.rawOsError = some 2 || error.rawOsError = some 19

/-- EPERM and EACCES. -/
def isPermissionErrno (error : IoError) : Bool := error.rawOsError = some 1 || error.rawOsError = some 13

/-! ### Families and snapshots -/

inductive Family
  | inet
  | ipv4
  | ipv6
deriving DecidableEq

def Family.all : List Family := [.inet,.ipv4,.ipv6]

def Family.display : Family → String
  | .inet => "inet"
  | .ipv4 => "ip"
  | .ipv6 => "ip6"

inductive FamilyMode
  | unknown
  | inet
  | split
deriving DecidableEq

def FamilyMode.families : FamilyMode → List Family
  | .unknown => []
  | .inet => [.inet]
  | .split => [.ipv4,.ipv6]

def FamilyMode.display : FamilyMode → String
  | .unknown => "unknown"
  | .inet => "inet"
  | .split => "ip+ip6"

structure TableState where
  family : Family
  name : String
  handle : Nat
  userData : Bytes
deriving DecidableEq

structure ChainState where
  family : Family
  table : String
  name : String
  chainType : Option String
  hook : Option UInt32
  priority : Option Int
  policy : Option UInt32
  userData : Bytes
deriving DecidableEq

structure RuleState where
  family : Family
  table : String
  chain : String
  expressions : List ListAttribute
  userData : Bytes
deriving DecidableEq

structure KernelSnapshot where
  tables : List TableState
  chains : List ChainState
  rules : List RuleState
  /-- The families that could not be listed, with the number of the error. -/
  unavailable : Family → Option Int

def CHAIN_NAME : String := "prerouting"
def RULE_MARKER_MAGIC : Bytes := asBytes "ACPHY2" ++ [1]
def TABLE_MARKER_MAGIC : Bytes := asBytes "ACPHY2T" ++ [1]
def CHAIN_MARKER_MAGIC : Bytes := asBytes "ACPHY2C" ++ [1]
def MARKER_PROTOCOL : UInt8 := 1
def MAX_NODE_ID_BYTES : Nat := 128
def NF_ACCEPT : UInt32 := 1
def NF_INET_PRE_ROUTING : UInt32 := 0
def NF_IP_PRI_NAT_DST : Int := -100

/-! ### Markers -/

structure ContainerMarker where
  owner : Bytes
  digest : String

def hexNibble (c : Char) : Option UInt8 :=
  if '0' ≤ c ∧ c ≤ '9' then some (UInt8.ofNat (c.toNat - '0'.toNat))
  else if 'a' ≤ c ∧ c ≤ 'f' then some (UInt8.ofNat (c.toNat - 'a'.toNat + 10))
  else if 'A' ≤ c ∧ c ≤ 'F' then some (UInt8.ofNat (c.toNat - 'A'.toNat + 10))
  else none

def invalidDigest (digest : String) : BackendError := .operation s!"invalid plan digest {digest.quote}"

def decodePairs (digest : String) : List Char → Except BackendError Bytes
  | high :: low :: rest =>
    match hexNibble high,hexNibble low with
    | some high,some low => do return (high <<< 4 ||| low) :: (← decodePairs digest rest)
    | _,_ => .error (invalidDigest digest)
  | [_] => .error (invalidDigest digest)
  | [] => .ok []

def decodeDigest (digest : String) : Except BackendError Bytes :=
  if digest.utf8ByteSize ≠ 64 then .error (invalidDigest digest) else decodePairs digest digest.toList

def encodeContainerMarker (magic owner : Bytes) (digest : String) : Except BackendError Bytes := do
  return magic ++ owner ++ (← decodeDigest digest)

/-- Tables without user data may be adopted: their rules prove the ownership. -/
def decodeOptionalContainerMarker (data magic : Bytes) : Except String (Option ContainerMarker) :=
  if data.isEmpty then .ok none
  else if data.length ≠ magic.length + 6 + 32 || !magic.isPrefixOf data then .error "container ownership marker is missing or invalid"
  else .ok (some ⟨(data.drop magic.length).take 6,hexEncode (data.drop (magic.length + 6))⟩)

structure RuleMarker where
  owner : Bytes
  digest : String
  nodeId : String
  listenPort : UInt16
  ports : PortRange
deriving DecidableEq

def encodeRuleMarker (owner : Bytes) (digest : String) (redirect : Redirect) (ports : PortRange) : Except BackendError Bytes := do
  let node := asBytes redirect.nodeId
  if node.isEmpty then throw (.operation "encode nftables marker: node_id is empty")
  if node.length > MAX_NODE_ID_BYTES then
    throw (.operation s!"encode nftables marker: node_id is {node.length} bytes, maximum is {MAX_NODE_ID_BYTES}")
  if redirect.listenPort = 0 ∨ ports.start = 0 ∨ ports.start > ports.stop then
    throw (.operation "encode nftables marker: invalid redirect metadata")
  let digest ← decodeDigest digest
  return RULE_MARKER_MAGIC ++ owner ++ digest ++ [MARKER_PROTOCOL] ++ beBytes16 redirect.listenPort ++ beBytes16 ports.start ++
    beBytes16 ports.stop ++ [UInt8.ofNat node.length] ++ node

/-- The bytes of a marker after its magic, owner and digest. -/
def decodeRuleFields (owner : Bytes) (digest : String) : Bytes → Except String RuleMarker
  | protocol :: a :: b :: c :: d :: e :: f :: nodeLen :: node =>
    if protocol ≠ MARKER_PROTOCOL then .error "unknown protocol marker"
    else if nodeLen = 0 ∨ nodeLen.toNat > MAX_NODE_ID_BYTES ∨ node.length ≠ nodeLen.toNat then
      .error "invalid node_id length in ownership marker"
    else
      match String.fromUTF8? ⟨node.toArray⟩ with
      | none => .error "invalid UTF-8 node_id in ownership marker"
      | some nodeId =>
        let listenPort := fromBeBytes16 a b
        let start := fromBeBytes16 c d
        let stop := fromBeBytes16 e f
        if listenPort = 0 ∨ start = 0 ∨ start > stop then .error "invalid redirect values in ownership marker"
        else .ok ⟨owner,digest,nodeId,listenPort,⟨start,stop⟩⟩
  | _ => .error "ownership marker is missing or invalid"

def decodeRuleMarker (data : Bytes) : Except String RuleMarker :=
  let fixed := RULE_MARKER_MAGIC.length + 6 + 32 + 1 + 2 + 2 + 2 + 1
  if data.length < fixed || !RULE_MARKER_MAGIC.isPrefixOf data then .error "ownership marker is missing or invalid"
  else
    let fields := data.drop RULE_MARKER_MAGIC.length
    decodeRuleFields (fields.take 6) (hexEncode ((fields.drop 6).take 32)) (fields.drop 38)

/-! ### Inspection -/

structure InspectedState where
  raw : KernelSnapshot
  tables : List TableState
  exists_ : Bool
  mode : FamilyMode
  complete : Bool
  digest : String
  ruleCount : Nat

def InspectedState.familyUnavailable (state : InspectedState) (family : Family) : Bool := (state.raw.unavailable family).isSome

def InspectedState.unavailableFor (state : InspectedState) (mode : FamilyMode) : Bool :=
  (if mode = .unknown then Family.all else mode.families).any state.familyUnavailable

def InspectedState.matches (state : InspectedState) (mode : FamilyMode) (digest : String) (ruleCount : Nat) : Bool :=
  if ruleCount = 0 then !state.exists_
  else state.exists_ && state.complete && state.mode = mode && state.digest = digest && state.ruleCount = ruleCount

def isManagedChain (chain : ChainState) : Bool :=
  chain.name = CHAIN_NAME && chain.chainType = some "nat" && chain.hook = some NF_INET_PRE_ROUTING &&
    chain.priority = some NF_IP_PRI_NAT_DST && chain.policy = some NF_ACCEPT

def notOwned (label : String) : BackendError := .operation s!"nftables table {label} is not owned by this node-agent"

/-- A redirect of a node takes another range, in the place that the node's identifier has. -/
def addRange (marker : RuleMarker) : List Redirect → List Redirect
  | [] => [⟨marker.nodeId,marker.listenPort,[marker.ports]⟩]
  | redirect :: rest =>
    if marker.nodeId < redirect.nodeId then ⟨marker.nodeId,marker.listenPort,[marker.ports]⟩ :: redirect :: rest
    else if marker.nodeId = redirect.nodeId then { redirect with ports := redirect.ports ++ [marker.ports] } :: rest
    else redirect :: addRange marker rest

/-- The digest of the rules so far, and their redirects in the order of the nodes. -/
structure OwnedRules where
  digest : Option String
  redirects : List Redirect

variable (netlink : Netlink)

def inspectRule (label : String) (owner : Bytes) (found : OwnedRules) (rule : RuleState) : Except BackendError OwnedRules := do
  let marker ← match decodeRuleMarker rule.userData with
    | .ok marker => pure marker
    | .error error => throw (.operation s!"nftables table {label} is not owned by this node-agent: {error}")
  if marker.owner ≠ owner then throw (notOwned label)
  if found.digest.any (fun expected => expected ≠ marker.digest) then
    throw (.operation s!"nftables table {label} contains inconsistent ownership markers")
  let strange := BackendError.operation s!"nftables table {label} contains a managed rule that does not match its ownership metadata"
  match managedRedirectRule netlink rule.expressions with
  | none => throw strange
  | some (source,target) =>
    if source ≠ marker.ports ∨ target ≠ marker.listenPort then throw strange
    if (found.redirects.find? (fun redirect => redirect.nodeId = marker.nodeId)).any (fun redirect => redirect.listenPort ≠ marker.listenPort) then
      throw (.operation s!"nftables table {label} contains inconsistent listen ports for node {marker.nodeId}")
    return ⟨some (found.digest.getD marker.digest),addRange marker found.redirects⟩

variable (sha256 : Bytes → Bytes)

def inspectOwnedRules (label : String) (owner : Bytes) (rules : List RuleState) : Except BackendError String := do
  let found ← rules.foldlM (inspectRule netlink label owner) ⟨none,[]⟩
  let plan : Plan := ⟨found.redirects.map (fun redirect =>
    { redirect with ports := redirect.ports.mergeSort (fun left right => (left.cmp right).isLE) })⟩
  let digest := found.digest.getD ""
  if plan.digest sha256 ≠ digest then
    throw (.operation s!"nftables table {label} ownership metadata does not match its plan digest")
  return digest

/-- The marker of a table or chain, which must be this owner's where there is one. -/
def containerMarker (label : String) (owner data magic : Bytes) : Except BackendError (Option ContainerMarker) := do
  let marker ← match decodeOptionalContainerMarker data magic with
    | .ok marker => pure marker
    | .error error => throw (.operation s!"nftables table {label} is not owned by this node-agent: {error}")
  if marker.any (fun marker => marker.owner ≠ owner) then throw (notOwned label)
  return marker

def inspectManagedTable (tableName : String) (owner : Bytes) (raw : KernelSnapshot) (table : TableState) :
    Except BackendError (String × Nat) := do
  let label := s!"{table.family.display}/{tableName}"
  let tableMarker ← containerMarker label owner table.userData TABLE_MARKER_MAGIC
  let chains := raw.chains.filter (fun chain => chain.family = table.family && chain.table = tableName)
  match chains with
  | [chain] =>
    if chain.name ≠ CHAIN_NAME then
      throw (.operation s!"nftables table {label} is not owned by node-agent: unexpected chain {chain.name}")
    if !isManagedChain chain then
      throw (.operation s!"nftables table {label} is not owned by node-agent: managed chain shape is invalid")
    let chainMarker ← containerMarker label owner chain.userData CHAIN_MARKER_MAGIC
    let rules := raw.rules.filter (fun rule => rule.family = table.family && rule.table = tableName && rule.chain = CHAIN_NAME)
    if rules.isEmpty then
      throw (.operation s!"nftables table {label} is not owned by node-agent: ownership marker is missing")
    let digest ← inspectOwnedRules netlink sha256 label owner rules
    if tableMarker.any (fun marker => marker.digest ≠ digest) || chainMarker.any (fun marker => marker.digest ≠ digest) then
      throw (.operation s!"nftables table {label} ownership metadata contains an inconsistent container marker")
    return (digest,rules.length)
  | chains => throw (.operation s!"nftables table {label} is not owned by node-agent: expected one managed chain, found {chains.length}")

/-- The managed tables of a snapshot, one of each family at most. -/
def managedTables (tableName : String) (raw : KernelSnapshot) : List Family → Except BackendError (List TableState)
  | [] => .ok []
  | family :: rest =>
    match raw.tables.filter (fun table => table.family = family && table.name = tableName) with
    | [] => managedTables tableName raw rest
    | [table] => do return table :: (← managedTables tableName raw rest)
    | _ => .error (.operation s!"nftables table {tableName} is ambiguous: duplicate {family.display} tables")

/-- The mode that tables of these families make up, and whether no family of it is missing. -/
def familiesMode (tables : List TableState) : FamilyMode × Bool :=
  let has (family : Family) := tables.any (fun table => table.family = family)
  match has .inet,has .ipv4,has .ipv6 with
  | true,false,false => (.inet,true)
  | false,true,true => (.split,true)
  | false,true,false | false,false,true => (.split,false)
  | _,_,_ => (.unknown,false)

def inspectSnapshot (tableName : String) (owner : Bytes) (raw : KernelSnapshot) : Except BackendError InspectedState := do
  let tables ← managedTables tableName raw Family.all
  if tables.isEmpty then return ⟨raw,tables,false,.unknown,false,"",0⟩
  let inspected ← tables.mapM (inspectManagedTable netlink sha256 tableName owner raw)
  let first := inspected.headD ("",0)
  let consistent := inspected.all (fun table => table = first)
  return ⟨raw,tables,true,(familiesMode tables).1,(familiesMode tables).2 && consistent,if consistent then first.1 else "",if consistent then first.2 else 0⟩

/-! ### Batches -/

structure DeleteTable where
  family : Family
  name : String
  handle : Nat

structure DesiredRule where
  expressions : List ListAttribute
  marker : Bytes

structure DesiredTable where
  family : Family
  name : String
  tableMarker : Bytes
  chainMarker : Bytes
  rules : List DesiredRule

structure Batch where
  delete : List DeleteTable
  create : List DesiredTable

def desiredRules (owner : Bytes) (digest : String) (desired : Plan) : Except BackendError (List DesiredRule) :=
  (desired.redirects.flatMap (fun redirect => redirect.ports.map (fun ports => (redirect,ports)))).mapM (fun (redirect,ports) => do
    return ⟨redirectExpressions netlink ports redirect.listenPort,← encodeRuleMarker owner digest redirect ports⟩)

def buildBatch (tableName : String) (owner : Bytes) (current : InspectedState) (desired : Plan) (digest : String) (mode : FamilyMode) :
    Except BackendError Batch := do
  let delete := current.tables.map (fun table => ⟨table.family,table.name,table.handle⟩)
  if desired.isEmpty then return ⟨delete,[]⟩
  if mode.families.isEmpty then throw (.operation s!"select nftables family for port hopping: mode is {mode.display}")
  let tableMarker ← encodeContainerMarker TABLE_MARKER_MAGIC owner digest
  let chainMarker ← encodeContainerMarker CHAIN_MARKER_MAGIC owner digest
  let create ← mode.families.mapM (fun family => do
    return ⟨family,tableName,tableMarker,chainMarker,← desiredRules netlink owner digest desired⟩)
  return ⟨delete,create⟩

/-! ### Rules of others -/

/-- The registers that a rule loads the protocol and the destination port into, and whether it
    redirects. -/
structure Loads where
  l4Registers : List Register
  portRegisters : List Register
  hasRedirect : Bool

def loadsOf (found : Loads) : Expressions → Loads
  | .metaLoad attributes =>
    let key := attributes.any (fun attr => attr = .key .l4Proto)
    let register := attributes.foldl (fun register attr => match attr with
      | Meta.destinationRegister value => some value
      | _ => register) none
    match key,register with
    | true,some register => { found with l4Registers := register :: found.l4Registers }
    | _,_ => found
  | .payload attributes =>
    let (register,base,offset,len) := attributes.foldl (fun (register,base,offset,len) attr => match attr with
      | Payload.destinationRegister value => (some value,base,offset,len)
      | .base value => (register,some value,offset,len)
      | .offset value => (register,base,some value,len)
      | .len value => (register,base,offset,some value)
      | .other => (register,base,offset,len)) ((none : Option Register),(none : Option UInt32),(none : Option UInt32),(none : Option UInt32))
    match register with
    | some register =>
      if base = some PAYLOAD_BASE_TRANSPORT_HEADER ∧ offset = some 2 ∧ len = some 2 then
        { found with portRegisters := register :: found.portRegisters }
      else found
    | none => found
  | .other expressionType attributes =>
    if expressionType = "redir" then { found with hasRedirect := true }
    else if expressionType = "nat" then
      { found with hasRedirect := attributes.any (fun attr => nlaKind attr = 1 && readBeU32 attr.value = some 1) }
    else found
  | _ => found

/-- Whether the rule is for UDP, and the last ports that it compares with. -/
def comparesOf (loads : Loads) : Bool × Option PortRange → Expressions → Bool × Option PortRange
  | (udp,ports), .cmp attributes =>
    let expression := Expressions.cmp attributes
    let udp := udp || loads.l4Registers.any (fun register => cmpEqualData expression register = some [IPPROTO_UDP])
    let ports := loads.portRegisters.foldl (fun ports register => match cmpEqualData expression register with
      | some [high,low] => if fromBeBytes16 high low ≠ 0 then some ⟨fromBeBytes16 high low,fromBeBytes16 high low⟩ else ports
      | _ => ports) ports
    (udp,ports)
  | (udp,ports), .other expressionType attributes =>
    if expressionType ≠ "range" then (udp,ports)
    else
      match parseRangeAttributes netlink attributes with
      | some (register,op,[a,b],[c,d]) =>
        if op = .equal ∧ register ∈ loads.portRegisters ∧ fromBeBytes16 a b ≠ 0 ∧ fromBeBytes16 a b ≤ fromBeBytes16 c d then
          (udp,some ⟨fromBeBytes16 a b,fromBeBytes16 c d⟩)
        else (udp,ports)
      | _ => (udp,ports)
  | found, _ => found

def directUdpRedirectRange (expressions : List ListAttribute) : Option PortRange :=
  let data := expressions.filterMap expressionData
  let loads := data.foldl loadsOf ⟨[],[],false⟩
  if !loads.hasRedirect then none
  else
    let (udp,ports) := data.foldl (comparesOf netlink loads) (false,none)
    if udp then ports else none

def jumpTarget : Option Expressions → Option String
  | some (.immediate attributes) =>
    let (verdictRegister,verdict,chain) := attributes.foldl (fun (verdictRegister,verdict,chain) attr => match attr with
      | Immediate.destinationRegister register => (verdictRegister || register = .verdict,verdict,chain)
      | .data (.verdict verdicts) =>
        let (verdict,chain) := verdicts.foldl (fun (verdict,chain) item => match item with
          | VerdictAttribute.code .jump => (true,chain)
          | .code .goto => (true,chain)
          | .chain value => (verdict,some value)
          | _ => (verdict,chain)) (verdict,chain)
        (verdictRegister,verdict,chain)
      | _ => (verdictRegister,verdict,chain)) (false,false,(none : Option String))
    if verdictRegister && verdict then chain else none
  | _ => none

/-- A redirect of the plan that overlaps the ports of a rule. -/
def conflictOf (desired : Plan) (chain : String) (index : Nat) (existing : PortRange) : Option BackendError :=
  desired.redirects.findSome? (fun redirect => (firstOverlap redirect.ports [existing]).map (fun overlap =>
    .operation s!"node {redirect.nodeId} hysteria2 port_hopping {overlap.display} conflicts with existing UDP NAT rule at chain {chain} rule {index} on {existing.display}"))

/-- The chains that a scan has visited. Each call of itself visits another one of the table, so
    the number of chains is fuel enough. -/
def scanExternalChain (snapshot : KernelSnapshot) (table : TableState) (chains : List ChainState) (desired : Plan) :
    Nat → List String → ChainState → Except BackendError (List String)
  | 0, visited, _ => .ok visited
  | fuel + 1, visited, chain =>
    if chain.name ∈ visited then .ok visited
    else
      let rules := snapshot.rules.filter (fun rule => rule.family = table.family && rule.table = table.name && rule.chain = chain.name)
      rules.zipIdx.foldlM (fun visited (rule,index) =>
        match (directUdpRedirectRange netlink rule.expressions).bind (conflictOf desired chain.name index) with
        | some conflict => .error conflict
        | none =>
          rule.expressions.foldlM (fun visited expression =>
            match (jumpTarget (expressionData expression)).bind (fun target => chains.find? (fun next => next.name = target)) with
            | some next => scanExternalChain snapshot table chains desired fuel visited next
            | none => .ok visited) visited) (chain.name :: visited)

/-- The chains of a table by name; of several with one name the last counts. -/
def chainsByName (chains : List ChainState) : List ChainState :=
  (chains.foldl (fun named chain => named.filter (fun other => other.name ≠ chain.name) ++ [chain]) []).mergeSort
    (fun left right => (compare left.name right.name).isLE)

def Family.rank : Family → Nat
  | .inet => 0
  | .ipv4 => 1
  | .ipv6 => 2

def rejectExternalConflicts (snapshot : KernelSnapshot) (managedTable : String) (desired : Plan) : Except BackendError Unit := do
  let tables := (snapshot.tables.filter (fun table => table.name ≠ managedTable)).mergeSort
    (fun left right => ((compare left.family.rank right.family.rank).then (compare left.name right.name)).isLE)
  for table in tables do
    let chains := chainsByName (snapshot.chains.filter (fun chain => chain.family = table.family && chain.table = table.name))
    let bases := chains.filter (fun chain => chain.chainType = some "nat" && chain.hook = some NF_INET_PRE_ROUTING)
    let _ ← bases.foldlM (scanExternalChain netlink snapshot table chains desired (chains.length + 1)) []

end NodeAgent.NftTables
