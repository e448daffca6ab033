import NodeAgent.FiniteMap
import NodeAgent.Tally

/-!
The rows of traffic analysis: what is observed of a connection, the keys that it is counted
under, the minute rows of users and domains, and the batches that carry them. Limits come
from the panel and are clamped before they are used.
-/
namespace NodeAgent.AnalysisRows
open NodeAgent.FiniteMap

/-- The requested target of a packet or a connection. -/
structure Target where
  host : String
  port : Nat
deriving DecidableEq

def Target.cmp : Target → Target → Ordering := compareLex (compareOn Target.host) (compareOn Target.port)

instance : Ord Target := ⟨Target.cmp⟩

instance : Std.TransOrd Target := inferInstanceAs (Std.TransCmp (compareLex (compareOn Target.host) (compareOn Target.port)))

instance : Std.LawfulEqOrd Target where
  eq_of_compare {a b} same := by
    change Target.cmp a b = .eq at same
    simp only [Target.cmp,compareLex,compareOn,Ordering.then_eq_eq,Std.LawfulEqOrd.compare_eq_iff_eq] at same
    cases a
    cases b
    simp_all

/-- Wire safety and resource bounds only. -/
def validObservationString (value : String) : Bool := value.utf8ByteSize ≤ 253 && !value.toList.contains '\x00'

def validTarget (target : Target) : Bool := !target.host.isEmpty && target.port ≠ 0 && validObservationString target.host

/-- The host without the brackets of an IPv6 literal. -/
def unbracketed (host : String) : String :=
  match host.toList with
  | '[' :: rest => if rest.getLast? = some ']' then String.ofList rest.dropLast else host
  | _ => host

/-- Whether the target names a domain; `parsesIp` is the parser of IP addresses. -/
def hasDestinationDomain (parsesIp : String → Bool) (target : Target) : Bool :=
  !target.host.isEmpty && !parsesIp (unbracketed target.host)

structure Metadata where
  nodeId : String
  userId : String
  proxyProtocol : String
  network : String
  /-- The sniffer's hostname. -/
  domain : String
  appProtocol : String
  echPresent : Bool
  destination : Option Target
  sniffDestination : Option Target
deriving DecidableEq

/-- Whether the flow is counted packet by packet. -/
def Metadata.udp (data : Metadata) : Bool := data.network = "udp"

def isAsciiWhitespace (c : Char) : Bool := c = ' ' || c = '\t' || c = '\n' || c = '\x0c' || c = '\r'

/-- `str::trim_ascii`. -/
def trimAscii (s : String) : String :=
  String.ofList ((s.toList.dropWhile isAsciiWhitespace).reverse.dropWhile isAsciiWhitespace).reverse

/-- `str::eq_ignore_ascii_case`; `Char.toLower` maps ASCII letters only. -/
def eqIgnoreAsciiCase (a b : String) : Bool := a.toList.map Char.toLower = b.toList.map Char.toLower

def webProtocol (protocol : String) : Option String :=
  ["http","tls","quic"].find? (fun web => eqIgnoreAsciiCase (trimAscii protocol) web)

def UNKNOWN : String := "unknown"

/-! ### Keys -/

structure UserKey where
  node : String
  user : String
  proxy : String
  network : String
deriving DecidableEq

def UserKey.cmp : UserKey → UserKey → Ordering :=
  compareLex (compareOn UserKey.node) (compareLex (compareOn UserKey.user)
    (compareLex (compareOn UserKey.proxy) (compareOn UserKey.network)))

instance : Ord UserKey := ⟨UserKey.cmp⟩

instance : Std.TransOrd UserKey :=
  inferInstanceAs (Std.TransCmp (compareLex (compareOn UserKey.node) (compareLex (compareOn UserKey.user)
    (compareLex (compareOn UserKey.proxy) (compareOn UserKey.network)))))

instance : Std.LawfulEqOrd UserKey where
  eq_of_compare {a b} same := by
    change UserKey.cmp a b = .eq at same
    simp only [UserKey.cmp,compareLex,compareOn,Ordering.then_eq_eq,Std.LawfulEqOrd.compare_eq_iff_eq] at same
    cases a
    cases b
    simp_all

def UserKey.of (data : Metadata) : UserKey := ⟨data.nodeId,data.userId,data.proxyProtocol,data.network⟩

structure DomainKey where
  user : UserKey
  domain : String
  destination : String
  app : String
  echPresent : Bool
deriving DecidableEq

def DomainKey.cmp : DomainKey → DomainKey → Ordering :=
  compareLex (compareOn DomainKey.user) (compareLex (compareOn DomainKey.domain) (compareLex (compareOn DomainKey.destination)
    (compareLex (compareOn DomainKey.app) (compareOn DomainKey.echPresent))))

instance : Ord DomainKey := ⟨DomainKey.cmp⟩

instance : Std.TransOrd DomainKey :=
  inferInstanceAs (Std.TransCmp (compareLex (compareOn DomainKey.user) (compareLex (compareOn DomainKey.domain)
    (compareLex (compareOn DomainKey.destination) (compareLex (compareOn DomainKey.app) (compareOn DomainKey.echPresent))))))

instance : Std.LawfulEqOrd DomainKey where
  eq_of_compare {a b} same := by
    change DomainKey.cmp a b = .eq at same
    simp only [DomainKey.cmp,compareLex,compareOn,Ordering.then_eq_eq,Std.LawfulEqOrd.compare_eq_iff_eq] at same
    cases a
    cases b
    simp_all

/-- The row that takes what no other row has room for. -/
def DomainKey.unknown (user : UserKey) : DomainKey := ⟨user,"","",UNKNOWN,false⟩

def DomainKey.hasDomain (key : DomainKey) : Bool := !key.domain.isEmpty || !key.destination.isEmpty

/-- Whether the key says more than that nothing is known. -/
def DomainKey.informative (key : DomainKey) : Bool := key.hasDomain || key.app ≠ UNKNOWN || key.echPresent

@[simp] theorem unknown_user (user : UserKey) : (DomainKey.unknown user).user = user := rfl

/-- The key of the unknown row is the only one that says nothing. -/
theorem informative_eq_false {key : DomainKey} : key.informative = false ↔ key = DomainKey.unknown key.user := by
  obtain ⟨user,domain,destination,app,echPresent⟩ := key
  simp [DomainKey.informative,DomainKey.hasDomain,DomainKey.unknown,and_assoc]

/-- Sniffed and destination names are independent observations. -/
def identity (parsesIp : String → Bool) (data : Metadata) (target : Option Target) (packet : Bool) : DomainKey :=
  let key := DomainKey.unknown (UserKey.of data)
  let key :=
    if !packet || (target.any validTarget && target = data.sniffDestination) then
      { key with
        domain := data.domain
        app := if data.appProtocol.isEmpty then key.app else data.appProtocol
        echPresent := data.echPresent }
    else key
  match target.filter (hasDestinationDomain parsesIp) with
  | some target => { key with destination := target.host }
  | none => key

@[simp] theorem identity_user (parsesIp : String → Bool) (data : Metadata) (target : Option Target) (packet : Bool) :
    (identity parsesIp data target packet).user = UserKey.of data := by
  unfold identity
  dsimp only
  split <;> split <;> rfl

/-! ### Rows -/

structure TrafficAnalysisUserMinute where
  userId : String
  minuteAtUnix : Int
  proxyProtocol : String
  network : String
  uplinkBytes : Nat
  downlinkBytes : Nat
  identifiedUplinkBytes : Nat
  identifiedDownlinkBytes : Nat
  startedSessions : Nat
  nodeId : String
deriving DecidableEq

structure TrafficAnalysisDomainMinute where
  userId : String
  minuteAtUnix : Int
  proxyProtocol : String
  network : String
  domain : String
  appProtocol : String
  uplinkBytes : Nat
  downlinkBytes : Nat
  targetSessions : Nat
  nodeId : String
  echPresent : Bool
  destinationDomain : String
deriving DecidableEq

structure TrafficAnalysisBatch where
  agentInstanceId : String
  epoch : Nat
  sequence : Nat
  generatedAtUnix : Int
  userMinutes : List TrafficAnalysisUserMinute
  domainMinutes : List TrafficAnalysisDomainMinute
deriving DecidableEq

def entries (batch : TrafficAnalysisBatch) : Nat := batch.userMinutes.length + batch.domainMinutes.length

/-! ### Limits -/

/-- The limits that the collector reads. -/
structure TrafficAnalysisConfig where
  enabled : Bool
  batchMaxEntries : Nat
  batchMaxBytes : Nat
  queueMaxBytes : Nat
  minuteMaxDomainKeys : Nat
  maxUdpTargets : Nat
  maxUdpTargetsPerSession : Nat
  memoryMaxBytes : Nat
deriving DecidableEq

def defaultConfig (enabled : Bool) : TrafficAnalysisConfig where
  enabled := enabled
  batchMaxEntries := 1024
  batchMaxBytes := 256 * 1024
  queueMaxBytes := 16 * 1024 * 1024
  minuteMaxDomainKeys := 20000
  maxUdpTargets := 40000
  maxUdpTargetsPerSession := 64
  memoryMaxBytes := 64 * 1024 * 1024

/-- A value that is not given takes the default; any other one is clamped. -/
def bound (value fallback low high : Nat) : Nat := if value = 0 then fallback else max low (min value high)

/-- A missing configuration disables analysis and still returns bounded limits. -/
def normalizeConfig : Option TrafficAnalysisConfig → TrafficAnalysisConfig
  | none => defaultConfig false
  | some config =>
    let out := defaultConfig config.enabled
    { enabled := config.enabled
      batchMaxEntries := bound config.batchMaxEntries out.batchMaxEntries 1 1024
      batchMaxBytes := bound config.batchMaxBytes out.batchMaxBytes 1024 (256 * 1024)
      queueMaxBytes := bound config.queueMaxBytes out.queueMaxBytes (256 * 1024) (16 * 1024 * 1024)
      minuteMaxDomainKeys := bound config.minuteMaxDomainKeys out.minuteMaxDomainKeys 1 20000
      maxUdpTargets := bound config.maxUdpTargets out.maxUdpTargets 1 40000
      maxUdpTargetsPerSession := bound config.maxUdpTargetsPerSession out.maxUdpTargetsPerSession 1 64
      memoryMaxBytes := bound config.memoryMaxBytes out.memoryMaxBytes (1024 * 1024) (64 * 1024 * 1024) }

/-! ### Reasons -/

/-- Why something was limited or dropped. -/
inductive Reason
  | queueFull
  | expired
  | sessionReset
  | sendFailed
  | budget
  | targetLimit
  | domainLimit
  | invalidMetadata
deriving DecidableEq

end NodeAgent.AnalysisRows
