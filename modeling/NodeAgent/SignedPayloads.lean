import Mathlib.Data.Set.Subsingleton
import NodeAgent.Delimiters
import NodeAgent.ForwardingPlans
import NodeAgent.PanelEndpoint
import NodeAgent.Utf8Bytes

/-!
What the agent signs: the fields of a greeting or of a request with line feeds between them.
The identifiers of the machine and of the node come from a configuration file, which may put
line feeds into them. A signature vouches for one identity only if no two texts may have them.
-/
namespace NodeAgent.SignedPayloads
open NodeAgent.Delimiters NodeAgent.PanelEndpoint NodeAgent.TopologyDigest
open NodeAgent.ForwardingPlans (asBytes)
open NodeAgent.Credential (Bytes)

/-! ### The configuration file -/

structure RawConfig where
  panelGrpcEndpoint : String
  machineId : String
  nodeId : String
  machineSecret : String
  caCertPath : String
  tlsInsecureSkipVerify : Bool
  debug : Bool
  disableTrafficAnalysis : Bool
  logFilePath : String
  trafficReportMinDeltaBytes : Option UInt64

structure Config where
  panelGrpcEndpoint : String
  panelGrpcAddress : String
  panelGrpcScheme : String
  panelGrpcServerName : String
  machineId : String
  nodeId : String
  machineSecret : String
  caCertPath : String
  tlsInsecureSkipVerify : Bool
  debug : Bool
  disableTrafficAnalysis : Bool
  logFilePath : String
  trafficReportMinDeltaBytes : UInt64

def DEFAULT_TRAFFIC_REPORT_MIN_DELTA_BYTES : UInt64 := 25 * 1024 * 1024

section Parsing
variable (fromStr : String → Except String RawConfig) (urls : UrlExternals)

def parse (source : String) : Except ConfigError Config :=
  match fromStr source with
  | .error error => .error (.decode error)
  | .ok raw =>
    if raw.trafficReportMinDeltaBytes = some 0 then .error (.invalid "traffic_report_min_delta_bytes must be greater than 0")
    else if raw.panelGrpcEndpoint.isEmpty then .error (.invalid "panel_grpc_endpoint is required")
    else
      match parsePanelGrpcEndpoint urls raw.panelGrpcEndpoint with
      | .error error => .error error
      | .ok endpoint =>
        if endpoint.scheme = PANEL_GRPC_SCHEME_PLAINTEXT ∧ ¬ raw.caCertPath.isEmpty then
          .error (.invalid "ca_cert_path requires a grpcs:// panel_grpc_endpoint")
        else if raw.machineId.isEmpty then .error (.invalid "machine_id is required")
        else if raw.nodeId.isEmpty then .error (.invalid "node_id is required")
        else if raw.machineSecret.isEmpty then .error (.invalid "machine_secret is required")
        else
          .ok ⟨raw.panelGrpcEndpoint,endpoint.address,endpoint.scheme,endpoint.serverName,raw.machineId,raw.nodeId,raw.machineSecret,raw.caCertPath,
            raw.tlsInsecureSkipVerify,raw.debug,raw.disableTrafficAnalysis,raw.logFilePath,
            raw.trafficReportMinDeltaBytes.getD DEFAULT_TRAFFIC_REPORT_MIN_DELTA_BYTES⟩

end Parsing

/-! ### Signatures -/

/-- A required field was empty. -/
structure MissingField where
  field : String

inductive SessionError
  | authentication (message : String)

structure HelloFields where
  machineId : String
  nodeId : String
  agentVersion : String
  singBoxVersion : String
  timestampUnix : Int
  nonce : String
  topologyRevision : UInt64
deriving DecidableEq

structure SessionFields where
  machineId : String
  sessionId : String
  timestampUnix : Int
  nonce : String
deriving DecidableEq

def canonicalHello (fields : HelloFields) : String :=
  s!"{fields.machineId}\n{fields.nodeId}\n{fields.agentVersion}\n{fields.singBoxVersion}\n{fields.timestampUnix}\n{fields.nonce}\n{fields.topologyRevision.toNat}"

def canonicalSession (fields : SessionFields) : String :=
  s!"{fields.machineId}\n{fields.sessionId}\n{fields.timestampUnix}\n{fields.nonce}"

structure HelloRequest where
  machineId : String
  nodeId : String
  agentVersion : String
  singBoxVersion : String
  timestampUnix : Int
  nonce : String
  signature : String
  topologyRevision : UInt64

section Signing
variable (hmacSha256 : Bytes → Bytes → Bytes)

def sign (secret payload : String) : String := hexEncode (hmacSha256 (asBytes secret) (asBytes payload))

def signHello (secret : String) (fields : HelloFields) : Except MissingField String :=
  if secret.isEmpty then .error ⟨"machine secret"⟩
  else if fields.machineId.isEmpty then .error ⟨"machine id"⟩
  else if fields.nodeId.isEmpty then .error ⟨"node id"⟩
  else .ok (sign hmacSha256 secret (canonicalHello fields))

def signSession (secret : String) (fields : SessionFields) : Except MissingField String :=
  if secret.isEmpty then .error ⟨"machine secret"⟩
  else if fields.machineId.isEmpty then .error ⟨"machine id"⟩
  else if fields.sessionId.isEmpty then .error ⟨"session id"⟩
  else if fields.nonce.isEmpty then .error ⟨"nonce"⟩
  else .ok (sign hmacSha256 secret (canonicalSession fields))

def helloFields (config : Config) (agentVersion dataPlaneVersion : String) (topologyRevision : UInt64) (timestampUnix : Int) (nonce : String) : HelloFields :=
  ⟨config.machineId,config.nodeId,agentVersion,dataPlaneVersion,timestampUnix,nonce,topologyRevision⟩

def buildHelloRequestAt (config : Config) (agentVersion dataPlaneVersion : String) (topologyRevision : UInt64) (timestampUnix : Int) (nonce : String) :
    Except SessionError HelloRequest := do
  let fields := helloFields config agentVersion dataPlaneVersion topologyRevision timestampUnix nonce
  let signature ← match signHello hmacSha256 config.machineSecret fields with
    | .ok signature => .ok signature
    | .error error => .error (.authentication s!"{error.field} is required")
  return ⟨fields.machineId,fields.nodeId,fields.agentVersion,fields.singBoxVersion,fields.timestampUnix,fields.nonce,signature,fields.topologyRevision⟩

end Signing

/-! ### Texts between line feeds -/

def number (i : ℤ) : List Char := (toString i).toList

theorem number_plain (i : ℤ) : '\n' ∉ number i := by
  intro member
  rcases sign_or_digit member with sign | digit
  · exact absurd sign (by decide)
  · exact absurd digit (by decide)

theorem number_injective {i j : ℤ} (same : number i = number j) : i = j := toString_int_injective same

/-- The fields of a greeting that are texts. -/
inductive HelloText
  | machineId
  | nodeId
  | agentVersion
  | singBoxVersion
  | nonce

namespace HelloFields
variable {a b : HelloFields}

def text (fields : HelloFields) : HelloText → String
  | .machineId => fields.machineId
  | .nodeId => fields.nodeId
  | .agentVersion => fields.agentVersion
  | .singBoxVersion => fields.singBoxVersion
  | .nonce => fields.nonce

/-- The lines before a text. -/
def before (fields : HelloFields) : HelloText → List (List Char)
  | .machineId => []
  | .nodeId => [fields.machineId.toList]
  | .agentVersion => [fields.machineId.toList,fields.nodeId.toList]
  | .singBoxVersion => [fields.machineId.toList,fields.nodeId.toList,fields.agentVersion.toList]
  | .nonce => [fields.machineId.toList,fields.nodeId.toList,fields.agentVersion.toList,fields.singBoxVersion.toList,number fields.timestampUnix]

def lastLines (fields : HelloFields) : List (List Char) :=
  [number fields.timestampUnix,fields.nonce.toList,number fields.topologyRevision.toNat]

/-- The lines after a text. -/
def after (fields : HelloFields) : HelloText → List (List Char)
  | .machineId => fields.nodeId.toList :: fields.agentVersion.toList :: fields.singBoxVersion.toList :: fields.lastLines
  | .nodeId => fields.agentVersion.toList :: fields.singBoxVersion.toList :: fields.lastLines
  | .agentVersion => fields.singBoxVersion.toList :: fields.lastLines
  | .singBoxVersion => fields.lastLines
  | .nonce => [number fields.topologyRevision.toNat]

theorem canonical_joined (fields : HelloFields) (field : HelloText) :
    (canonicalHello fields).toList = joined '\n' (fields.before field) (fields.text field).toList (fields.after field) := by
  have shown (text : String) : toString text = text := rfl
  have feed : "\n".toList = ['\n'] := rfl
  have signed (i : ℤ) : (toString i).toList = number i := rfl
  have unsigned (n : ℕ) : (toString n).toList = number n := rfl
  cases field <;> simp only [canonicalHello,String.toList_append,shown,feed,signed,unsigned,joined,before,after,text,lastLines,
    List.flatMap_cons,List.flatMap_nil,List.append_assoc,List.cons_append,List.nil_append,List.append_nil]

/-- Line feeds only in these texts. -/
def Within (fields : HelloFields) (multiline : Set HelloText) : Prop := ∀ field, '\n' ∈ (fields.text field).toList → field ∈ multiline

theorem plain_lines {field : HelloText} (within : a.Within {field}) : ∀ line ∈ a.before field ++ a.after field, '\n' ∉ line := by
  have other (text : HelloText) (different : text ≠ field) : '\n' ∉ (a.text text).toList := fun member => different (within text member)
  have machineId := other .machineId
  have nodeId := other .nodeId
  have agentVersion := other .agentVersion
  have singBoxVersion := other .singBoxVersion
  have nonce := other .nonce
  cases field <;> simp_all [before,after,lastLines,text,number_plain]

theorem eq_of_lines {field : HelloText} (first : a.before field = b.before field) (own : a.text field = b.text field)
    (last : a.after field = b.after field) : a = b := by
  have timestamps (same : number a.timestampUnix = number b.timestampUnix) := number_injective same
  have revisions (same : number a.topologyRevision.toNat = number b.topologyRevision.toNat) :=
    UInt64.toNat_inj.mp (Int.ofNat.inj (number_injective same))
  cases a
  cases b
  cases field <;> simp_all [before,after,lastLines,text,String.toList_inj]

/-- One text with line feeds leaves no doubt about the fields. -/
theorem known {field : HelloText} (within : a.Within {field}) (within' : b.Within {field}) (same : canonicalHello a = canonicalHello b) : a = b := by
  have texts := congrArg String.toList same
  rw [canonical_joined a field,canonical_joined b field] at texts
  have front : (a.before field).length = (b.before field).length := by cases field <;> rfl
  have back : (a.after field).length = (b.after field).length := by cases field <;> rfl
  obtain ⟨first,own,last⟩ := joined_injective (plain_lines within) (plain_lines within') front back texts
  exact eq_of_lines first (String.toList_inj.mp own) last

end HelloFields

/-- The fields of a request that are texts. -/
inductive SessionText
  | machineId
  | sessionId
  | nonce

namespace SessionFields
variable {c d : SessionFields}

def text (fields : SessionFields) : SessionText → String
  | .machineId => fields.machineId
  | .sessionId => fields.sessionId
  | .nonce => fields.nonce

def before (fields : SessionFields) : SessionText → List (List Char)
  | .machineId => []
  | .sessionId => [fields.machineId.toList]
  | .nonce => [fields.machineId.toList,fields.sessionId.toList,number fields.timestampUnix]

def after (fields : SessionFields) : SessionText → List (List Char)
  | .machineId => [fields.sessionId.toList,number fields.timestampUnix,fields.nonce.toList]
  | .sessionId => [number fields.timestampUnix,fields.nonce.toList]
  | .nonce => []

theorem canonical_joined (fields : SessionFields) (field : SessionText) :
    (canonicalSession fields).toList = joined '\n' (fields.before field) (fields.text field).toList (fields.after field) := by
  have shown (text : String) : toString text = text := rfl
  have feed : "\n".toList = ['\n'] := rfl
  have signed (i : ℤ) : (toString i).toList = number i := rfl
  cases field <;> simp only [canonicalSession,String.toList_append,shown,feed,signed,joined,before,after,text,
    List.flatMap_cons,List.flatMap_nil,List.append_assoc,List.cons_append,List.nil_append,List.append_nil]

def Within (fields : SessionFields) (multiline : Set SessionText) : Prop := ∀ field, '\n' ∈ (fields.text field).toList → field ∈ multiline

theorem plain_lines {field : SessionText} (within : c.Within {field}) : ∀ line ∈ c.before field ++ c.after field, '\n' ∉ line := by
  have other (text : SessionText) (different : text ≠ field) : '\n' ∉ (c.text text).toList := fun member => different (within text member)
  have machineId := other .machineId
  have sessionId := other .sessionId
  have nonce := other .nonce
  cases field <;> simp_all [before,after,text,number_plain]

theorem eq_of_lines {field : SessionText} (first : c.before field = d.before field) (own : c.text field = d.text field)
    (last : c.after field = d.after field) : c = d := by
  have timestamps (same : number c.timestampUnix = number d.timestampUnix) := number_injective same
  cases c
  cases d
  cases field <;> simp_all [before,after,text,String.toList_inj]

theorem known {field : SessionText} (within : c.Within {field}) (within' : d.Within {field}) (same : canonicalSession c = canonicalSession d) : c = d := by
  have texts := congrArg String.toList same
  rw [canonical_joined c field,canonical_joined d field] at texts
  have front : (c.before field).length = (d.before field).length := by cases field <;> rfl
  have back : (c.after field).length = (d.after field).length := by cases field <;> rfl
  obtain ⟨first,own,last⟩ := joined_injective (plain_lines within) (plain_lines within') front back texts
  exact eq_of_lines first (String.toList_inj.mp own) last

end SessionFields

/-! ### Identities -/

section Identities
variable (fromStr : String → Except String RawConfig) (urls : UrlExternals) (hmacSha256 : Bytes → Bytes → Bytes)

/-- The identifiers of a configuration file. -/
def Configured (machineId nodeId : String) : Prop :=
  ∃ source config, parse fromStr urls source = .ok config ∧ config.machineId = machineId ∧ config.nodeId = nodeId

/-- Greetings are known from what is signed, if line feeds are only in these texts. -/
def HelloUnambiguous (multiline : Set HelloText) : Prop :=
  ∀ (a b : HelloFields) (secret : String), Configured fromStr urls a.machineId a.nodeId →
    Configured fromStr urls b.machineId b.nodeId → (signHello hmacSha256 secret a).isOk → (signHello hmacSha256 secret b).isOk →
    a.Within multiline → b.Within multiline → canonicalHello a = canonicalHello b → a = b

/-- So are requests; the panel chooses the session, and any text that is not empty is taken for its identifier. -/
def SessionUnambiguous (multiline : Set SessionText) : Prop :=
  ∀ (c d : SessionFields) (secret : String), (∃ nodeId, Configured fromStr urls c.machineId nodeId) →
    (∃ nodeId, Configured fromStr urls d.machineId nodeId) → (signSession hmacSha256 secret c).isOk → (signSession hmacSha256 secret d).isOk →
    c.Within multiline → d.Within multiline → canonicalSession c = canonicalSession d → c = d

end Identities

/-! ### Files with line feeds in identifiers -/

/-- Texts of basic strings of TOML, and what they stand for. -/
def spellings : List (String × String) := [("1","1"),("1\\n1","1\n1")]

def panelEndpoint : String := "grpcs://panel.example:443"

def configToml (machineId nodeId : String) : String :=
  "panel_grpc_endpoint = \"" ++ panelEndpoint ++ "\"\nmachine_id = \"" ++ machineId ++ "\"\nnode_id = \"" ++ nodeId ++ "\"\nmachine_secret = \"secret\"\n"

def rawConfig (machineId nodeId : String) : RawConfig := ⟨panelEndpoint,machineId,nodeId,"secret","",false,false,false,"",none⟩

def endpoint : ParsedEndpoint := ⟨"panel.example:443","grpcs","panel.example"⟩

def panelUrl : Url := ⟨"grpcs","",none,"",none,none,some 443,some (.domain "panel.example")⟩

section Files
variable {fromStr : String → Except String RawConfig} {urls : UrlExternals} {hmacSha256 : Bytes → Bytes → Bytes}

theorem endpoint_accepted (parses : urls.parseUrl panelEndpoint = some panelUrl) : parsePanelGrpcEndpoint urls panelEndpoint = .ok endpoint := by
  have plain : withoutGoEmptyQueryOrFragment panelEndpoint.toList = panelEndpoint.toList := by decide
  have unscoped : parseScopedIpv6Endpoint urls panelEndpoint.toList = none := rfl
  have lexical : validateGoHostLexicalForm panelEndpoint.toList = .ok () := rfl
  have made : urlEndpoint panelEndpoint.toList panelUrl = .ok endpoint := rfl
  rw [parsePanelGrpcEndpoint,if_neg (by decide),if_neg (by decide),plain]
  dsimp only
  rw [unscoped]
  dsimp only
  rw [lexical]
  dsimp only
  rw [String.ofList_toList,parses]
  exact made

theorem configured {machineId nodeId : String × String} (reads : fromStr (configToml machineId.1 nodeId.1) = .ok (rawConfig machineId.2 nodeId.2))
    (parses : urls.parseUrl panelEndpoint = some panelUrl) (named : machineId.2 ≠ "" ∧ nodeId.2 ≠ "") :
    Configured fromStr urls machineId.2 nodeId.2 := by
  refine ⟨configToml machineId.1 nodeId.1,⟨panelEndpoint,"panel.example:443","grpcs","panel.example",machineId.2,nodeId.2,"secret","",false,false,false,"",
    DEFAULT_TRAFFIC_REPORT_MIN_DELTA_BYTES⟩,?_,rfl,rfl⟩
  have filled : ¬ machineId.2.isEmpty ∧ ¬ nodeId.2.isEmpty := by simpa using named
  have address : ¬ panelEndpoint.isEmpty := by decide
  have scheme : ¬ (endpoint.scheme = PANEL_GRPC_SCHEME_PLAINTEXT ∧ ¬ "".isEmpty) := by decide
  rw [parse,reads]
  dsimp only [rawConfig]
  rw [if_neg (by simp),if_neg address,endpoint_accepted parses]
  dsimp only
  rw [if_neg scheme,if_neg filled.1,if_neg filled.2,if_neg (by decide)]
  rfl

/-- A greeting of ones, one of which is on two lines. -/
def doubled (field : HelloText) : HelloFields :=
  let text (own : HelloText) : String := match field,own with
    | .machineId,.machineId | .nodeId,.nodeId | .agentVersion,.agentVersion | .singBoxVersion,.singBoxVersion | .nonce,.nonce => "1\n1"
    | _,_ => "1"
  ⟨text .machineId,text .nodeId,text .agentVersion,text .singBoxVersion,1,text .nonce,1⟩

theorem doubled_canonical (field : HelloText) : canonicalHello (doubled field) = "1\n1\n1\n1\n1\n1\n1\n1" := by
  cases field <;> decide

theorem doubled_injective : Function.Injective doubled := by
  intro f g same
  cases f <;> cases g <;> first
    | rfl
    | exact absurd same (by decide)

theorem doubled_within (field : HelloText) : (doubled field).Within {field} := by
  intro other member
  cases field <;> cases other <;> first
    | rfl
    | exact absurd member (by decide)

theorem doubled_signed (field : HelloText) : (signHello hmacSha256 "secret" (doubled field)).isOk := by
  cases field <;> rfl

/-- A request of ones, one of which is on two lines. -/
def doubledSession : SessionText → SessionFields
  | .machineId => ⟨"1\n1","1",1,"1"⟩
  | .sessionId => ⟨"1","1\n1",1,"1"⟩
  | .nonce => ⟨"1","1",1,"1\n1"⟩

theorem doubledSession_canonical (field : SessionText) : canonicalSession (doubledSession field) = "1\n1\n1\n1\n1" := by
  cases field <;> decide

theorem doubledSession_injective : Function.Injective doubledSession := by
  intro f g same
  cases f <;> cases g <;> first
    | rfl
    | exact absurd same (by decide)

theorem doubledSession_within (field : SessionText) : (doubledSession field).Within {field} := by
  intro other member
  cases field <;> cases other <;> first
    | rfl
    | exact absurd member (by decide)

theorem doubledSession_signed (field : SessionText) : (signSession hmacSha256 "secret" (doubledSession field)).isOk := by
  cases field <;> rfl

section Read
variable (reads : ∀ machineId ∈ spellings, ∀ nodeId ∈ spellings, fromStr (configToml machineId.1 nodeId.1) = .ok (rawConfig machineId.2 nodeId.2))
  (parses : urls.parseUrl panelEndpoint = some panelUrl)
include reads parses

theorem spelled {machineId nodeId : String × String} (member : machineId ∈ spellings) (member' : nodeId ∈ spellings) :
    Configured fromStr urls machineId.2 nodeId.2 := by
  have filled : ∀ spelling ∈ spellings, spelling.2 ≠ "" := by decide
  exact configured (reads _ member _ member') parses ⟨filled _ member,filled _ member'⟩

theorem doubled_configured (field : HelloText) : Configured fromStr urls (doubled field).machineId (doubled field).nodeId := by
  have one : ("1","1") ∈ spellings := by decide
  have two : ("1\\n1","1\n1") ∈ spellings := by decide
  cases field
  · exact spelled reads parses two one
  · exact spelled reads parses one two
  all_goals exact spelled reads parses one one

theorem doubledSession_configured (field : SessionText) : ∃ nodeId, Configured fromStr urls (doubledSession field).machineId nodeId := by
  have one : ("1","1") ∈ spellings := by decide
  have two : ("1\\n1","1\n1") ∈ spellings := by decide
  cases field
  · exact ⟨_,spelled reads parses two one⟩
  all_goals exact ⟨_,spelled reads parses one one⟩

theorem hello_unambiguous_iff (multiline : Set HelloText) :
    HelloUnambiguous fromStr urls hmacSha256 multiline ↔ multiline.Subsingleton := by
  constructor
  · intro unambiguous f member g member'
    refine doubled_injective (unambiguous _ _ "secret" (doubled_configured reads parses f) (doubled_configured reads parses g) (doubled_signed f)
      (doubled_signed g) ?_ ?_ ((doubled_canonical f).trans (doubled_canonical g).symm))
    · exact fun field line => doubled_within f field line ▸ member
    · exact fun field line => doubled_within g field line ▸ member'
  · intro single a b _ _ _ _ _ within within' same
    rcases single.eq_empty_or_singleton with rfl | ⟨field,rfl⟩
    · exact @HelloFields.known a b .nonce (fun text line => (within text line).elim) (fun text line => (within' text line).elim) same
    · exact HelloFields.known within within' same

theorem session_unambiguous_iff (multiline : Set SessionText) :
    SessionUnambiguous fromStr urls hmacSha256 multiline ↔ multiline.Subsingleton := by
  constructor
  · intro unambiguous f member g member'
    refine doubledSession_injective (unambiguous _ _ "secret" (doubledSession_configured reads parses f) (doubledSession_configured reads parses g)
      (doubledSession_signed f) (doubledSession_signed g) ?_ ?_ ((doubledSession_canonical f).trans (doubledSession_canonical g).symm))
    · exact fun field line => doubledSession_within f field line ▸ member
    · exact fun field line => doubledSession_within g field line ▸ member'
  · intro single c d _ _ _ _ _ within within' same
    rcases single.eq_empty_or_singleton with rfl | ⟨field,rfl⟩
    · exact @SessionFields.known c d .nonce (fun text line => (within text line).elim) (fun text line => (within' text line).elim) same
    · exact SessionFields.known within within' same

end Read

/-- Signatures are the same exactly for the same payloads. -/
theorem sign_eq_iff {secret payload payload' : String} (keyed : Function.Injective (hmacSha256 (asBytes secret))) :
    sign hmacSha256 secret payload = sign hmacSha256 secret payload' ↔ payload = payload' := by
  constructor
  · intro same
    exact Utf8Bytes.bytes_injective (keyed (hexEncode_injective same))
  · exact fun same => congrArg _ same

theorem signHello_ok {secret signature : String} {a : HelloFields} (signed : signHello hmacSha256 secret a = .ok signature) :
    signature = sign hmacSha256 secret (canonicalHello a) := by
  rw [signHello] at signed
  repeat' split at signed
  all_goals cases signed
  rfl

theorem signSession_ok {secret signature : String} {c : SessionFields} (signed : signSession hmacSha256 secret c = .ok signature) :
    signature = sign hmacSha256 secret (canonicalSession c) := by
  rw [signSession] at signed
  repeat' split at signed
  all_goals cases signed
  rfl

/-- What is signed is known from the signature's payload exactly if line feeds may be in one of the texts only. -/
theorem payloads_unambiguous_iff (keyed : ∀ secret, Function.Injective (hmacSha256 secret))
    (reads : ∀ machineId ∈ spellings, ∀ nodeId ∈ spellings, fromStr (configToml machineId.1 nodeId.1) = .ok (rawConfig machineId.2 nodeId.2))
    (parses : urls.parseUrl panelEndpoint = some panelUrl) :
    (∀ multiline, HelloUnambiguous fromStr urls hmacSha256 multiline ↔ multiline.Subsingleton) ∧
    (∀ multiline, SessionUnambiguous fromStr urls hmacSha256 multiline ↔ multiline.Subsingleton) ∧
    (∀ secret a b s t, signHello hmacSha256 secret a = .ok s → signHello hmacSha256 secret b = .ok t → (s = t ↔ canonicalHello a = canonicalHello b)) ∧
    ∀ secret c d s t, signSession hmacSha256 secret c = .ok s → signSession hmacSha256 secret d = .ok t → (s = t ↔ canonicalSession c = canonicalSession d) := by
  refine ⟨hello_unambiguous_iff reads parses,session_unambiguous_iff reads parses,?_,?_⟩
  · intro secret a b s t signed signed'
    rw [signHello_ok signed,signHello_ok signed',sign_eq_iff (keyed _)]
  · intro secret c d s t signed signed'
    rw [signSession_ok signed,signSession_ok signed',sign_eq_iff (keyed _)]

/-- A reader of the four files. -/
def fileReader (source : String) : Except String RawConfig :=
  match (spellings.flatMap (fun machineId => spellings.map (fun nodeId => (machineId,nodeId)))).find? (fun (machineId,nodeId) =>
      source = configToml machineId.1 nodeId.1) with
  | some (machineId,nodeId) => .ok (rawConfig machineId.2 nodeId.2)
  | none => .error "unknown file"

/-- A parser of one URL. -/
def urlReader : UrlExternals :=
  { parseUrl := fun text => if text = panelEndpoint then some panelUrl else none
    isIpv6 := fun _ => false
    fromShared := fun _ => true }

/-- Keys and payloads one after another. -/
def pairing (key payload : Bytes) : Bytes := key ++ payload

theorem urlReader_reads : urlReader.parseUrl panelEndpoint = some panelUrl := by
  simp [urlReader]

theorem fileReader_reads : ∀ machineId ∈ spellings, ∀ nodeId ∈ spellings,
    fileReader (configToml machineId.1 nodeId.1) = .ok (rawConfig machineId.2 nodeId.2) := by
  intro machineId member nodeId member'
  simp only [spellings,List.mem_cons,List.not_mem_nil,or_false] at member member'
  rcases member with rfl | rfl <;> rcases member' with rfl | rfl <;> rfl

/-- Greetings whose machine identifiers may have line feeds are known from what is signed. -/
theorem payloads_unambiguous_sample : HelloUnambiguous fileReader urlReader pairing {.machineId} := by
  have keyed (key : Bytes) : Function.Injective (pairing key) := List.append_right_injective key
  exact ((payloads_unambiguous_iff keyed fileReader_reads urlReader_reads).1 {.machineId}).mpr Set.subsingleton_singleton

/-- Two files with different identifiers, whose greetings have one signature for every key; so neither greetings nor requests are known. -/
theorem line_feeds_collide : (∃ config config', parse fileReader urlReader (configToml "1\\n1" "1") = .ok config ∧
      parse fileReader urlReader (configToml "1" "1\\n1") = .ok config' ∧ ∀ hmacSha256 : Bytes → Bytes → Bytes, ∃ request request',
        buildHelloRequestAt hmacSha256 config "1" "1" 1 1 "1" = .ok request ∧ buildHelloRequestAt hmacSha256 config' "1" "1" 1 1 "1" = .ok request' ∧
        request.signature = request'.signature ∧ request.machineId ≠ request'.machineId ∧ request.nodeId ≠ request'.nodeId) ∧
    ¬ HelloUnambiguous fileReader urlReader pairing Set.univ ∧ ¬ SessionUnambiguous fileReader urlReader pairing Set.univ := by
  have machines : "1\n1" ≠ "1" := by decide
  refine ⟨⟨_,_,rfl,rfl,fun hmacSha256 => ⟨_,_,rfl,rfl,?_,machines,machines.symm⟩⟩,?_,?_⟩
  · exact congrArg (sign hmacSha256 "secret") ((doubled_canonical .machineId).trans (doubled_canonical .nodeId).symm)
  · rw [hello_unambiguous_iff fileReader_reads urlReader_reads]
    intro single
    cases single (Set.mem_univ HelloText.machineId) (Set.mem_univ HelloText.nodeId)
  · rw [session_unambiguous_iff fileReader_reads urlReader_reads]
    intro single
    cases single (Set.mem_univ SessionText.machineId) (Set.mem_univ SessionText.sessionId)

end Files

end NodeAgent.SignedPayloads
