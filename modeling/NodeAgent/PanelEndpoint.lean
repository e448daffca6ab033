import NodeAgent.TrimmedTexts

/-!
The address of the panel in the configuration file. The panel's own parser of URLs takes other texts than the
one that is used here: what only one of the two takes is looked at before and after, and scoped addresses are
read by hand.
-/
namespace NodeAgent.PanelEndpoint
open NodeAgent.RouteRules
open NodeAgent.Outbounds (parseUnsigned)

inductive ConfigError
  | decode (error : String)
  | invalid (message : String)

structure ParsedEndpoint where
  address : String
  scheme : String
  serverName : String

def PANEL_GRPC_SCHEME_PLAINTEXT : String := "grpc"
def PANEL_GRPC_SCHEME_TLS : String := "grpcs"

/-! ### What parses URLs -/

/-- `url::Host`, with the text of an address. -/
inductive Host
  | domain (host : String)
  | ipv4 (host : String)
  | ipv6 (host : String)

/-- What `url::Url` knows about a text. -/
structure Url where
  scheme : String
  username : String
  password : Option String
  path : String
  query : Option String
  fragment : Option String
  port : Option UInt16
  host : Option Host

structure UrlExternals where
  /-- `Url::parse`. -/
  parseUrl : String → Option Url
  /-- Whether `parse::<Ipv6Addr>` takes a text. -/
  isIpv6 : String → Bool
  /-- Whether `Endpoint::from_shared` takes one. -/
  fromShared : String → Bool

/-! ### Pieces of texts -/

/-- `split_once`. -/
def splitFirst (separator : List Char) : List Char → Option (List Char × List Char)
  | [] => none
  | c :: rest =>
    if separator <+: c :: rest then some ([],(c :: rest).drop separator.length)
    else (splitFirst separator rest).map (fun parts => (c :: parts.1,parts.2))

/-- `rsplit_once`. -/
def splitLast (separator : Char) (text : List Char) : Option (List Char × List Char) :=
  match text.reverse.span (· ≠ separator) with
  | (after,_ :: before) => some (before.reverse,after.reverse)
  | (_,[]) => none

/-- `strip_suffix`. -/
def stripEnd (ending text : List Char) : Option (List Char) :=
  if ending <:+ text then some (text.take (text.length - ending.length)) else none

def withoutGoEmptyQueryOrFragment (raw : List Char) : List Char :=
  match stripEnd ['?','#'] raw with
  | some rest => rest
  | none =>
    match stripEnd ['?'] raw with
    | some withoutQuery => if '#' ∈ withoutQuery then raw else withoutQuery
    | none => (stripEnd ['#'] raw).getD raw

def authority (raw : List Char) : Option (List Char) :=
  (splitFirst [':','/','/'] raw).map (fun parts => parts.2.takeWhile (fun c => c ≠ '/' && c ≠ '?' && c ≠ '#'))

/-! ### Hosts

The code goes over the bytes of a text. Those below 0x80 are the ASCII characters, and no rule looks at the others. -/

def decodeHex (c : Char) : Option Nat :=
  if '0' ≤ c ∧ c ≤ '9' then some (c.toNat - '0'.toNat)
  else if 'a' ≤ c ∧ c ≤ 'f' then some (c.toNat - 'a'.toNat + 10)
  else if 'A' ≤ c ∧ c ≤ 'F' then some (c.toNat - 'A'.toNat + 10)
  else none

def goUrlHostByteIsAllowed (c : Char) : Bool :=
  c.isAlphanum || "!\"$&'()*+,-.:;<=>[]_~".toList.contains c

def disallowed (c : Char) : Bool := decide (c.toNat < 0x80) && !goUrlHostByteIsAllowed c

def invalidPanelHost : ConfigError := .invalid "panel_grpc_endpoint must include a valid host and port"

def invalidShape : ConfigError := .invalid "panel_grpc_endpoint must contain only a scheme, host, and port"

def invalidScheme : ConfigError := .invalid "panel_grpc_endpoint must use grpc:// or grpcs://"

/-- Only bytes from 0x80 on may be escaped, and the percent sign as `%25`. -/
def validateHost : List Char → Except ConfigError Unit
  | [] => .ok ()
  | '%' :: high :: low :: rest =>
    match decodeHex high, decodeHex low with
    | some h, some l => if 16 * h + l < 0x80 ∧ ¬(high = '2' ∧ low = '5') then .error invalidPanelHost else validateHost rest
    | _, _ => .error invalidPanelHost
  | c :: rest => if c = '%' ∨ disallowed c then .error invalidPanelHost else validateHost rest

def validateGoHostLexicalForm (raw : List Char) : Except ConfigError Unit :=
  match authority raw with
  | none => .ok ()
  | some rawAuthority => validateHost (((splitLast '@' rawAuthority).map Prod.snd).getD rawAuthority)

/-- What is decoded are ASCII characters, so that the bytes are UTF-8 as before. -/
def decodeRfc6874Zone : List Char → Option (List Char)
  | [] => some []
  | '%' :: high :: low :: rest =>
    match decodeHex high, decodeHex low with
    | some h, some l =>
      let value := Char.ofNat (16 * h + l)
      if value ≠ '%' ∧ value ≠ ' ' ∧ goUrlHostByteIsAllowed value = false then none else (decodeRfc6874Zone rest).map (value :: ·)
    | _, _ => none
  | c :: rest => if c = '%' ∨ disallowed c then none else (decodeRfc6874Zone rest).map (c :: ·)

/-! ### Endpoints -/

section Endpoints
variable (ext : UrlExternals)

/-- `%zone` after an address, in brackets. -/
def scopedEndpoint (scheme : String) (ipv6 encodedZone port : List Char) : Except ConfigError ParsedEndpoint :=
  if ext.isIpv6 (String.ofList ipv6) = false ∨ encodedZone = [] then .error invalidPanelHost
  else
    match decodeRfc6874Zone encodedZone with
    | none => .error invalidPanelHost
    | some [] => .error invalidPanelHost
    | some zone =>
      let serverName := String.ofList (ipv6 ++ '%' :: zone)
      let address := "[" ++ serverName ++ "]:" ++ String.ofList port
      if ext.fromShared ("http://" ++ address) then .ok ⟨address,scheme,serverName⟩ else .error invalidPanelHost

def parseScopedIpv6Endpoint (raw : List Char) : Option (Except ConfigError ParsedEndpoint) :=
  match splitFirst [':','/','/'] raw, authority raw with
  | some (rawScheme,remainder), some rawAuthority =>
    if rawAuthority.head? ≠ some '[' ∨ (splitFirst ['%','2','5'] rawAuthority).isNone then none
    else
      let scheme := String.ofList (rawScheme.map Char.toLower)
      if scheme ≠ PANEL_GRPC_SCHEME_PLAINTEXT ∧ scheme ≠ PANEL_GRPC_SCHEME_TLS then some (.error invalidScheme)
      else if remainder ≠ rawAuthority ∨ '@' ∈ rawAuthority then some (.error invalidShape)
      else
        match splitLast ']' rawAuthority with
        | some (_ :: hostLiteral,':' :: port) =>
          if ((parseUnsigned (2 ^ 16) (String.ofList port)).toOption.filter (fun port => port ≠ 0)).isNone then some (.error invalidPanelHost)
          else (splitFirst ['%','2','5'] hostLiteral).map (fun parts => scopedEndpoint ext scheme parts.1 parts.2 port)
        | _ => some (.error invalidPanelHost)
  | _, _ => none

/-- The endpoint of a text that was parsed as an URL. -/
def urlEndpoint (parseInput : List Char) (parsed : Url) : Except ConfigError ParsedEndpoint :=
  let scheme := String.ofList (parsed.scheme.toList.map Char.toLower)
  if scheme ≠ PANEL_GRPC_SCHEME_PLAINTEXT ∧ scheme ≠ PANEL_GRPC_SCHEME_TLS then .error invalidScheme
  else if (authority parseInput).any (fun rawAuthority => rawAuthority.contains '@') ∨ parsed.username ≠ "" ∨ parsed.password.isSome ∨
      parsed.path ≠ "" ∨ parsed.query.isSome ∨ parsed.fragment.isSome then .error invalidShape
  else
    match parsed.port.filter (fun port => port ≠ 0), parsed.host with
    | none, _ => .error invalidPanelHost
    | some _, none => .error invalidPanelHost
    | some port, some (.ipv6 host) => .ok ⟨"[" ++ host ++ "]:" ++ toString port.toNat,scheme,host⟩
    | some port, some (.ipv4 host) => .ok ⟨host ++ ":" ++ toString port.toNat,scheme,host⟩
    | some port, some (.domain host) =>
      if host = "" then .error invalidPanelHost else .ok ⟨host ++ ":" ++ toString port.toNat,scheme,host⟩

def parsePanelGrpcEndpoint (raw : String) : Except ConfigError ParsedEndpoint :=
  if raw ≠ trim raw then .error (.invalid "panel_grpc_endpoint must not contain leading or trailing whitespace")
  else if raw.toList.any (fun c => decide (c.toNat < 0x20) || decide (c.toNat = 0x7f)) then
    .error (.invalid "panel_grpc_endpoint must not contain ASCII control characters")
  else
    let parseInput := withoutGoEmptyQueryOrFragment raw.toList
    match parseScopedIpv6Endpoint ext parseInput with
    | some endpoint => endpoint
    | none =>
      match validateGoHostLexicalForm parseInput with
      | .error error => .error error
      | .ok () =>
        match ext.parseUrl (String.ofList parseInput) with
        | none => .error invalidPanelHost
        | some parsed => urlEndpoint parseInput parsed

end Endpoints

/-! ### What is accepted -/

section Accepted
variable {ext : UrlExternals} {raw : String} {endpoint : ParsedEndpoint} {scheme : String}

/-- A scheme that the panel speaks. -/
def KnownScheme (scheme : String) : Prop := scheme = PANEL_GRPC_SCHEME_PLAINTEXT ∨ scheme = PANEL_GRPC_SCHEME_TLS

theorem knownScheme_of_not (known : ¬(scheme ≠ PANEL_GRPC_SCHEME_PLAINTEXT ∧ scheme ≠ PANEL_GRPC_SCHEME_TLS)) : KnownScheme scheme := by
  rwa [not_and_or,not_not,not_not] at known

theorem scopedEndpoint_scheme {ipv6 zone port : List Char} (accepted : scopedEndpoint ext scheme ipv6 zone port = .ok endpoint) :
    endpoint.scheme = scheme := by
  unfold scopedEndpoint at accepted
  split at accepted
  · cases accepted
  · split at accepted
    · cases accepted
    · cases accepted
    · dsimp only at accepted
      split at accepted
      · cases accepted
        rfl
      · cases accepted

theorem parseScoped_scheme {text : List Char} (accepted : parseScopedIpv6Endpoint ext text = some (.ok endpoint)) : KnownScheme endpoint.scheme := by
  unfold parseScopedIpv6Endpoint at accepted
  split at accepted
  · split at accepted
    · cases accepted
    · dsimp only at accepted
      split at accepted
      · cases accepted
      · next known =>
        split at accepted
        · cases accepted
        · split at accepted
          · split at accepted
            · cases accepted
            · obtain ⟨parts,_,made⟩ := Option.map_eq_some_iff.mp accepted
              rw [scopedEndpoint_scheme made]
              exact knownScheme_of_not known
          · cases accepted
  · cases accepted

theorem urlEndpoint_scheme {text : List Char} {parsed : Url} (accepted : urlEndpoint text parsed = .ok endpoint) : KnownScheme endpoint.scheme := by
  unfold urlEndpoint at accepted
  dsimp only at accepted
  split at accepted
  · cases accepted
  · next known =>
    have spoken := knownScheme_of_not known
    split at accepted
    · cases accepted
    · split at accepted
      · cases accepted
      · cases accepted
      · cases accepted
        exact spoken
      · cases accepted
        exact spoken
      · split at accepted
        · cases accepted
        · cases accepted
          exact spoken

/-- An endpoint that is accepted has no control character, so that it stays on its line, and one of the two schemes. -/
theorem accepted_endpoint (accepted : parsePanelGrpcEndpoint ext raw = .ok endpoint) :
    (∀ c ∈ raw.toList, 0x20 ≤ c.toNat ∧ c.toNat ≠ 0x7f) ∧ KnownScheme endpoint.scheme := by
  unfold parsePanelGrpcEndpoint at accepted
  split at accepted
  · cases accepted
  · split at accepted
    · cases accepted
    · next plain =>
      refine ⟨fun c member => ?_,?_⟩
      · have allowed : ¬(decide (c.toNat < 0x20) || decide (c.toNat = 0x7f)) = true := fun control => plain (List.any_eq_true.mpr ⟨c,member,control⟩)
        simpa using allowed
      · dsimp only at accepted
        split at accepted
        · next byHand =>
          rw [accepted] at byHand
          exact parseScoped_scheme byHand
        · split at accepted
          · cases accepted
          · split at accepted
            · cases accepted
            · exact urlEndpoint_scheme accepted

end Accepted

end NodeAgent.PanelEndpoint
