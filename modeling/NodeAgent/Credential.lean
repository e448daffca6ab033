import NodeAgent.Api

/-!
The credential forms of an inbound and the conversion of a user's secrets into
index keys. The cryptographic derivations are parameters (`Derivations`): nothing
here depends on more than that each is a function.
-/
namespace NodeAgent.Credential
open NodeAgent.Api

abbrev Bytes := List UInt8

inductive ShadowsocksPsk
  | none
  | len (n : Nat)
  | mixed
deriving DecidableEq

structure CredentialKinds where
  uuid : Bool
  trojanPassword : Bool
  plainPassword : Bool
  shadowsocksPsk : ShadowsocksPsk
  tuic : Bool
  anytlsPassword : Bool
  naiveBasic : Bool
deriving DecidableEq

/-- `matches!(self.shadowsocks_psk, ShadowsocksPsk::Len(_))`. -/
def ShadowsocksPsk.isLen : ShadowsocksPsk → Bool
  | .len _ => true
  | _ => false

/-- Whether a user's `password` means anything to the inbound. -/
def CredentialKinds.takesPassword (kinds : CredentialKinds) : Bool :=
  kinds.trojanPassword || kinds.plainPassword || kinds.tuic || kinds.anytlsPassword || kinds.naiveBasic ||
    kinds.shadowsocksPsk.isLen

/-- The credential fields a caller may set, for use in error messages. -/
def CredentialKinds.acceptedFields (kinds : CredentialKinds) : String :=
  if kinds.tuic then "`uuid` and `password`"
  else
    let fields := (if kinds.uuid then ["`uuid`"] else []) ++ (if kinds.takesPassword then ["`password`"] else [])
    if fields.isEmpty then "nothing" else " or ".intercalate fields

/-- The indexed forms of a credential, one per protocol index of the registry. -/
inductive Kind
  | uuid
  | trojan
  | password
  | psk
  | anytls
  | naive
deriving DecidableEq

/-- The key type of an index. -/
@[reducible] def Kind.Key : Kind → Type
  | .password => String
  | _ => Bytes

instance (k : Kind) : DecidableEq k.Key :=
  match k with
  | .uuid => inferInstanceAs (DecidableEq Bytes)
  | .trojan => inferInstanceAs (DecidableEq Bytes)
  | .password => inferInstanceAs (DecidableEq String)
  | .psk => inferInstanceAs (DecidableEq Bytes)
  | .anytls => inferInstanceAs (DecidableEq Bytes)
  | .naive => inferInstanceAs (DecidableEq Bytes)

/-- Whether a registry of these kinds allocates the index. -/
def CredentialKinds.indexes (kinds : CredentialKinds) : Kind → Bool
  | .uuid => kinds.uuid
  | .trojan => kinds.trojanPassword
  | .password => kinds.plainPassword
  | .psk => kinds.shadowsocksPsk.isLen
  | .anytls => kinds.anytlsPassword
  | .naive => kinds.naiveBasic

/-- The derivations of `shoes::dynamic::credential`. -/
structure Derivations where
  parseUuid : String → Except String Bytes
  decodeShadowsocksPsk : String → Except String Bytes
  shadowsocksPskHash : Bytes → Bytes
  trojanPasswordHash : String → Bytes
  passwordSha256 : String → Bytes
  passwordSha256Prefix : Bytes → Bytes
  naiveBasicCredential : String → String → Bytes
  /-- What `VmessAuthKey::new(uuid).open(auth_id)` returns. -/
  vmessOpen : Bytes → Bytes → Option UInt64
  vmessInstructionKey : Bytes → Bytes

structure ShadowsocksCredential where
  hash : Bytes
  psk : Bytes
deriving DecidableEq

/-- The wire-form credentials of one user, already converted to index keys. -/
structure Credentials where
  uuid : Option Bytes
  trojanHash : Option Bytes
  password : Option String
  shadowsocks : Option ShadowsocksCredential
  tuicPassword : Option String
  anytlsHash : Option Bytes
  naiveEncoded : Option Bytes
deriving DecidableEq

/-- The key that a user presents to an index. -/
def Credentials.key (credentials : Credentials) : (k : Kind) → Option k.Key
  | .uuid => credentials.uuid
  | .trojan => credentials.trojanHash
  | .password => credentials.password
  | .psk => credentials.shadowsocks.map ShadowsocksCredential.hash
  | .anytls => credentials.anytlsHash
  | .naive => credentials.naiveEncoded

def parseShadowsocks (d : Derivations) (kinds : CredentialKinds) (spec : UserSpec) :
    Except EngineError (Option ShadowsocksCredential) :=
  match spec.password, kinds.shadowsocksPsk with
  | some password, .len n =>
    match d.decodeShadowsocksPsk password with
    | .error e => .error (.invalidUser e)
    | .ok psk =>
      if psk.length ≠ n then
        .error (.invalidUser ("this inbound's cipher needs a " ++ toString n ++
          " byte psk, and `password` base64 decoded to " ++ toString psk.length))
      else .ok (some ⟨d.shadowsocksPskHash psk,psk⟩)
  | _, _ => .ok none

def parseUuidField (d : Derivations) (spec : UserSpec) : Except EngineError (Option Bytes) :=
  match spec.uuid with
  | none => .ok none
  | some uuid =>
    match d.parseUuid uuid with
    | .error e => .error (.invalidUser e)
    | .ok bytes => .ok (some bytes)

/-- Turns a spec's operator-facing credentials into wire-form index keys. -/
def parseCredentials (d : Derivations) (kinds : CredentialKinds) (id : String) (spec : UserSpec) :
    Except EngineError Credentials :=
  if spec.uuid.isSome && !kinds.uuid then
    .error (.invalidUser ("this inbound does not authenticate by uuid; it accepts " ++ kinds.acceptedFields))
  else if spec.password.isSome && !kinds.takesPassword then
    .error (.invalidUser ("this inbound does not authenticate by password; it accepts " ++ kinds.acceptedFields))
  else if spec.uuid.isNone && spec.password.isNone then
    .error (.invalidUser ("user needs a credential: " ++ kinds.acceptedFields))
  else if kinds.tuic && (spec.uuid.isNone || spec.password.isNone) then
    .error (.invalidUser ("a tuic user needs both `uuid` and `password`: the uuid names them " ++
      "on the wire and the password keys the token beside it"))
  else do
    let uuid ← parseUuidField d spec
    let shadowsocks ← parseShadowsocks d kinds spec
    return {
      uuid := uuid
      trojanHash := if kinds.trojanPassword then spec.password.map d.trojanPasswordHash else none
      password := if kinds.plainPassword then spec.password else none
      shadowsocks := shadowsocks
      tuicPassword := if kinds.tuic then spec.password else none
      anytlsHash := if kinds.anytlsPassword then spec.password.map d.passwordSha256 else none
      naiveEncoded := if kinds.naiveBasic then spec.password.map (d.naiveBasicCredential id) else none }

theorem except_bind_ok {ε α β : Type} {x : Except ε α} {f : α → Except ε β} {b : β} (done : x >>= f = .ok b) :
    ∃ a, x = .ok a ∧ f a = .ok b := by
  cases x with
  | error e => cases done
  | ok a => exact ⟨a,rfl,done⟩

/-- Parsed credentials hold keys only for indexes that the registry allocates. -/
theorem parseCredentials_indexed {d : Derivations} {kinds : CredentialKinds} {id : String} {spec : UserSpec}
    {credentials : Credentials} (parsed : parseCredentials d kinds id spec = .ok credentials) (k : Kind)
    (held : (credentials.key k).isSome) : kinds.indexes k := by
  unfold parseCredentials at parsed
  split at parsed
  · cases parsed
  next takesUuid =>
  split at parsed
  · cases parsed
  split at parsed
  · cases parsed
  split at parsed
  · cases parsed
  obtain ⟨uuid,uuidParsed,parsed⟩ := except_bind_ok parsed
  obtain ⟨shadowsocks,pskParsed,parsed⟩ := except_bind_ok parsed
  cases parsed
  cases k with
  | uuid =>
    have given : spec.uuid.isSome := by
      unfold parseUuidField at uuidParsed
      split at uuidParsed
      · cases uuidParsed
        cases held
      · next given => simp [given]
    simpa [given,CredentialKinds.indexes] using takesUuid
  | psk =>
    unfold parseShadowsocks at pskParsed
    split at pskParsed
    · next exact_length => simp [CredentialKinds.indexes,exact_length,ShadowsocksPsk.isLen]
    · cases pskParsed
      cases held
  | trojan | password | anytls | naive =>
    simp only [Credentials.key] at held
    split at held
    · next allowed => exact allowed
    · cases held

end NodeAgent.Credential
