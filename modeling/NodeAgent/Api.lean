import Mathlib.Data.UInt

/-!
The values that the engine's methods take and return, and its errors with their
texts.
-/
namespace NodeAgent.Api

structure UserSpec where
  id : Option String
  uuid : Option String
  password : Option String
  enabled : Bool
  maxConns : Option UInt64
  uploadLimitBps : Option UInt64
  downloadLimitBps : Option UInt64
deriving DecidableEq

/-- The identity a user is reported under. -/
def UserSpec.resolvedId (spec : UserSpec) : Option String :=
  match spec.id with
  | some id => some id
  | none => spec.uuid

structure UserInfo where
  id : String
  enabled : Bool
  tx : UInt64
  rx : UInt64
  lastTrafficObservedAtUnixMillis : UInt64
  conns : Nat
  totalConns : Nat
  maxConns : UInt64
  uploadLimitBps : UInt64
  downloadLimitBps : UInt64
deriving DecidableEq

inductive EngineError
  | invalidConfig (msg : String)
  | duplicateTag (tag : String)
  | unknownTag (tag : String)
  | invalidUser (msg : String)
  | duplicateCredential (id owner : String)
  | unknownUser (tag id : String)
  | addressInUse (address tag : String)
  | io (msg : String)
  | unsupported (msg : String)
  | reloadRequired (msg : String)
deriving DecidableEq

/-- `Display for EngineError`. -/
def EngineError.display : EngineError → String
  | .invalidConfig msg => "invalid inbound config: " ++ msg
  | .duplicateTag tag => "inbound tag already registered: " ++ tag
  | .unknownTag tag => "no such inbound tag: " ++ tag
  | .invalidUser msg => "invalid user: " ++ msg
  | .duplicateCredential id owner =>
    "cannot add user " ++ id ++ ": that credential already belongs to user " ++ owner
  | .unknownUser tag id => "no such user on inbound " ++ tag ++ ": " ++ id
  | .addressInUse address tag => "address " ++ address ++ " is already used by inbound " ++ tag
  | .io msg => msg
  | .unsupported msg => "unsupported: " ++ msg
  | .reloadRequired msg => "inbound must be replaced: " ++ msg

/-- `char::is_whitespace`: the Unicode property White_Space. -/
def isWhitespace (c : Char) : Bool :=
  let n := c.val
  (0x9 ≤ n && n ≤ 0xD) || n == 0x20 || n == 0x85 || n == 0xA0 || n == 0x1680 || (0x2000 ≤ n && n ≤ 0x200A) ||
    n == 0x2028 || n == 0x2029 || n == 0x202F || n == 0x205F || n == 0x3000

/-- `s.trim().is_empty()`. -/
def blank (s : String) : Bool := s.toList.all isWhitespace

end NodeAgent.Api
