import NodeAgent.ForwardingPlans

/-!
The rules of the forwarding tables: the expressions that redirect a range of ports, the
reader that recognises them, and the markers in the user data of tables, chains and rules
that tell whose they are.
-/
namespace NodeAgent.NftRules
open NodeAgent.TopologyDigest NodeAgent.ForwardingPlans
open NodeAgent.Credential (Bytes)

/-! ### Expressions -/

/-- A register by its number. -/
structure Register where
  number : UInt32
deriving DecidableEq

def Register.verdict : Register := ⟨0⟩
def Register.reg1 : Register := ⟨1⟩
def Register.reg2 : Register := ⟨2⟩

/-- A comparison operator by its number. -/
structure Operator where
  number : UInt32
deriving DecidableEq

def Operator.equal : Operator := ⟨0⟩

inductive Verdict
  | jump
  | goto
  | other (code : Int)
deriving DecidableEq

inductive VerdictAttribute
  | code (verdict : Verdict)
  | chain (name : String)
  | other
deriving DecidableEq

inductive DataAttribute
  | value (bytes : Bytes)
  | verdict (attributes : List VerdictAttribute)
  | other
deriving DecidableEq

inductive MetaKey
  | l4Proto
  | other (key : UInt32)
deriving DecidableEq

inductive Meta
  | key (key : MetaKey)
  | destinationRegister (register : Register)
  | other
deriving DecidableEq

inductive Cmp
  | sourceRegister (register : Register)
  | op (operator : Operator)
  | data (data : DataAttribute)
  | other
deriving DecidableEq

inductive Payload
  | destinationRegister (register : Register)
  | base (base : UInt32)
  | offset (offset : UInt32)
  | len (len : UInt32)
  | other
deriving DecidableEq

inductive Immediate
  | destinationRegister (register : Register)
  | data (data : DataAttribute)
  | other
deriving DecidableEq

/-- An attribute that the netlink library does not know. -/
structure DefaultNla where
  kind : UInt16
  value : Bytes
deriving DecidableEq

inductive Expressions
  | metaLoad (attributes : List Meta)
  | cmp (attributes : List Cmp)
  | payload (attributes : List Payload)
  | immediate (attributes : List Immediate)
  | other (expressionType : String) (attributes : List DefaultNla)
deriving DecidableEq

inductive ExpressionAttribute
  | data (data : Expressions)
  | other
deriving DecidableEq

/-- An element of a rule's list of expressions. -/
inductive ListAttribute
  | element (attributes : List ExpressionAttribute)
  | other
deriving DecidableEq

/-- An expression as an element of a list: its name and its data. -/
def Expressions.element (expression : Expressions) : ListAttribute := .element [.other,.data expression]

def IPPROTO_UDP : UInt8 := 17
def PAYLOAD_BASE_TRANSPORT_HEADER : UInt32 := 2
def NF_NAT_RANGE_PROTO_SPECIFIED : UInt32 := 2
def NLA_F_NESTED : UInt16 := 0x8000
def NLA_TYPE_MASK : UInt16 := 0x3fff

/-- `port.to_be_bytes()`. -/
def beBytes16 (port : UInt16) : Bytes := [(port >>> 8).toUInt8,port.toUInt8]

/-- `u16::from_be_bytes`. -/
def fromBeBytes16 (high low : UInt8) : UInt16 := high.toUInt16 <<< 8 ||| low.toUInt16

def beBytes32 (value : UInt32) : Bytes :=
  [(value >>> 24).toUInt8,(value >>> 16).toUInt8,(value >>> 8).toUInt8,value.toUInt8]

def fromBeBytes32 (a b c d : UInt8) : UInt32 := a.toUInt32 <<< 24 ||| b.toUInt32 <<< 16 ||| c.toUInt32 <<< 8 ||| d.toUInt32

def rawExpression (expressionType : String) (attributes : List DefaultNla) : ListAttribute := (Expressions.other expressionType attributes).element

def beU32Attr (kind : UInt16) (value : UInt32) : DefaultNla := ⟨kind,beBytes32 value⟩

/-- The netlink library: the bytes of a value as an attribute of the data of an expression, and
    the kinds and values of the attributes in a buffer, up to the first that is malformed. -/
structure Netlink where
  emitValue : Bytes → Bytes
  nlas : Bytes → List (Option (UInt16 × Bytes))

variable (netlink : Netlink)

def nestedDataAttr (kind : UInt16) (value : Bytes) : DefaultNla := ⟨kind ||| NLA_F_NESTED,netlink.emitValue value⟩

/-- The expressions of a rule that redirects the ports to the target. -/
def redirectExpressions (ports : PortRange) (target : UInt16) : List ListAttribute :=
  [(Expressions.metaLoad [.key .l4Proto,.destinationRegister .reg1]).element,
    (Expressions.cmp [.sourceRegister .reg1,.op .equal,.data (.value [IPPROTO_UDP])]).element,
    (Expressions.payload [.destinationRegister .reg1,.base PAYLOAD_BASE_TRANSPORT_HEADER,.offset 2,.len 2]).element] ++
  (if ports.start = ports.stop then
    [(Expressions.cmp [.sourceRegister .reg1,.op .equal,.data (.value (beBytes16 ports.start))]).element]
  else
    [rawExpression "range" [beU32Attr 1 Register.reg1.number,beU32Attr 2 Operator.equal.number,nestedDataAttr netlink 3 (beBytes16 ports.start),
      nestedDataAttr netlink 4 (beBytes16 ports.stop)]]) ++
  [(Expressions.immediate [.destinationRegister .reg2,.data (.value (beBytes16 target))]).element,
    rawExpression "redir" [beU32Attr 1 Register.reg2.number]]

/-! ### Reading expressions -/

def expressionData : ListAttribute → Option Expressions
  | .element attributes => attributes.findSome? (fun attr => match attr with
    | .data data => some data
    | .other => none)
  | .other => none

/-- Folds over attributes; an attribute that `visit` refuses ends it without a result. -/
def readAttributes {α β : Type} (visit : β → α → Option β) : β → List α → Option β
  | found, [] => some found
  | found, attr :: rest =>
    match visit found attr with
    | some found' => readAttributes visit found' rest
    | none => none

def metaLoadsL4proto (expression : Expressions) (register : Register) : Bool :=
  match expression with
  | .metaLoad attributes =>
    match readAttributes (fun (key,destination) attr => match attr with
      | Meta.key .l4Proto => some (true,destination)
      | .destinationRegister found => if found = register then some (key,true) else none
      | _ => none) (false,false) attributes with
    | some (key,destination) => key && destination
    | none => false
  | _ => false

def cmpEquals (expression : Expressions) (register : Register) (expected : Bytes) : Bool :=
  match expression with
  | .cmp attributes =>
    match readAttributes (fun (source,equal,data) attr => match attr with
      | Cmp.sourceRegister found => if found = register then some (true,equal,data) else none
      | .op operator => if operator = .equal then some (source,true,data) else none
      | .data (.value value) => some (source,equal,some value)
      | _ => none) (false,false,none) attributes with
    | some (source,equal,data) => source && equal && data == some expected
    | none => false
  | _ => false

def payloadLoadsDport (expression : Expressions) (register : Register) : Bool :=
  match expression with
  | .payload attributes =>
    match readAttributes (fun (destination,base,offset,length) attr => match attr with
      | Payload.destinationRegister found => if found = register then some (true,base,offset,length) else none
      | .base value => if value = PAYLOAD_BASE_TRANSPORT_HEADER then some (destination,true,offset,length) else none
      | .offset value => if value = 2 then some (destination,base,true,length) else none
      | .len value => if value = 2 then some (destination,base,offset,true) else none
      | _ => none) (false,false,false,false) attributes with
    | some (destination,base,offset,length) => destination && base && offset && length
    | none => false
  | _ => false

def cmpEqualData (expression : Expressions) (register : Register) : Option Bytes :=
  match expression with
  | .cmp attributes =>
    match readAttributes (fun (source,op,data) attr => match attr with
      | Cmp.sourceRegister value => some (some value,op,data)
      | .op value => some (source,some value,data)
      | .data (.value value) => some (source,op,some value)
      | _ => none) ((none : Option Register),(none : Option Operator),(none : Option Bytes)) attributes with
    | some (source,op,some data) => if source = some register ∧ op = some .equal then some data else none
    | _ => none
  | _ => none

/-- `attr.kind() & NLA_TYPE_MASK`. -/
def nlaKind (attr : DefaultNla) : UInt16 := attr.kind &&& NLA_TYPE_MASK

def readBeU32 : Bytes → Option UInt32
  | [a,b,c,d] => some (fromBeBytes32 a b c d)
  | _ => none

def nestedDataValue (value : Bytes) : Option Bytes :=
  let rec search : List (Option (UInt16 × Bytes)) → Option Bytes
    | [] => none
    | none :: _ => none
    | some (kind,data) :: rest => if kind = 1 then some data else search rest
  search (netlink.nlas value)

def parseRangeAttributes (attributes : List DefaultNla) : Option (Register × Operator × Bytes × Bytes) :=
  match readAttributes (fun (source,operator,first,last) (attr : DefaultNla) =>
    if nlaKind attr = 1 then some ((readBeU32 attr.value).map Register.mk,operator,first,last)
    else if nlaKind attr = 2 then some (source,(readBeU32 attr.value).map Operator.mk,first,last)
    else if nlaKind attr = 3 then some (source,operator,nestedDataValue netlink attr.value,last)
    else if nlaKind attr = 4 then some (source,operator,first,nestedDataValue netlink attr.value)
    else none) ((none : Option Register),(none : Option Operator),(none : Option Bytes),(none : Option Bytes)) attributes with
  | some (some source,some operator,some first,some last) => some (source,operator,first,last)
  | _ => none

def portMatch (expression : Expressions) (register : Register) : Option PortRange :=
  match expression with
  | .cmp _ =>
    match cmpEqualData expression register with
    | some [high,low] => if fromBeBytes16 high low ≠ 0 then some ⟨fromBeBytes16 high low,fromBeBytes16 high low⟩ else none
    | _ => none
  | .other expressionType attributes =>
    if expressionType = "range" then
      match parseRangeAttributes netlink attributes with
      | some (source,op,[a,b],[c,d]) =>
        if source ≠ register ∨ op ≠ .equal then none
        else if fromBeBytes16 a b ≠ 0 ∧ fromBeBytes16 a b ≤ fromBeBytes16 c d then some ⟨fromBeBytes16 a b,fromBeBytes16 c d⟩ else none
      | _ => none
    else none
  | _ => none

def immediatePort (expression : Expressions) (register : Register) : Option UInt16 :=
  match expression with
  | .immediate attributes =>
    match readAttributes (fun (destination,data) attr => match attr with
      | Immediate.destinationRegister value => some (some value,data)
      | .data (.value value) => some (destination,some value)
      | _ => none) ((none : Option Register),(none : Option Bytes)) attributes with
    | some (destination,some [high,low]) => if destination = some register then some (fromBeBytes16 high low) else none
    | _ => none
  | _ => none

def redirUses (expression : Expressions) (register : Register) : Bool :=
  match expression with
  | .other expressionType attributes =>
    if expressionType ≠ "redir" then false
    else
      match readAttributes (fun (minimum,maximum,flags) (attr : DefaultNla) =>
        if nlaKind attr = 1 then some ((readBeU32 attr.value).map Register.mk,maximum,flags)
        else if nlaKind attr = 2 then some (minimum,(readBeU32 attr.value).map Register.mk,flags)
        else if nlaKind attr = 3 then some (minimum,maximum,readBeU32 attr.value)
        else none) ((none : Option Register),(none : Option Register),(none : Option UInt32)) attributes with
      | some (minimum,maximum,flags) =>
        minimum == some register && maximum.all (· == register) && flags.all (fun flags => flags == 0 || flags == NF_NAT_RANGE_PROTO_SPECIFIED)
      | none => false
  | _ => false

/-- The ports and the target of a rule that this agent wrote. -/
def managedRedirectRule (expressions : List ListAttribute) : Option (PortRange × UInt16) :=
  match expressions with
  | [first,second,third,fourth,fifth,sixth] => do
    if !metaLoadsL4proto (← expressionData first) .reg1 then none
    if !cmpEquals (← expressionData second) .reg1 [IPPROTO_UDP] then none
    if !payloadLoadsDport (← expressionData third) .reg1 then none
    let ports ← portMatch netlink (← expressionData fourth) .reg1
    let target ← immediatePort (← expressionData fifth) .reg2
    if target = 0 then none
    if !redirUses (← expressionData sixth) .reg2 then none
    return (ports,target)
  | _ => none

/-! ### Attributes in a buffer -/

/-- An attribute: length and kind in the byte order of the host, the value, and zeros up to a
    multiple of four bytes. -/
def emitNla (kind : UInt16) (value : Bytes) : Bytes :=
  let length := 4 + value.length
  let padding := (4 - length % 4) % 4
  [(UInt16.ofNat length).toUInt8,(UInt16.ofNat length >>> 8).toUInt8,kind.toUInt8,(kind >>> 8).toUInt8] ++ value ++ List.replicate padding 0

/-- The attributes in a buffer, up to the first that is malformed; the fuel is the length. -/
def parseNlas : Nat → Bytes → List (Option (UInt16 × Bytes))
  | 0, _ => []
  | _, [] => []
  | fuel + 1, buffer =>
    match buffer with
    | lengthLow :: lengthHigh :: kindLow :: kindHigh :: rest =>
      let length := (lengthHigh.toUInt16 <<< 8 ||| lengthLow.toUInt16).toNat
      if length < 4 ∨ buffer.length < length then [none]
      else
        some ((kindHigh.toUInt16 <<< 8 ||| kindLow.toUInt16) &&& NLA_TYPE_MASK,rest.take (length - 4)) ::
          parseNlas fuel (buffer.drop ((length + 3) / 4 * 4))
    | _ => [none]

/-- A library that lays out attributes as the kernel does. -/
def packetCore : Netlink := ⟨emitNla 1,fun buffer => parseNlas buffer.length buffer⟩

end NodeAgent.NftRules
