import Mathlib.Algebra.Order.Ring.Nat
import Mathlib.Data.Nat.Log

/-!
Lengths of protobuf encodings. A field is a key and a value; fields of a scalar type are
left out where they have the default value, and a length-delimited field gives its length as
a varint of seven bits a byte.
-/
namespace NodeAgent.WireLengths

/-- The bytes of a varint. -/
def varintLength (value : Nat) : Nat := Nat.log 2 (max value 1) / 7 + 1

def keyLength (tag : Nat) : Nat := varintLength (tag * 8)

def stringLength (tag : Nat) (value : String) : Nat :=
  if value.utf8ByteSize = 0 then 0 else keyLength tag + varintLength value.utf8ByteSize + value.utf8ByteSize

def uint64Length (tag value : Nat) : Nat := if value = 0 then 0 else keyLength tag + varintLength value

/-- A negative value is encoded as the unsigned value of the same 64 bits. -/
def int64Length (tag : Nat) (value : Int) : Nat :=
  if value = 0 then 0 else keyLength tag + varintLength (value % 18446744073709551616).toNat

def boolLength (tag : Nat) (value : Bool) : Nat := if value then keyLength tag + 1 else 0

/-- A field with a message of the given length. -/
def messageLength (tag length : Nat) : Nat := keyLength tag + varintLength length + length

end NodeAgent.WireLengths
