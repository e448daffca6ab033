import Mathlib.Data.List.Basic
import Mathlib.Algebra.GroupWithZero.Nat

/-!
JSON values. The entries of an object are kept in the order of their names, and the last
insertion under a name counts.
-/
namespace NodeAgent.Json

inductive Number
  | natural (n : Nat)
  | negative (n : Nat)
  /-- A number with a fraction or an exponent, as it is written. -/
  | float (text : String)
deriving DecidableEq

inductive Value
  | null
  | bool (b : Bool)
  | number (n : Number)
  | string (s : String)
  | array (values : List Value)
  | object (fields : List (String × Value))

abbrev Fields := List (String × Value)

/-- The number as a `u64`. -/
def Number.asU64 : Number → Option Nat
  | .natural n => if n < 2 ^ 64 then some n else none
  | _ => none

/-- The number as an `i64`. -/
def Number.asI64 : Number → Option Int
  | .natural n => if n < 2 ^ 63 then some n else none
  | .negative n => if n ≤ 2 ^ 63 then some (-n) else none
  | .float _ => none

def Value.asStr : Value → Option String
  | .string s => some s
  | _ => none

mutual

def Value.same : Value → Value → Bool
  | .null, .null => true
  | .bool a, .bool b => a = b
  | .number a, .number b => a = b
  | .string a, .string b => a = b
  | .array a, .array b => sameValues a b
  | .object a, .object b => sameFields a b
  | _, _ => false

def sameValues : List Value → List Value → Bool
  | [], [] => true
  | a :: as, b :: bs => a.same b && sameValues as bs
  | _, _ => false

def sameFields : List (String × Value) → List (String × Value) → Bool
  | [], [] => true
  | (k,a) :: as, (l,b) :: bs => k = l && a.same b && sameFields as bs
  | _, _ => false

end

/-! ### Objects -/

def Fields.get : Fields → String → Option Value
  | [], _ => none
  | (k,v) :: rest, name => if k = name then some v else Fields.get rest name

def Fields.insert : Fields → String → Value → Fields
  | [], name, value => [(name,value)]
  | (k,v) :: rest, name, value =>
    if k = name then (name,value) :: rest
    else if name < k then (name,value) :: (k,v) :: rest
    else (k,v) :: Fields.insert rest name value

/-- The entries of a list, the later ones in place of earlier ones of the same name. -/
def Fields.of (entries : List (String × Value)) : Fields := entries.foldl (fun fields entry => Fields.insert fields entry.1 entry.2) []

def Fields.insertSome (fields : Fields) (name : String) : Option Value → Fields
  | some value => Fields.insert fields name value
  | none => fields

def Fields.without (fields : Fields) (name : String) : Fields := fields.filter (fun entry => entry.1 ≠ name)

/-- `value.get(name)`; only an object has entries. -/
def Value.get : Value → String → Option Value
  | .object fields, name => Fields.get fields name
  | _, _ => none

/-- `value[name] = entry` on an object. -/
def Value.set : Value → String → Value → Value
  | .object fields, name, entry => .object (Fields.insert fields name entry)
  | other, _, _ => other

variable {fields : Fields} {name other : String} {value entry : Value}

@[simp] theorem get_insert : Fields.get (Fields.insert fields name value) other = if name = other then some value else Fields.get fields other := by
  induction fields with
  | nil => rfl
  | cons field rest ih =>
    obtain ⟨k,v⟩ := field
    by_cases same : k = name
    · subst same
      simp only [Fields.insert,if_true,Fields.get]
      by_cases found : k = other
      · simp [found]
      · simp [found]
    · by_cases earlier : name < k
      · simp [Fields.insert,same,earlier,Fields.get]
      · simp only [Fields.insert,if_neg same,if_neg earlier,Fields.get,ih]
        by_cases found : k = other
        · subst found
          simp [Ne.symm same]
        · simp [found]

@[simp] theorem get_object : (Value.object fields).get name = Fields.get fields name := rfl

@[simp] theorem set_object : (Value.object fields).set name entry = .object (Fields.insert fields name entry) := rfl

@[simp] theorem get_without : Fields.get (Fields.without fields name) other = if name = other then none else Fields.get fields other := by
  induction fields with
  | nil => simp [Fields.without,Fields.get]
  | cons field rest ih =>
    obtain ⟨k,v⟩ := field
    simp only [Fields.without] at ih
    by_cases same : k = name
    · subst same
      rw [Fields.without,List.filter_cons_of_neg (by simp),ih,Fields.get]
      by_cases found : k = other
      · simp [found]
      · simp [found]
    · rw [Fields.without,List.filter_cons_of_pos (by simpa using same),Fields.get,ih,Fields.get]
      by_cases found : k = other
      · subst found
        simp [Ne.symm same]
      · simp [found]

theorem get_set (object : ∃ fields, entry = .object fields) : (entry.set name value).get other = if name = other then some value else entry.get other := by
  obtain ⟨fields,rfl⟩ := object
  simp

end NodeAgent.Json
