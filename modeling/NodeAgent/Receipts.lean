import NodeAgent.FiniteMap

/-!
Final counters that wait for a drain. A record is filed under its accounting identity
and, within it, under the hour of its last observation. Room for an identity is
reserved before any counter is taken, so that filing a receipt cannot fail.
-/
namespace NodeAgent.Receipts
open NodeAgent.FiniteMap

structure TrafficDrainKey where
  inboundTag : String
  nodeId : String
  protocol : String
  userId : String
deriving DecidableEq

def TrafficDrainKey.cmp : TrafficDrainKey → TrafficDrainKey → Ordering :=
  compareLex (compareOn TrafficDrainKey.inboundTag) (compareLex (compareOn TrafficDrainKey.nodeId)
    (compareLex (compareOn TrafficDrainKey.protocol) (compareOn TrafficDrainKey.userId)))

instance : Ord TrafficDrainKey := ⟨TrafficDrainKey.cmp⟩

instance : Std.TransOrd TrafficDrainKey :=
  inferInstanceAs (Std.TransCmp (compareLex (compareOn TrafficDrainKey.inboundTag) (compareLex (compareOn TrafficDrainKey.nodeId)
    (compareLex (compareOn TrafficDrainKey.protocol) (compareOn TrafficDrainKey.userId)))))

instance : Std.LawfulEqOrd TrafficDrainKey where
  eq_of_compare {a b} same := by
    change TrafficDrainKey.cmp a b = .eq at same
    simp only [TrafficDrainKey.cmp,compareLex,compareOn,Ordering.then_eq_eq] at same
    obtain ⟨inboundTag,nodeId,protocol,userId⟩ := same
    cases a
    cases b
    simp only [Std.LawfulEqOrd.compare_eq_iff_eq] at inboundTag nodeId protocol userId
    simp [inboundTag,nodeId,protocol,userId]

structure TrafficDrain where
  inboundTag : String
  nodeId : String
  protocol : String
  userId : String
  uplinkBytes : Nat
  downlinkBytes : Nat
  /-- Nanoseconds since the epoch. -/
  observedAt : Option Int
deriving DecidableEq

def TrafficDrain.key (drain : TrafficDrain) : TrafficDrainKey :=
  ⟨drain.inboundTag,drain.nodeId,drain.protocol,drain.userId⟩

/-- The hour that a record is filed under. -/
def TrafficDrain.hour (drain : TrafficDrain) : Option Int :=
  drain.observedAt.map (fun nanos => nanos / (60 * 60 * 1000000000))

abbrev TrafficDrainEntries := Map TrafficDrainKey (Map (Option Int) TrafficDrain)

/-- One past the largest `u64`. -/
def u64Size : Nat := 2 ^ 64

/-- `u64::saturating_add`. -/
def saturatingAdd (a b : Nat) : Nat := min (a + b) (u64Size - 1)

def latestObservation : Option Int → Option Int → Option Int
  | some left, some right => some (max left right)
  | some left, none => some left
  | none, right => right

/-- The record that takes the bytes of another one in. -/
def TrafficDrain.absorb (existing drain : TrafficDrain) : TrafficDrain :=
  { existing with
    uplinkBytes := saturatingAdd existing.uplinkBytes drain.uplinkBytes
    downlinkBytes := saturatingAdd existing.downlinkBytes drain.downlinkBytes
    observedAt := latestObservation existing.observedAt drain.observedAt }

def mergeTrafficEntry (entries : TrafficDrainEntries) (drain : TrafficDrain) : TrafficDrainEntries :=
  if drain.uplinkBytes = 0 ∧ drain.downlinkBytes = 0 then entries
  else
    let hours := (entries[drain.key]?).getD ∅
    match hours[drain.hour]? with
    | some existing => entries.insert drain.key (hours.insert drain.hour (existing.absorb drain))
    | none => entries.insert drain.key (hours.insert drain.hour drain)

structure PendingTraffic where
  entries : TrafficDrainEntries
  reserved : Map TrafficDrainKey Unit
  maxKeys : Nat

def new (maxKeys : Nat) : PendingTraffic := ⟨∅,∅,maxKeys⟩

/-- Whether the caller owns a new reservation; none is needed for an identity that has
    entries already. -/
def reserve (pending : PendingTraffic) (key : TrafficDrainKey) : Except String (Bool × PendingTraffic) :=
  if (pending.entries[key]?).isSome then .ok (false,pending)
  else if (pending.reserved[key]?).isSome then
    .error ("traffic key for inbound " ++ key.inboundTag ++ " user " ++ key.userId ++ " is already reserved")
  else if pending.maxKeys ≤ pending.entries.size + pending.reserved.size then
    .error ("pending traffic key limit " ++ toString pending.maxKeys ++
      " is full; drain traffic before changing users or inbounds")
  else .ok (true,{ pending with reserved := pending.reserved.insert key () })

def release (pending : PendingTraffic) (key : TrafficDrainKey) : PendingTraffic :=
  { pending with reserved := pending.reserved.erase key }

def mergeReserved (pending : PendingTraffic) (drain : TrafficDrain) (ownsReservation : Bool) : PendingTraffic :=
  let pending := if ownsReservation then release pending drain.key else pending
  { pending with entries := mergeTrafficEntry pending.entries drain }

/-- Every record, in the order of its identity and hour. -/
def records (entries : TrafficDrainEntries) : List TrafficDrain :=
  entries.toList.flatMap (fun entry => entry.2.toList.map Prod.snd)

def drain (pending : PendingTraffic) : List TrafficDrain × PendingTraffic :=
  (records pending.entries,{ pending with entries := ∅ })

end NodeAgent.Receipts
