import NodeAgent.TopologyDigest

/-!
Port forwarding plans. A plan redirects ranges of UDP destination ports to the ports that
nodes listen on; its digest identifies it in the markers of the kernel's rules.
-/
namespace NodeAgent.ForwardingPlans
open NodeAgent.TopologyDigest
open NodeAgent.Credential (Bytes)

/-- One inclusive range of ports. -/
structure PortRange where
  start : UInt16
  stop : UInt16
deriving DecidableEq, Repr

def PortRange.contains (range : PortRange) (port : UInt16) : Bool := range.start ≤ port && port ≤ range.stop

def PortRange.display (range : PortRange) : String :=
  if range.start = range.stop then toString range.start.toNat else s!"{range.start.toNat}-{range.stop.toNat}"

/-- The order of ranges: by their first port, then by their last. -/
def PortRange.cmp (left right : PortRange) : Ordering := (compare left.start right.start).then (compare left.stop right.stop)

structure Redirect where
  nodeId : String
  listenPort : UInt16
  ports : List PortRange
deriving DecidableEq, Repr

structure Plan where
  redirects : List Redirect
deriving DecidableEq, Repr

def Plan.isEmpty (plan : Plan) : Bool := plan.redirects.isEmpty

def Plan.ruleCount (plan : Plan) : Nat := (plan.redirects.map (fun redirect => redirect.ports.length)).sum

/-- `text.as_bytes()`. -/
def asBytes (text : String) : Bytes := text.toUTF8.toList

/-- What the digest of a plan is taken of. -/
def planBytes (plan : Plan) : Bytes :=
  plan.redirects.flatMap (fun redirect =>
    asBytes redirect.nodeId ++ [0] ++ asBytes (toString redirect.listenPort.toNat) ++ [0] ++
      redirect.ports.flatMap (fun range =>
        asBytes (toString range.start.toNat) ++ asBytes "-" ++ asBytes (toString range.stop.toNat) ++ asBytes ",") ++ [0])

def Plan.digest (sha256 : Bytes → Bytes) (plan : Plan) : String := hexEncode (sha256 (planBytes plan))

/-- The first common part of two lists of ranges. -/
def firstOverlap (left right : List PortRange) : Option PortRange :=
  left.findSome? (fun first => right.findSome? (fun second =>
    let start := max first.start second.start
    let stop := min first.stop second.stop
    if start ≤ stop then some ⟨start,stop⟩ else none))

theorem ruleCount_of_isEmpty {plan : Plan} (empty : plan.isEmpty = true) : plan.ruleCount = 0 := by
  rw [Plan.isEmpty,List.isEmpty_iff] at empty
  rw [Plan.ruleCount,empty]
  rfl

end NodeAgent.ForwardingPlans
