import NodeAgent.CommandExecutor
import NodeAgent.FifoCache
import NodeAgent.KeyedGates

/-!
The store of control acknowledgements: the replay cache of successful commands, and the
execution gates by which worker lanes of all panel sessions take turns on one idempotency key.
-/
namespace NodeAgent.Control
open NodeAgent.FifoCache NodeAgent.KeyedGates

/-! ### Acknowledgements -/

/-- The delivery metadata that the store reads. -/
structure Command where
  commandId : String
  operationId : String
  machineId : String
  nodeId : String
  revision : UInt64
  idempotencyKey : String
deriving DecidableEq

structure Ack where
  commandId : String
  operationId : String
  machineId : String
  nodeId : String
  revision : UInt64
  idempotencyKey : String
  status : AckStatus
  message : String
deriving DecidableEq

/-- `Ack::default()` with a status and a message. -/
def Ack.ofResult (result : TerminalResult) : Ack := ⟨"","","","",0,"",result.status,result.message⟩

def Ack.result (ack : Ack) : TerminalResult := ⟨ack.status,ack.message⟩

structure ExecuteError where
deriving DecidableEq

def ExecuteError.message (_ : ExecuteError) : String := "idempotency key is required"

/-! ### The store -/

/-- `AckStore` with its state; `ι` are the lanes that use it. -/
structure AckStore (ι : Type) where
  cache : Cache String Ack
  gates : Gates String ι
  capacity : Nat

variable {ι : Type} [DecidableEq ι]

def AckStore.withCapacity (capacity : Nat) : AckStore ι := ⟨Cache.empty,Gates.empty,capacity⟩

/-- The gate, and the store with one more reference to it. -/
def AckStore.executionGate (store : AckStore ι) (key : String) (lane : ι) : Nat × AckStore ι :=
  let (gate,gates) := store.gates.enter key lane
  (gate,{ store with gates := gates })

def AckStore.replay (store : AckStore ι) (command : Command) : Except ExecuteError (Option Ack) :=
  if command.idempotencyKey = "" then .error {}
  else .ok (store.cache.seen[command.idempotencyKey]?.map (fun ack =>
    { ack with commandId := command.commandId, operationId := command.operationId }))

/-- The transport fields that `complete` fills in. -/
def Ack.withEnvelope (ack : Ack) (command : Command) : Ack :=
  { ack with
    commandId := command.commandId, operationId := command.operationId, machineId := command.machineId,
    nodeId := command.nodeId, revision := command.revision, idempotencyKey := command.idempotencyKey }

def AckStore.complete (store : AckStore ι) (command : Command) (ack : Ack) : Except ExecuteError Ack × AckStore ι :=
  if command.idempotencyKey = "" then (.error {},store)
  else
    let ack := ack.withEnvelope command
    if ack.status = .failed ∨ ack.status = .rolledBack then (.ok ack,store)
    else (.ok ack,{ store with cache := store.cache.add store.capacity command.idempotencyKey ack })

end NodeAgent.Control
