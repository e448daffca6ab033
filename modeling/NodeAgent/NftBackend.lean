import NodeAgent.NftTables
import NodeAgent.Transition

/-!
The forwarding backend and the kernel it works on. A call takes one look at the tables,
submits one batch, and takes another look when the batch is not acknowledged; where the
kernel refuses one table for both protocols, a second batch tries a table for each. Every
look, and every batch, may fail, and a look may not list the tables of some families.
-/
namespace NodeAgent.NftBackend
open NodeAgent.ForwardingPlans NodeAgent.NftRules NodeAgent.NftTables
open NodeAgent.Credential (Bytes)

/-! ### The kernel -/

/-- A table with its chains and rules. -/
structure KernelTable extends TableState where
  chains : List ChainState
  rules : List RuleState
deriving DecidableEq

structure Kernel where
  tables : List KernelTable
  /-- No handle from here on has been given to a table. -/
  nextHandle : Nat
deriving DecidableEq

/-- A snapshot of the families that can be listed. -/
def Kernel.snapshot (kernel : Kernel) (unavailable : Family → Option Int) : KernelSnapshot :=
  let shown := kernel.tables.filter (fun table => (unavailable table.family).isNone)
  ⟨shown.map KernelTable.toTableState,shown.flatMap KernelTable.chains,shown.flatMap KernelTable.rules,unavailable⟩

def DeleteTable.names (delete : DeleteTable) (table : KernelTable) : Bool :=
  table.family = delete.family && table.name = delete.name && table.handle = delete.handle

/-- The tables that a batch leaves. -/
def Kernel.remaining (kernel : Kernel) (batch : Batch) : List KernelTable :=
  kernel.tables.filter (fun table => !batch.delete.any (fun delete => DeleteTable.names delete table))

/-- Whether a batch can be applied: what it deletes is there, and what it creates is not. -/
def Kernel.accepts (kernel : Kernel) (batch : Batch) : Bool :=
  batch.delete.all (fun delete => kernel.tables.any (DeleteTable.names delete)) &&
    batch.create.all (fun create => (kernel.remaining batch).all (fun table => table.family ≠ create.family || table.name ≠ create.name))

/-- A table as the batch creates it. -/
def DesiredTable.table (create : DesiredTable) (handle : Nat) : KernelTable :=
  { family := create.family
    name := create.name
    handle := handle
    userData := create.tableMarker
    chains := [⟨create.family,create.name,CHAIN_NAME,some "nat",some NF_INET_PRE_ROUTING,some NF_IP_PRI_NAT_DST,some NF_ACCEPT,
      create.chainMarker⟩]
    rules := create.rules.map (fun rule => ⟨create.family,create.name,CHAIN_NAME,rule.expressions,rule.marker⟩) }

def Kernel.commit (kernel : Kernel) (batch : Batch) : Kernel :=
  ⟨kernel.remaining batch ++ batch.create.zipIdx.map (fun (create,index) => DesiredTable.table create (kernel.nextHandle + index)),
    kernel.nextHandle + batch.create.length⟩

/-- What becomes of a batch: whether the kernel applies it, and the error that the agent gets
    all the same, or gets because the kernel refuses it. -/
structure Execution where
  applies : Bool
  failure : Option IoError
  refusal : IoError

def Kernel.execute (kernel : Kernel) (batch : Batch) (execution : Execution) : Except IoError Unit × Kernel :=
  if execution.applies && kernel.accepts batch then
    (match execution.failure with
      | none => .ok ()
      | some error => .error error,kernel.commit batch)
  else (.error (execution.failure.getD execution.refusal),kernel)

/-- The answers to opening a connection and to listing the tables. -/
structure Look where
  opened : Except IoError Unit
  seen : Except IoError (Family → Option Int)

/-- Everything that the kernel may answer in one call. -/
structure Answers where
  first : Look
  commit : Execution
  check : Look
  retry : Look
  recommit : Execution
  recheck : Look

/-! ### The backend -/

structure World where
  managed : Bool
  mode : FamilyMode
  kernel : Kernel

inductive ApplyStateError
  | certain (error : BackendError)
  | unsupported (mode : FamilyMode) (source : IoError)
  | uncertain (error : BackendError)

def capabilityError (mode : FamilyMode) (source : IoError) : BackendError :=
  .capability "linux" "nftables UDP destination-port redirect"
    s!"kernel rejected the {mode.display} NAT representation: {source.text}; enable nf_tables, nft_nat and nft_redir support or use a supported kernel"
    source

def selectMode (mode : FamilyMode) (current : InspectedState) : FamilyMode :=
  if current.complete then current.mode
  else if mode ≠ .unknown then mode
  else if current.mode ≠ .unknown then current.mode
  else if !current.exists_ && current.familyUnavailable .inet then .split
  else .inet

variable (netlink : Netlink) (sha256 : Bytes → Bytes) (tableName : String) (owner : Bytes)

def inspect (kernel : Kernel) (unavailable : Family → Option Int) : Except BackendError InspectedState :=
  inspectSnapshot netlink sha256 tableName owner (kernel.snapshot unavailable)

def inspectFresh (kernel : Kernel) (look : Look) : Except BackendError InspectedState :=
  match look.opened with
  | .error error => .error (.wrapped "open nftables netlink connection for verification" error)
  | .ok () =>
    match look.seen with
    | .error error => .error (.wrapped "inspect nftables state for verification" error)
    | .ok unavailable => inspect netlink sha256 tableName owner kernel unavailable

/-- The plan is in place in the given mode. -/
def World.settle (w : World) (desired : Plan) (mode : FamilyMode) : World :=
  { w with managed := !desired.isEmpty, mode := if desired.isEmpty then w.mode else mode }

def uncertain (submitError : IoError) (verification : Except BackendError InspectedState) : BackendError :=
  .stateUncertain (s!"apply nftables port hopping state: {submitError.text}" ++
    match verification with
    | .error error => s!"; verify state after failed acknowledgement: {error.display}"
    | .ok _ => "")

def shows (verification : Except BackendError InspectedState) (test : InspectedState → Bool) : Bool :=
  match verification with
  | .ok fresh => test fresh
  | .error _ => false

def applyState (w : World) (current : InspectedState) (desired : Plan) (digest : String) (mode : FamilyMode) (execution : Execution)
    (check : Look) : Except ApplyStateError Unit × World :=
  match buildBatch netlink tableName owner current desired digest mode with
  | .error error => (.error (.certain error),w)
  | .ok batch =>
    -- From this point an error can mean either side of an atomic commit.
    let w := { w with managed := current.exists_ || !desired.isEmpty }
    match w.kernel.execute batch execution with
    | (.ok (),kernel) => (.ok (),{ w with kernel := kernel }.settle desired mode)
    | (.error submitError,kernel) =>
      let w := { w with kernel := kernel }
      let verification := inspectFresh netlink sha256 tableName owner kernel check
      if shows verification (fun fresh => fresh.matches mode digest desired.ruleCount) then (.ok (),w.settle desired mode)
      else if !current.exists_ && isCapabilityErrno submitError && shows verification (fun fresh => !fresh.exists_) then
        (.error (.unsupported mode submitError),{ w with managed := false })
      else (.error (.uncertain (uncertain submitError verification)),w)

def afterInet (inetError : IoError) (rest : String) : BackendError :=
  .operation s!"apply nftables inet port hopping state: {inetError.text}; {rest}"

def retrySplit (w : World) (desired : Plan) (digest : String) (inetError : IoError) (answers : Answers) : Except BackendError Unit × World :=
  match answers.retry.opened with
  | .error error => (.error (afterInet inetError s!"reopen before ip+ip6 fallback: {error.text}"),w)
  | .ok () =>
    match answers.retry.seen with
    | .error error => (.error (afterInet inetError s!"inspect before ip+ip6 fallback: {error.text}"),w)
    | .ok unavailable =>
      match inspect netlink sha256 tableName owner w.kernel unavailable with
      | .error error => (.error error,w)
      | .ok current =>
        if current.matches .inet digest desired.ruleCount then (.ok (),{ w with managed := true, mode := .inet })
        else if current.exists_ then
          (.error (afterInet inetError "cannot safely retry with ip+ip6 because nftables state changed after the rejected inet batch"),w)
        else
          match rejectExternalConflicts netlink current.raw tableName desired with
          | .error error => (.error error,w)
          | .ok () =>
            match applyState netlink sha256 tableName owner w current desired digest .split answers.recommit answers.recheck with
            | (.ok (),w) => (.ok (),w)
            | (.error (.unsupported mode source),w) => (.error (capabilityError mode source),w)
            | (.error (.certain error),w) => (.error error,w)
            | (.error (.uncertain error),w) => (.error error,w)

/-- What the first look tells the backend. -/
def World.note (w : World) (current : InspectedState) : World :=
  { w with managed := w.managed || current.exists_, mode := if current.complete then current.mode else w.mode }

/-- The rest of a call, after the first look was inspected and noted. -/
def reconcile (w : World) (current : InspectedState) (desired : Plan) (answers : Answers) : Except BackendError Unit × World :=
  let digest := desired.digest sha256
  let mode := selectMode w.mode current
  if current.matches mode digest desired.ruleCount then (.ok (),w)
  else if desired.isEmpty && !current.exists_ then (.ok (),{ w with managed := false })
  else
    let canFallback := !current.exists_ && w.mode = .unknown && mode = .inet
    match applyState netlink sha256 tableName owner w current desired digest mode answers.commit answers.check with
    | (.ok (),w) => (.ok (),w)
    | (.error (.unsupported mode source),w) =>
      if canFallback then retrySplit netlink sha256 tableName owner w desired digest source answers
      else (.error (capabilityError mode source),w)
    | (.error (.certain error),w) => (.error error,w)
    | (.error (.uncertain error),w) => (.error error,w)

def apply (w : World) (desired : Plan) (answers : Answers) : Except BackendError Unit × World :=
  match answers.first.opened with
  | .error error =>
    if desired.isEmpty && !w.managed && (isPermissionErrno error || isCapabilityErrno error) then (.ok (),w)
    else if isCapabilityErrno error then (.error (capabilityError w.mode error),w)
    else (.error (.wrapped "open nftables netlink connection" error),w)
  | .ok () =>
    match answers.first.seen with
    | .error error =>
      if desired.isEmpty && !w.managed && isPermissionErrno error then (.ok (),w)
      else (.error (.wrapped "inspect nftables state" error),w)
    | .ok unavailable =>
      match inspect netlink sha256 tableName owner w.kernel unavailable with
      | .error error => (.error error,w)
      | .ok current =>
        let w := w.note current
        if desired.isEmpty && w.managed && current.unavailableFor w.mode then
          (.error (.operation s!"cannot verify cleanup of previously managed nftables {w.mode.display} state because its kernel family is unavailable"),w)
        else
          match (if desired.isEmpty then .ok () else rejectExternalConflicts netlink current.raw tableName desired) with
          | .error error => (.error error,w)
          | .ok () => reconcile netlink sha256 tableName owner w current desired answers

end NodeAgent.NftBackend
