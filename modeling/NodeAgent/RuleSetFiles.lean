import NodeAgent.Disks
import NodeAgent.ForwardingPlans

/-!
The files of remote rule sets. A rule set is kept in a cache file of its own; what a
transaction uses is a snapshot whose name is a digest of its content. A downloaded candidate is
put in the place of the cache file when the transaction has been committed.
-/
namespace NodeAgent.RuleSetFiles
open NodeAgent.Fallible NodeAgent.Disks NodeAgent.TopologyDigest
open NodeAgent.ForwardingPlans (asBytes)
open NodeAgent.Credential (Bytes)

/-! ### Names -/

/-- `path.with_extension(extension)`, for a path that has an extension. -/
def withExtension (path extension : String) : String :=
  String.ofList ((path.toList.reverse.dropWhile (fun c => c ≠ '.')).drop 1).reverse ++ "." ++ extension

def safeRuleSetTag (tag : String) : String :=
  let safe := (tag.toList.map (fun character =>
    if character.isAlphanum || character = '-' || character = '_' || character = '.' then character else '_')).take 48
  if safe.isEmpty then "rules" else String.ofList safe

def ruleSetsPath (base : String) : String := base ++ "/runtime/rule-sets/"

def snapshotRoot (base : String) : String := ruleSetsPath base ++ "snapshots"

def extensionOf (format : String) : String := if format = "binary" then "srs" else "json"

section Paths
variable (sha256 : Bytes → Bytes)

/-- The path of the cache file up to its extension. -/
def cacheStem (base tag format url : String) : String :=
  ruleSetsPath base ++ safeRuleSetTag tag ++ "-" ++ hexEncode ((sha256 (asBytes (format ++ "\x00" ++ url))).take 8)

def cachePath (base tag format url : String) : String := cacheStem sha256 base tag format url ++ "." ++ extensionOf format

def snapshotPath (root format : String) (bytes : Bytes) : String :=
  root ++ "/" ++ format ++ "-" ++ hexEncode ((sha256 bytes).take 16) ++ "." ++ extensionOf format

end Paths

/-! ### Publication -/

inductive Platform
  | unix
  | windows
deriving DecidableEq

structure PendingPublication where
  tag : String
  snapshot : String
  target : String

/-- A condition before an operation without a result. -/
def onlyIf (condition : Bool) (p : Program Unit) : Program Unit := if condition then p else pure ()

/-- The name under which a cache file is put aside. -/
def backupOf (target : String) : String := withExtension target "previous"

def recoverFrom (backup target tag : String) : Program Unit := do
  if !(← exists_ backup) then pure ()
  else if ← exists_ target then
    explain (remove backup) (fun error => s!"remove completed route rule-set {tag} cache backup: {error}")
  else
    explain (rename backup target) (fun error => s!"restore interrupted route rule-set {tag} cache: {error}")

def recoverInterruptedPublication (target tag : String) : Program Unit := recoverFrom (backupOf target) target tag

/-- The publication on Windows, where no file can be renamed to the name of another one. -/
def publishAside (backup temporary target tag : String) : Program Unit := do
  recoverFrom backup target tag
  let hadTarget ← exists_ target
  onlyIf hadTarget (explain (rename target backup) (fun error => s!"stage existing route rule-set {tag} cache: {error}"))
  match ← tolerate (rename temporary target) with
  | .error publishError =>
    match ← (if hadTarget then tolerate (rename backup target) else pure (.ok ())) with
    | .error restoreError => fail (.failed s!"publish route rule-set {tag} cache: {publishError}; restore previous cache: {restoreError}")
    | .ok () => fail (.failed s!"publish route rule-set {tag} cache: {publishError}")
  | .ok () => onlyIf hadTarget (explain (remove backup) (fun error => s!"remove previous route rule-set {tag} cache: {error}"))

def publishCache (platform : Platform) (temporary target tag : String) : Program Unit :=
  match platform with
  | .unix => explain (rename temporary target) (fun error => s!"publish route rule-set {tag} cache: {error}")
  | .windows => publishAside (backupOf target) temporary target tag

/-- Directories are not files; syncing one may fail. -/
def syncParent (platform : Platform) (tag : String) : Program Unit :=
  match platform with
  | .unix => explain nothing (fun error => s!"sync route rule-set {tag} cache directory: {error}")
  | .windows => pure ()

/-- If the operation fails, the temporary file is removed. -/
def orRemove (temporary : String) (p : Program Unit) (text : String → String) : Program Unit := do
  match ← tolerate p with
  | .error error => do
    ignore (remove temporary)
    fail (.failed (text error))
  | .ok () => pure ()

def commitCandidate (platform : Platform) (pieces : Pieces) (pid : Nat) (publication : PendingPublication) : Program Unit := do
  recoverInterruptedPublication publication.target publication.tag
  explain nothing (fun error => s!"create rule-set cache directory: {error}")
  let sequence ← nextNumber
  let temporary := withExtension publication.target s!"{pid}.{sequence}.commit"
  let source ← explain (readFile publication.snapshot) (fun error => s!"open route rule-set {publication.tag} candidate: {error}")
  explain (create temporary) (fun error => s!"create route rule-set {publication.tag} cache candidate: {error}")
  orRemove temporary (copyAll temporary (pieces.split source)) (fun error => s!"write route rule-set {publication.tag} cache candidate: {error}")
  orRemove temporary nothing (fun error => s!"flush route rule-set {publication.tag} cache candidate: {error}")
  orRemove temporary (sync temporary) (fun error => s!"sync route rule-set {publication.tag} cache candidate: {error}")
  orRemove temporary (publishCache platform temporary publication.target publication.tag) id
  syncParent platform publication.tag

/-! ### Runs -/

/-- One commit, in the process of the last one or in another: what is found under the name of the
    snapshot, and what becomes of the steps. -/
structure Call where
  bytes : Bytes
  candidate : Option File
  pid : Nat
  sequence : Nat
  fates : List Fate

section Runs
variable (sha256 : Bytes → Bytes) (base tag format url : String) (platform : Platform) (pieces : Pieces)

/-- The publication of a snapshot in the cache file of its rule set. -/
def publicationOf (bytes : Bytes) : PendingPublication where
  tag := tag
  snapshot := snapshotPath sha256 (snapshotRoot base) format bytes
  target := cachePath sha256 base tag format url

def runCall (call : Call) (m : Machine) : Except Failure Unit × Machine :=
  let publication := publicationOf sha256 base tag format url call.bytes
  commitCandidate platform pieces call.pid publication
    { m with disk := m.disk.put publication.snapshot call.candidate, counter := call.sequence, fates := call.fates }

/-- The results of all calls, and what they leave. -/
def runCalls : List Call → Machine → List (Except Failure Unit) × Machine
  | [], m => ([],m)
  | call :: rest, m =>
    let first := runCall sha256 base tag format url platform pieces call m
    let others := runCalls rest first.2
    (first.1 :: others.1,others.2)

/-- A recovery after which no step fails. -/
def recoverAfter (m : Machine) : Except Failure Unit × Machine :=
  recoverInterruptedPublication (cachePath sha256 base tag format url) tag { m with fates := [] }

end Runs

end NodeAgent.RuleSetFiles
