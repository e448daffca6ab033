import NodeAgent.RuleSetFiles
import NodeAgent.FiniteMap
import NodeAgent.Json
import NodeAgent.Transition

/-!
The preparation of rule sets. The bytes of each rule set are validated and put into a snapshot,
a file that is named after a digest of its content; a snapshot that is already there is compared
and not written again. In between other programs change other files, processes end and the power
fails.
-/
namespace NodeAgent.RuleSetSnapshots
open NodeAgent.Fallible NodeAgent.Disks NodeAgent.RuleSetFiles NodeAgent.TopologyDigest NodeAgent.FiniteMap NodeAgent.Json
open NodeAgent.ForwardingPlans (asBytes)
open NodeAgent.Credential (Bytes)

def MAX_RULE_SET_BYTES : Nat := 64 * 1024 * 1024

inductive RuleSetSource
  | local_
  | remote (url : String)
  | inline (bytes : Bytes)

structure RuleSetResource where
  tag : String
  format : String
  path : String
  source : RuleSetSource

/-- What the agent is built from, and where it runs: the digests, the parsers, how a path is quoted
    in an error, the platform, and the pieces in which bytes are handed over. -/
structure Setting where
  base : String
  sha256 : Bytes → Bytes
  /-- The first 16 bytes of the SHA-256 digest of the content of a snapshot. -/
  contentDigest : Bytes → Bytes
  fromSlice : Bytes → Option Value
  quote : String → String
  validateRouteRuleSet : String → Bytes → Except String Unit
  platform : Platform
  pieces : Pieces

/-! ### Validation -/

section Validation
variable (setting : Setting)

def validateEnvelope (format : String) (bytes : Bytes) : Except String Unit :=
  if format = "binary" then
    if bytes.take 3 = asBytes "SRS" ∧ 5 ≤ bytes.length then .ok () else .error "invalid binary SRS header"
  else if format = "source" then
    match setting.fromSlice bytes with
    | none => .error "invalid source JSON"
    | some (.object _) => .ok ()
    | some _ => .error "source rule-set must be a JSON object"
  else .error "unsupported rule-set format"

def validateForRuntime (format : String) (bytes : Bytes) : Except String Unit :=
  match setting.validateRouteRuleSet format bytes with
  | .ok () => .ok ()
  | .error error => .error s!"cannot be used by shoes: {error}"

/-- The two checks that are made of all bytes before they are used. -/
def validate (resource : RuleSetResource) (bytes : Bytes) : Except String Unit :=
  match validateEnvelope setting resource.format bytes with
  | .error error => .error s!"route rule-set {resource.tag}: {error}"
  | .ok () =>
    match validateForRuntime setting resource.format bytes with
    | .error error => .error s!"route rule-set {resource.tag}: {error}"
    | .ok () => .ok ()

end Validation

/-! ### Snapshots -/

def snapshotPathOf (contentDigest : Bytes → Bytes) (root format : String) (bytes : Bytes) : String :=
  root ++ "/" ++ format ++ "-" ++ hexEncode (contentDigest bytes) ++ "." ++ extensionOf format

theorem snapshotPath_eq (sha256 : Bytes → Bytes) (root format : String) (bytes : Bytes) :
    snapshotPath sha256 root format bytes = snapshotPathOf (fun bytes => (sha256 bytes).take 16) root format bytes := rfl

/-- `path.extension()`, for a path that has one. -/
def pathExtension (path : String) : String := String.ofList (path.toList.reverse.takeWhile (fun c => c ≠ '.')).reverse

/-- `metadata(name).is_ok()`, which may fail as every step. -/
def metadataIsOk (name : String) : Program Bool := do
  match ← tolerate (step (fun disk => if (disk name).isSome then .ok disk else missing)) with
  | .ok () => pure true
  | .error _ => pure false

def digestCollision {α : Type} (target tag : String) : Program α := fail (.failed s!"route rule-set {tag} snapshot digest collision at {target}")

/-- What has been read up to an offset is as expected. -/
def verifyFrom (target tag : String) (expected : Bytes) : Nat → List Bytes → Program Unit
  | offset, [] => do
    explain nothing (fun error => s!"read route rule-set {tag} snapshot: {error}")
    if offset = expected.length then pure () else digestCollision target tag
  | offset, chunk :: rest => do
    explain nothing (fun error => s!"read route rule-set {tag} snapshot: {error}")
    if offset + chunk.length ≤ expected.length ∧ chunk = (expected.drop offset).take chunk.length then
      verifyFrom target tag expected (offset + chunk.length) rest
    else digestCollision target tag

/-- The file is read in pieces, none of them empty, until its end. -/
def verifySnapshot (pieces : Pieces) (target : String) (expected : Bytes) (tag : String) : Program Unit := do
  let actual ← explain (readFile target) (fun error => s!"read route rule-set {tag} snapshot: {error}")
  verifyFrom target tag expected 0 ((pieces.split actual).filter (fun chunk => chunk ≠ []))

def publishSnapshot (pieces : Pieces) (pid : Nat) (target : String) (bytes : Bytes) (tag : String) : Program Unit := do
  if ← metadataIsOk target then verifySnapshot pieces target bytes tag
  else
    explain nothing (fun error => s!"create route rule-set snapshot directory: {error}")
    let sequence ← nextNumber
    let temporary := withExtension target s!"{pathExtension target}.{pid}.{sequence}.pending"
    explain (write pieces temporary bytes) (fun error => s!"write route rule-set {tag} snapshot: {error}")
    match ← tolerate (rename temporary target) with
    | .ok () => pure ()
    | .error error =>
      if ← metadataIsOk target then
        ignore (remove temporary)
        verifySnapshot pieces target bytes tag
      else
        ignore (remove temporary)
        fail (.failed s!"publish route rule-set {tag} snapshot: {error}")

/-! ### Preparation -/

/-- `(n as u64).to_be_bytes()`. -/
def beBytes64 (n : Nat) : Bytes := (List.range 8).map (fun i => UInt8.ofNat (n >>> (56 - 8 * i)))

/-- The digest is known by the bytes that it is taken of. -/
structure PreparedRuleSetBuilder where
  digest : Bytes
  pathReplacements : Map String String
  pendingPublications : List PendingPublication

structure PreparedRuleSets where
  digest : Bytes
  pathReplacements : Map String String
  pendingPublications : List PendingPublication

inductive DownloadError
  /-- No response, or a response with an error status. -/
  | request (error : String)
  | body (error : String)

/-- A resource with what happens outside of the agent while it is prepared. -/
structure Attempt where
  resource : RuleSetResource
  cancelled : Bool
  /-- The cache file was changed less than an update interval ago. -/
  young : Bool
  /-- The body or the error of the download; nothing if it is cancelled. -/
  response : Option (Except DownloadError Bytes)

section Preparation
variable (setting : Setting)

def PreparedRuleSetBuilder.push (pid : Nat) (self : PreparedRuleSetBuilder) (resource : RuleSetResource) (bytes : Bytes) (publish : Bool) :
    Program PreparedRuleSetBuilder := do
  match validate setting resource bytes with
  | .error error => fail (.failed error)
  | .ok () =>
    let digest := self.digest ++ beBytes64 (asBytes resource.tag).length ++ asBytes resource.tag ++
      beBytes64 (asBytes resource.format).length ++ asBytes resource.format ++ beBytes64 bytes.length ++ bytes
    let snapshot := snapshotPathOf setting.contentDigest (snapshotRoot setting.base) resource.format bytes
    publishSnapshot setting.pieces pid snapshot bytes resource.tag
    if self.pathReplacements[resource.path]?.any (fun previous => previous ≠ snapshot) then
      fail (.failed s!"route rule-set source path {setting.quote resource.path} resolves to conflicting snapshots")
    else
      pure ⟨digest,self.pathReplacements.insert resource.path snapshot,
        self.pendingPublications ++ if publish then [⟨resource.tag,snapshot,resource.path⟩] else []⟩

def PreparedRuleSetBuilder.finish (self : PreparedRuleSetBuilder) : PreparedRuleSets :=
  ⟨setting.sha256 self.digest,self.pathReplacements,self.pendingPublications⟩

def readResource (resource : RuleSetResource) : Program Bytes := do
  let bytes ← explain (readFile resource.path) (fun error => s!"read route rule-set {resource.tag} at {resource.path}: {error}")
  if bytes.length > MAX_RULE_SET_BYTES then fail (.failed s!"route rule-set {resource.tag} exceeds {MAX_RULE_SET_BYTES} bytes")
  else pure bytes

def cacheIsFresh (path : String) (young : Bool) : Program Bool := do
  let present ← metadataIsOk path
  pure (present && young)

/-- What a download gives: its body, if that is not too long and is valid. -/
def fetch (resource : RuleSetResource) (response : Except DownloadError Bytes) : Except String Bytes :=
  match response with
  | .error (.request error) => .error s!"download route rule-set {resource.tag}: {error}"
  | .error (.body error) => .error s!"read route rule-set {resource.tag}: {error}"
  | .ok bytes =>
    if bytes.length > MAX_RULE_SET_BYTES then .error s!"route rule-set {resource.tag} exceeds {MAX_RULE_SET_BYTES} bytes"
    else
      match validate setting resource bytes with
      | .error error => .error error
      | .ok () => .ok bytes

def prepareRemote (attempt : Attempt) : Program (Bytes × Bool) := do
  recoverInterruptedPublication attempt.resource.path attempt.resource.tag
  if ← cacheIsFresh attempt.resource.path attempt.young then
    let bytes ← readResource attempt.resource
    pure (bytes,false)
  else
    let cached ← metadataIsOk attempt.resource.path
    match attempt.response with
    | none => fail (.failed "route rule-set preparation cancelled")
    | some response =>
      match fetch setting attempt.resource response with
      | .ok bytes => pure (bytes,true)
      | .error error =>
        if cached then
          let bytes ← readResource attempt.resource
          pure (bytes,false)
        else fail (.failed error)

/-- The bytes of a resource, and whether they are new. -/
def bytesOf (attempt : Attempt) : Program (Bytes × Bool) :=
  match attempt.resource.source with
  | .local_ => do
    let bytes ← readResource attempt.resource
    pure (bytes,false)
  | .remote _ => prepareRemote setting attempt
  | .inline bytes => pure (bytes,false)

def prepareOne (pid : Nat) (builder : PreparedRuleSetBuilder) (attempt : Attempt) : Program PreparedRuleSetBuilder :=
  if attempt.cancelled then fail (.failed "route rule-set preparation cancelled")
  else do
    let (bytes,publish) ← bytesOf setting attempt
    builder.push setting pid attempt.resource bytes publish

def prepareWithCancel (pid : Nat) (attempts : List Attempt) (cancelled : Bool) : Program PreparedRuleSets := do
  let builder ← foldEach (prepareOne setting pid) ⟨[],∅,[]⟩ attempts
  if cancelled then fail (.failed "route rule-set preparation cancelled")
  else pure (builder.finish setting)

def commit (pid : Nat) (prepared : PreparedRuleSets) : Program Unit :=
  forEach prepared.pendingPublications (commitCandidate setting.platform setting.pieces pid)

end Preparation

/-! ### Runs -/

/-- In the directory of the snapshots. -/
def Inside (base name : String) : Prop := (snapshotRoot base ++ "/").toList <+: name.toList

instance (base name : String) : Decidable (Inside base name) := inferInstanceAs (Decidable (_ <+: _))

/-- What the planning of resources promises: one of the two formats, and the cache file that
    belongs to the URL. -/
def planned (setting : Setting) (resource : RuleSetResource) : Bool :=
  (resource.format = "source" || resource.format = "binary") &&
    match resource.source with
    | .remote url => resource.path = cachePath setting.sha256 setting.base resource.tag resource.format url
    | _ => true

/-- The files, and what the process knows, if there is one. -/
structure World where
  disk : Disk
  pid : Option Nat
  counter : Nat
  prepared : List PreparedRuleSets

inductive Action
  /-- A process starts. -/
  | start (pid : Nat)
  | prepare (attempts : List Attempt) (cancelled : Bool) (fates : List Fate)
  | commit (index : Nat) (fates : List Fate)
  /-- Another program changes a file that is not in the directory of the snapshots. -/
  | elsewhere (name : String) (file : Option File)
  /-- The power fails; of every file that is not durable some bytes are left. -/
  | powerLoss (left : String → Nat)

/-- What a power loss leaves. -/
def torn (left : String → Nat) (disk : Disk) : Disk := fun name =>
  (disk name).map (fun file => if file.durable then file else ⟨file.content.take (left name),true⟩)

/-- Every power loss leaves some bytes of each file. -/
theorem powerLoss_iff_torn {before after : Disk} : PowerLoss before after ↔ ∃ left, torn left before = after := by
  constructor
  · intro lost
    refine ⟨fun name => ((after name).map (fun file => file.content.length)).getD 0,funext (fun name => ?_)⟩
    rcases lost name with ⟨gone,gone'⟩ | ⟨file,file',here,there,durable,kept⟩
    · rw [torn,gone,gone']
      rfl
    · obtain ⟨content,durable'⟩ := file'
      obtain rfl : durable' = true := durable
      rw [torn,here,there]
      dsimp only [Option.map_some,Option.getD_some]
      split
      · next whole =>
        rw [if_pos whole] at kept
        cases file
        cases whole
        cases kept
        rfl
      · next cut =>
        rw [if_neg cut] at kept
        rw [← List.prefix_iff_eq_take.mp kept]
  · rintro ⟨left,rfl⟩ name
    cases here : before name with
    | none => exact .inl ⟨rfl,by rw [torn,here]; rfl⟩
    | some file =>
      refine .inr ⟨file,_,rfl,by rw [torn,here]; rfl,?_⟩
      dsimp only
      by_cases whole : file.durable = true
      · rw [if_pos whole]
        exact ⟨whole,by rw [if_pos whole]⟩
      · rw [if_neg whole]
        exact ⟨rfl,by rw [if_neg whole]; exact List.take_prefix ..⟩

/-- The end of the process is the end of what it knows. -/
def World.after {α : Type} (w : World) (ran : Except Failure α × Machine) (prepared : α → List PreparedRuleSets) : World :=
  match ran with
  | (.ok a,m) => { w with disk := m.disk, counter := m.counter, prepared := w.prepared ++ prepared a }
  | (.error (.failed _),m) => { w with disk := m.disk, counter := m.counter }
  | (.error .crashed,m) => ⟨m.disk,none,0,[]⟩

/-- One step of the agent and of what is around it. -/
def worldStep (setting : Setting) (w : World) : Action → Option World
  | .start pid => if w.pid = none then some { w with pid := some pid, counter := 0 } else none
  | .prepare attempts cancelled fates =>
    match w.pid with
    | none => none
    | some pid =>
      if attempts.all (fun attempt => planned setting attempt.resource) then
        some (w.after (prepareWithCancel setting pid attempts cancelled ⟨w.disk,fates,w.counter,[]⟩) (fun prepared => [prepared]))
      else none
  | .commit index fates =>
    match w.pid, w.prepared[index]? with
    | some pid,some prepared => some (w.after (RuleSetSnapshots.commit setting pid prepared ⟨w.disk,fates,w.counter,[]⟩) (fun _ => []))
    | _,_ => none
  | .elsewhere name file => if Inside setting.base name then none else some { w with disk := w.disk.put name file }
  | .powerLoss left => some ⟨torn left w.disk,none,0,[]⟩

end NodeAgent.RuleSetSnapshots
