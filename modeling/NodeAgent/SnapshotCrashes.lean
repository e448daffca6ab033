import NodeAgent.CachePublication
import NodeAgent.RuleSetSnapshots

/-!
Snapshots of rule sets across crashes. A snapshot has the bytes that its name was computed from
as long as no power loss cuts one that was not written back yet; then every preparation from
files that are there and valid works again.
-/
namespace NodeAgent.SnapshotCrashes
open NodeAgent.Fallible NodeAgent.Disks NodeAgent.RuleSetFiles NodeAgent.RuleSetSnapshots NodeAgent.TopologyDigest NodeAgent.FiniteMap
open NodeAgent.Transition
open NodeAgent.CachePublication (extensionOf_plain hexEncode_plain safeRuleSetTag_plain withExtension_named commit_plain named_ne)
open NodeAgent.Credential (Bytes)
open NodeAgent.Json (Value)

/-! ### Names -/

def KnownFormat (format : String) : Prop := format = "source" ∨ format = "binary"

section Names
variable {setting : Setting}

/-- The name of a snapshot. -/
abbrev nameOf (setting : Setting) (format : String) (bytes : Bytes) : String :=
  snapshotPathOf setting.contentDigest (snapshotRoot setting.base) format bytes

theorem nameOf_toList (format : String) (bytes : Bytes) : (nameOf setting format bytes).toList =
    (snapshotRoot setting.base ++ "/").toList ++ (format.toList ++ ('-' :: ((hexEncode (setting.contentDigest bytes)).toList ++ ('.' :: (extensionOf format).toList)))) := by
  simp [nameOf,snapshotPathOf,String.toList_append]

/-- A snapshot name tells the content. -/
theorem nameOf_injective (injective : Function.Injective setting.contentDigest) {format format' : String} {bytes bytes' : Bytes}
    (known : KnownFormat format) (known' : KnownFormat format') (same : nameOf setting format bytes = nameOf setting format' bytes') : bytes = bytes' := by
  have chars := congrArg String.toList same
  rw [nameOf_toList,nameOf_toList] at chars
  have rest := List.append_cancel_left chars
  have formats : format = format' := by
    rcases known with rfl | rfl <;> rcases known' with rfl | rfl
    · rfl
    · exact absurd (congrArg List.head? rest) (by simp)
    · exact absurd (congrArg List.head? rest) (by simp)
    · rfl
  subst formats
  have digests := List.append_cancel_right (List.cons.inj (List.append_cancel_left rest)).2
  exact injective (hexEncode_injective (String.toList_inj.mp digests))

theorem nameOf_inside (format : String) (bytes : Bytes) : Inside setting.base (nameOf setting format bytes) :=
  ⟨_,(nameOf_toList format bytes).symm⟩

theorem nameOf_extension (format other : String) (bytes : Bytes) : withExtension (nameOf setting format bytes) other =
    snapshotRoot setting.base ++ "/" ++ format ++ "-" ++ hexEncode (setting.contentDigest bytes) ++ "." ++ other :=
  withExtension_named (extensionOf_plain format).1

/-- The temporary file of a snapshot. -/
def temporaryName (setting : Setting) (format : String) (bytes : Bytes) (pid sequence : Nat) : String :=
  withExtension (nameOf setting format bytes) s!"{pathExtension (nameOf setting format bytes)}.{pid}.{sequence}.pending"

theorem pending_last (extension : String) (pid sequence : Nat) : (s!"{extension}.{pid}.{sequence}.pending").toList.getLast? = some 'g' := by
  have text : s!"{extension}.{pid}.{sequence}.pending" = extension ++ "." ++ toString pid ++ "." ++ toString sequence ++ ".pendin" ++ "g" := by
    simp [toString,String.append_assoc]
  rw [text,String.toList_append]
  exact List.getLast?_concat ..

theorem temporaryName_inside (format : String) (bytes : Bytes) (pid sequence : Nat) : Inside setting.base (temporaryName setting format bytes pid sequence) := by
  rw [temporaryName,nameOf_extension]
  generalize s!"{pathExtension (nameOf setting format bytes)}.{pid}.{sequence}.pending" = extension
  exact ⟨format.toList ++ ('-' :: ((hexEncode (setting.contentDigest bytes)).toList ++ ('.' :: extension.toList))),by simp [String.toList_append]⟩

/-- No snapshot has the name of a temporary file. -/
theorem temporaryName_ne {format format' : String} (bytes bytes' : Bytes) (pid sequence : Nat) :
    temporaryName setting format bytes pid sequence ≠ nameOf setting format' bytes' := by
  intro same
  have chars := congrArg (fun name : String => name.toList.getLast?) same
  have temporary : (temporaryName setting format bytes pid sequence).toList.getLast? = some 'g' := by
    have last := pending_last (pathExtension (nameOf setting format bytes)) pid sequence
    rw [temporaryName,nameOf_extension]
    generalize s!"{pathExtension (nameOf setting format bytes)}.{pid}.{sequence}.pending" = extension at last
    rw [String.toList_append,List.getLast?_append,last]
    rfl
  have snapshot : (nameOf setting format' bytes').toList.getLast? ≠ some 'g' := by
    rw [nameOf,snapshotPathOf,String.toList_append,List.getLast?_append]
    unfold extensionOf
    split <;> simp
  exact snapshot (chars ▸ temporary)

/-- The cache files are in the directory above. -/
theorem cache_outside {base tag format url extension : String} {sha256 : Bytes → Bytes} (plain : '/' ∉ extension.toList) :
    ¬ Inside base (cacheStem sha256 base tag format url ++ "." ++ extension) := by
  rintro ⟨rest,same⟩
  simp only [snapshotRoot,cacheStem,String.toList_append,List.append_assoc] at same
  have names := List.append_cancel_left same
  have slash : '/' ∈ "snapshots".toList ++ ("/".toList ++ rest) := by simp
  rw [names] at slash
  simp only [List.mem_append] at slash
  rcases slash with safe | dash | hex | dot | last
  · exact safeRuleSetTag_plain tag safe
  · exact absurd dash (by decide)
  · exact hexEncode_plain _ hex
  · exact absurd dot (by decide)
  · exact plain last

end Names

/-! ### Files that are left alone -/

section Spared
variable {names : Set String} {target backup temporary tag : String}

theorem spares_onlyIf {condition : Bool} {p : Program Unit} (spares : Spares names p) : Spares names (onlyIf condition p) := by
  unfold onlyIf
  split
  · exact spares
  · exact Spares.pure ()

theorem spares_orRemove {p : Program Unit} {text : String → String} (away : temporary ∉ names) (spares : Spares names p) :
    Spares names (orRemove temporary p text) := by
  refine Spares.bind (Spares.tolerate spares) ?_
  rintro (error | _)
  · exact Spares.bind (Spares.ignore (Spares.remove away)) (fun _ => Spares.fail _)
  · exact Spares.pure ()

theorem spares_metadataIsOk (name : String) : Spares names (metadataIsOk name) := by
  refine Spares.bind (Spares.tolerate (Spares.step ?_)) ?_
  · intro disk disk' done
    split at done
    · cases done
      exact fun _ _ => rfl
    · cases done
  · rintro (error | _)
    · exact Spares.pure false
    · exact Spares.pure true

theorem spares_verifyFrom (expected : Bytes) (offset : Nat) (chunks : List Bytes) : Spares names (verifyFrom target tag expected offset chunks) := by
  induction chunks generalizing offset with
  | nil =>
    refine Spares.bind (Spares.explain Spares.nothing) ?_
    intro _
    split
    · exact Spares.pure ()
    · exact Spares.fail _
  | cons chunk rest ih =>
    refine Spares.bind (Spares.explain Spares.nothing) ?_
    intro _
    split
    · exact ih _
    · exact Spares.fail _

theorem spares_verifySnapshot (pieces : Pieces) (expected : Bytes) : Spares names (verifySnapshot pieces target expected tag) :=
  Spares.bind (Spares.explain (Spares.readFile target)) (fun _ => spares_verifyFrom expected 0 _)

theorem spares_readResource (resource : RuleSetResource) : Spares names (readResource resource) := by
  refine Spares.bind (Spares.explain (Spares.readFile _)) ?_
  intro bytes
  split
  · exact Spares.fail _
  · exact Spares.pure bytes

variable (away : target ∉ names) (away' : backup ∉ names)
include away away'

theorem spares_recoverFrom : Spares names (recoverFrom backup target tag) := by
  refine Spares.bind (Spares.exists_ backup) ?_
  intro aside
  split
  · exact Spares.pure ()
  · refine Spares.bind (Spares.exists_ target) ?_
    intro present
    split
    · exact Spares.explain (Spares.remove away')
    · exact Spares.explain (Spares.rename away' away)

theorem spares_publishAside (other : temporary ∉ names) : Spares names (publishAside backup temporary target tag) := by
  refine Spares.bind (spares_recoverFrom away away') (fun _ => Spares.bind (Spares.exists_ target) ?_)
  intro hadTarget
  refine Spares.bind (spares_onlyIf (Spares.explain (Spares.rename away away'))) (fun _ => Spares.bind (Spares.tolerate (Spares.rename other away)) ?_)
  rintro (publishError | _)
  · have restores : Spares names (if hadTarget then tolerate (rename backup target) else pure (.ok ())) := by
      split
      · exact Spares.tolerate (Spares.rename away' away)
      · exact Spares.pure _
    refine Spares.bind restores ?_
    rintro (restoreError | _)
    · exact Spares.fail _
    · exact Spares.fail _
  · exact spares_onlyIf (Spares.explain (Spares.remove away'))

end Spared

/-- A commit changes the cache file, the one that is put aside and its temporary file. -/
theorem spares_commitCandidate {names : Set String} (platform : Platform) (pieces : Pieces) (pid : Nat) {publication : PendingPublication}
    (away : publication.target ∉ names) (away' : backupOf publication.target ∉ names)
    (other : ∀ sequence, CachePublication.temporaryOf publication.target pid sequence ∉ names) : Spares names (commitCandidate platform pieces pid publication) := by
  have publishes (sequence : Nat) : Spares names (publishCache platform (CachePublication.temporaryOf publication.target pid sequence) publication.target publication.tag) := by
    cases platform with
    | unix => exact Spares.explain (Spares.rename (other sequence) away)
    | windows => exact spares_publishAside away away' (other sequence)
  have synced : Spares names (syncParent platform publication.tag) := by
    cases platform with
    | unix => exact Spares.explain Spares.nothing
    | windows => exact Spares.pure ()
  refine Spares.bind (spares_recoverFrom away away') (fun _ => Spares.bind (Spares.explain Spares.nothing) (fun _ => Spares.bind Spares.nextNumber ?_))
  intro sequence
  refine Spares.bind (Spares.explain (Spares.readFile _)) (fun source => Spares.bind (Spares.explain (Spares.create (other sequence))) (fun _ => ?_))
  refine Spares.bind (spares_orRemove (other sequence) (Spares.copyAll (other sequence) _)) (fun _ => ?_)
  refine Spares.bind (spares_orRemove (other sequence) Spares.nothing) (fun _ => Spares.bind (spares_orRemove (other sequence) (Spares.sync (other sequence))) (fun _ => ?_))
  exact Spares.bind (spares_orRemove (other sequence) (publishes sequence)) (fun _ => synced)

section Snapshots
variable {setting : Setting}

/-- The names of a cache file, of the one that is put aside and of its temporary files. -/
theorem cache_names_outside (sha256 : Bytes → Bytes) (base tag format url : String) :
    ¬ Inside base (cachePath sha256 base tag format url) ∧ ¬ Inside base (backupOf (cachePath sha256 base tag format url)) ∧
      ∀ pid sequence, ¬ Inside base (CachePublication.temporaryOf (cachePath sha256 base tag format url) pid sequence) := by
  refine ⟨cache_outside (extensionOf_plain format).2,?_,fun pid sequence => ?_⟩
  · rw [backupOf,CachePublication.cacheStem_named]
    exact cache_outside (by decide)
  · rw [CachePublication.temporaryOf,CachePublication.cacheStem_named]
    exact cache_outside (commit_plain pid sequence)

/-- A snapshot is published without a change of other files. -/
theorem spares_publishSnapshot (pieces : Pieces) (pid : Nat) (format tag : String) (bytes : Bytes) :
    Spares {name | ¬ Inside setting.base name} (publishSnapshot pieces pid (nameOf setting format bytes) bytes tag) := by
  have target : nameOf setting format bytes ∉ {name | ¬ Inside setting.base name} := fun outside => outside (nameOf_inside format bytes)
  refine Spares.bind (spares_metadataIsOk _) ?_
  intro present
  split
  · exact spares_verifySnapshot pieces bytes
  · refine Spares.bind (Spares.explain Spares.nothing) (fun _ => Spares.bind Spares.nextNumber ?_)
    intro sequence
    have temporary : temporaryName setting format bytes pid sequence ∉ {name | ¬ Inside setting.base name} :=
      fun outside => outside (temporaryName_inside format bytes pid sequence)
    refine Spares.bind (Spares.explain (Spares.write temporary pieces bytes)) (fun _ => Spares.bind (Spares.tolerate (Spares.rename temporary target)) ?_)
    rintro (error | _)
    · refine Spares.bind (spares_metadataIsOk _) ?_
      intro present
      split
      · exact Spares.bind (Spares.ignore (Spares.remove temporary)) (fun _ => spares_verifySnapshot pieces bytes)
      · exact Spares.bind (Spares.ignore (Spares.remove temporary)) (fun _ => Spares.fail _)
    · exact Spares.pure ()

end Snapshots

/-! ### The invariant -/

/-- Every snapshot has the bytes that its name was computed from. -/
def Immutable (setting : Setting) (disk : Disk) : Prop :=
  ∀ format bytes file, KnownFormat format → disk (nameOf setting format bytes) = some file → file.content = bytes

def snapshotNames (setting : Setting) : Set String := {name | ∃ format bytes, KnownFormat format ∧ name = nameOf setting format bytes}

/-- The publications of a preparation go to cache files. -/
def Targets (setting : Setting) (publications : List PendingPublication) : Prop :=
  ∀ publication ∈ publications, ∃ tag format url, publication.target = cachePath setting.sha256 setting.base tag format url

section Invariant
variable {setting : Setting} {m : Machine}

theorem snapshotNames_inside : snapshotNames setting ⊆ {name | Inside setting.base name} := by
  rintro name ⟨format,bytes,_,rfl⟩
  exact nameOf_inside format bytes

theorem Immutable.same {disk disk' : Disk} (immutable : Immutable setting disk) (same : ∀ name ∈ snapshotNames setting, disk' name = disk name) :
    Immutable setting disk' := by
  intro format bytes file known here
  rw [same _ ⟨format,bytes,known,rfl⟩] at here
  exact immutable format bytes file known here

theorem Immutable.spared {α : Type} {p : Program α} (immutable : Immutable setting m.disk) (spares : Spares (snapshotNames setting) p) :
    Ensures p m (fun _ m' => Immutable setting m'.disk) :=
  Ensures.mono (spares m) (fun _ _ held => immutable.same held.1)

/-- A file with the right content gets the name of a snapshot. -/
theorem Immutable.placed {disk : Disk} {temporary format : String} {bytes : Bytes} {file : File} (immutable : Immutable setting disk)
    (injective : Function.Injective setting.contentDigest) (known : KnownFormat format) (away : temporary ∉ snapshotNames setting) (right : file.content = bytes) :
    Immutable setting ((disk.put temporary none).put (nameOf setting format bytes) (some file)) := by
  intro format' bytes' file' known' here
  by_cases same : nameOf setting format' bytes' = nameOf setting format bytes
  · rw [same,put_same] at here
    cases here
    rw [nameOf_injective injective known' known same]
    exact right
  · have apart : nameOf setting format' bytes' ≠ temporary := fun equal => away ⟨format',bytes',known',equal.symm⟩
    rw [put_other _ _ same,put_other _ _ apart] at here
    exact immutable format' bytes' file' known' here

theorem ensures_write (pieces : Pieces) (name : String) (bytes : Bytes) :
    Ensures (write pieces name bytes) m (fun r m' => r = .ok () → ∃ durable, m'.disk name = some ⟨bytes,durable⟩) := by
  refine Ensures.bind (Q := fun r m' => r = .ok () → m'.disk name = some ⟨[],false⟩) (ensures_step ?_ ?_) ?_ ?_
  · intro disk fates done _
    cases done
    exact put_same ..
  · exact fun _ _ impossible => (by cases impossible)
  · intro _ m' made
    refine Ensures.mono (ensures_pieces (made rfl) (fun piece m content durable here => ensures_append here)) ?_
    intro r m'' grown done
    obtain ⟨durable,there⟩ := grown done
    rw [List.nil_append,pieces.whole] at there
    exact ⟨durable,there⟩
  · exact fun _ _ _ impossible => (by cases impossible)

theorem temporaryName_away (format : String) (bytes : Bytes) (pid sequence : Nat) : temporaryName setting format bytes pid sequence ∉ snapshotNames setting := by
  rintro ⟨format',bytes',_,same⟩
  exact temporaryName_ne bytes bytes' pid sequence same

/-- The publication of a snapshot keeps all snapshots, wherever it fails. -/
theorem publishSnapshot_keeps (injective : Function.Injective setting.contentDigest) (pieces : Pieces) (pid : Nat) {format : String} (known : KnownFormat format)
    (tag : String) (bytes : Bytes) (immutable : Immutable setting m.disk) :
    Ensures (publishSnapshot pieces pid (nameOf setting format bytes) bytes tag) m (fun _ m' => Immutable setting m'.disk) := by
  refine Ensures.bind (immutable.spared (spares_metadataIsOk _)) ?_ (fun _ _ held => held)
  intro present m₁ kept₁
  split
  · exact kept₁.spared (spares_verifySnapshot pieces bytes)
  refine Ensures.bind (kept₁.spared (Spares.explain Spares.nothing)) ?_ (fun _ _ held => held)
  intro _ m₂ kept₂
  refine Ensures.bind (kept₂.spared Spares.nextNumber) ?_ (fun _ _ held => held)
  intro sequence m₃ kept₃
  have away : temporaryName setting format bytes pid sequence ∉ snapshotNames setting := temporaryName_away format bytes pid sequence
  refine Ensures.bind (ensures_explain (R := fun r m' => Immutable setting m'.disk ∧ (r = .ok () → ∃ durable, m'.disk (temporaryName setting format bytes pid sequence) = some ⟨bytes,durable⟩))
    (Ensures.and (kept₃.spared (Spares.write away pieces bytes)) (ensures_write pieces _ bytes)) (fun _ _ held => held)
    (fun _ _ _ held => ⟨held.1,fun impossible => (by cases impossible)⟩)) ?_ (fun _ _ held => held.1)
  rintro _ m₄ ⟨kept₄,written⟩
  obtain ⟨durable,there⟩ := written rfl
  have renamed : Ensures (rename (temporaryName setting format bytes pid sequence) (nameOf setting format bytes)) m₄ (fun _ m' => Immutable setting m'.disk) := by
    refine ensures_step ?_ (fun _ _ => kept₄)
    intro disk fates done
    rw [there] at done
    cases done
    exact kept₄.placed injective known away rfl
  refine Ensures.bind (ensures_tolerate (R := fun _ m' => Immutable setting m'.disk) renamed (fun _ _ held => held) (fun _ _ held => held) (fun _ held => held)) ?_
    (fun _ _ held => held)
  rintro (error | _) m₅ kept₅
  · refine Ensures.bind (kept₅.spared (spares_metadataIsOk _)) ?_ (fun _ _ held => held)
    intro present m₆ kept₆
    split
    · exact kept₆.spared (Spares.bind (Spares.ignore (Spares.remove away)) (fun _ => spares_verifySnapshot pieces bytes))
    · exact kept₆.spared (Spares.bind (Spares.ignore (Spares.remove away)) (fun _ => Spares.fail _))
  · exact kept₅

end Invariant

/-! ### Preparations and commits -/

def IsRemote (resource : RuleSetResource) : Prop := ∃ url, resource.source = .remote url

/-- The resource is remote, and these bytes were downloaded for it. -/
def Downloaded (setting : Setting) (attempt : Attempt) (bytes : Bytes) : Prop :=
  IsRemote attempt.resource ∧ ∃ response, attempt.response = some response ∧ fetch setting attempt.resource response = .ok bytes

section Preparations
variable {setting : Setting} {m : Machine}

theorem planned_format {resource : RuleSetResource} (fine : planned setting resource = true) : KnownFormat resource.format := by
  unfold planned at fine
  rw [Bool.and_eq_true,Bool.or_eq_true,decide_eq_true_eq,decide_eq_true_eq] at fine
  exact fine.1

theorem planned_remote {resource : RuleSetResource} {url : String} (fine : planned setting resource = true) (remote : resource.source = .remote url) :
    resource.path = cachePath setting.sha256 setting.base resource.tag resource.format url := by
  unfold planned at fine
  rw [remote,Bool.and_eq_true,decide_eq_true_eq] at fine
  exact fine.2

theorem spares_bytesOf {attempt : Attempt} (fine : planned setting attempt.resource = true) : Spares {name | Inside setting.base name} (bytesOf setting attempt) := by
  unfold bytesOf
  split
  · exact Spares.bind (spares_readResource _) (fun _ => Spares.pure _)
  · next url remote =>
    have path := planned_remote fine remote
    obtain ⟨away,away',_⟩ := cache_names_outside setting.sha256 setting.base attempt.resource.tag attempt.resource.format url
    rw [← path] at away away'
    refine Spares.bind (spares_recoverFrom away away') (fun _ => Spares.bind (Spares.bind (spares_metadataIsOk _) (fun _ => Spares.pure _)) ?_)
    intro fresh
    split
    · exact Spares.bind (spares_readResource _) (fun _ => Spares.pure _)
    · refine Spares.bind (spares_metadataIsOk _) ?_
      intro cached
      split
      · exact Spares.fail _
      · split
        · exact Spares.pure _
        · split
          · exact Spares.bind (spares_readResource _) (fun _ => Spares.pure _)
          · exact Spares.fail _
  · exact Spares.pure _

/-- Only what is downloaded is published. -/
theorem prepareRemote_publish (attempt : Attempt) :
    Returns (fun (bytes,publish) => publish = true → ∃ response, attempt.response = some response ∧ fetch setting attempt.resource response = .ok bytes)
      (prepareRemote setting attempt) := by
  have kept : Returns (fun (bytes,publish) => publish = true → ∃ response, attempt.response = some response ∧
      fetch setting attempt.resource response = .ok bytes) (readResource attempt.resource >>= fun bytes => pure (bytes,false)) :=
    Returns.bind (fun _ => Returns.pure (fun impossible => (by cases impossible)))
  refine Returns.bind (fun _ => Returns.bind (fun fresh => ?_))
  cases fresh with
  | true => exact kept
  | false =>
    refine Returns.bind (fun cached => ?_)
    split
    · exact Returns.fail _
    · next response asked =>
      split
      · next bytes fetched => exact Returns.pure (fun _ => ⟨response,asked,fetched⟩)
      · cases cached with
        | true => exact kept
        | false => exact Returns.fail _

theorem bytesOf_publish (attempt : Attempt) : Returns (fun (bytes,publish) => publish = true → Downloaded setting attempt bytes) (bytesOf setting attempt) := by
  unfold bytesOf
  split
  · exact Returns.bind (fun _ => Returns.pure (fun impossible => (by cases impossible)))
  · next url remote =>
    intro m
    refine Ensures.mono (prepareRemote_publish attempt m) ?_
    rintro (_ | ⟨bytes,publish⟩) _ held
    · trivial
    · exact fun published => ⟨⟨url,remote⟩,held published⟩
  · exact Returns.pure (fun impossible => (by cases impossible))

variable (injective : Function.Injective setting.contentDigest)
include injective

theorem push_keeps {pid : Nat} {builder : PreparedRuleSetBuilder} {resource : RuleSetResource} {bytes : Bytes} {publish : Bool}
    (fine : planned setting resource = true) (remote : publish = true → ∃ url, resource.source = .remote url)
    (immutable : Immutable setting m.disk) (targets : Targets setting builder.pendingPublications) :
    Ensures (builder.push setting pid resource bytes publish) m (Outcome
      (fun builder m' => Immutable setting m'.disk ∧ Targets setting builder.pendingPublications) (fun _ m' => Immutable setting m'.disk)) := by
  unfold PreparedRuleSetBuilder.push
  split
  · exact immutable
  · refine Ensures.bind (publishSnapshot_keeps injective setting.pieces pid (planned_format fine) resource.tag bytes immutable) ?_ (fun _ _ held => held)
    intro _ m' kept
    split
    · exact kept
    · refine ⟨kept,?_⟩
      intro publication listed
      rcases List.mem_append.mp listed with old | new
      · exact targets publication old
      · cases publish with
        | false => cases new
        | true =>
          obtain ⟨url,isRemote⟩ := remote rfl
          obtain rfl := List.mem_singleton.mp new
          exact ⟨resource.tag,resource.format,url,planned_remote fine isRemote⟩

/-- Wherever it fails, a preparation keeps all snapshots. -/
theorem prepare_keeps {pid : Nat} {attempts : List Attempt} {cancelled : Bool} (fine : ∀ attempt ∈ attempts, planned setting attempt.resource = true)
    (immutable : Immutable setting m.disk) :
    Ensures (prepareWithCancel setting pid attempts cancelled) m (Outcome
      (fun prepared m' => Immutable setting m'.disk ∧ Targets setting prepared.pendingPublications) (fun _ m' => Immutable setting m'.disk)) := by
  have looped : Ensures (foldEach (prepareOne setting pid) ⟨[],∅,[]⟩ attempts) m (Outcome
      (fun builder m' => Immutable setting m'.disk ∧ Targets setting builder.pendingPublications) (fun _ m' => Immutable setting m'.disk)) := by
    refine Ensures.foldEach (fun _ builder m' => Immutable setting m'.disk ∧ Targets setting builder.pendingPublications)
      ⟨immutable,fun _ impossible => (by cases impossible)⟩ ?_ (fun _ _ held => held)
    rintro done attempt rest builder m' split ⟨kept,targets⟩
    have known : planned setting attempt.resource = true := fine attempt (split ▸ List.mem_append_right _ List.mem_cons_self)
    have spared : Spares (snapshotNames setting) (bytesOf setting attempt) := (spares_bytesOf known).fewer snapshotNames_inside
    unfold prepareOne
    split
    · exact kept
    · refine Ensures.bind (Ensures.and (Immutable.spared kept spared) (bytesOf_publish attempt _)) ?_ (fun _ _ held => held.1)
      rintro ⟨bytes,publish⟩ m'' ⟨kept',downloaded⟩
      exact push_keeps injective known (fun published => (downloaded published).1) kept' targets
  refine Ensures.bind looped ?_ (fun _ _ held => held)
  rintro builder m' ⟨kept,targets⟩
  split
  · exact kept
  · exact ⟨kept,targets⟩

omit injective in
theorem commit_keeps {pid : Nat} {prepared : PreparedRuleSets} (targets : Targets setting prepared.pendingPublications) (immutable : Immutable setting m.disk) :
    Ensures (commit setting pid prepared) m (fun _ m' => Immutable setting m'.disk) := by
  refine Ensures.forEach (fun _ m' => Immutable setting m'.disk) immutable ?_ (fun _ held => held)
  intro done publication rest m' split kept
  obtain ⟨tag,format,url,target⟩ := targets publication (split ▸ List.mem_append_right _ List.mem_cons_self)
  obtain ⟨away,away',temporary⟩ := cache_names_outside setting.sha256 setting.base tag format url
  rw [← target] at away away' temporary
  have spared : Spares {name | Inside setting.base name} (commitCandidate setting.platform setting.pieces pid publication) :=
    spares_commitCandidate setting.platform setting.pieces pid away away' (temporary pid)
  refine Ensures.mono (kept.spared (spared.fewer snapshotNames_inside)) ?_
  rintro (_ | _) m'' kept'
  · exact kept'
  · exact kept'

end Preparations

/-! ### Preparations that work -/

/-- The cache file, or the one that was put aside. -/
def found (disk : Disk) (path : String) : Option File := (disk path).or (disk (backupOf path))

/-- The bytes that a local, an inline or a cached resource offers. -/
def Offered (setting : Setting) (disk : Disk) (attempt : Attempt) (bytes : Bytes) : Prop :=
  match attempt.resource.source with
  | .inline own => own = bytes
  | .local_ => ∃ file, disk attempt.resource.path = some file ∧ file.content = bytes ∧ bytes.length ≤ MAX_RULE_SET_BYTES
  | .remote _ =>
    (attempt.young = true ∨ ∃ response error, attempt.response = some response ∧ fetch setting attempt.resource response = .error error) ∧
    ∃ file, found disk attempt.resource.path = some file ∧ file.content = bytes ∧ bytes.length ≤ MAX_RULE_SET_BYTES

/-- Resources that can be prepared from what is there. The contents of the paths are valid, no
    path is read in two formats, and no cache file is put aside under a name that another resource uses. -/
structure Ready (setting : Setting) (disk : Disk) (attempts : List Attempt) (contents : String → Bytes) : Prop where
  planned : ∀ attempt ∈ attempts, planned setting attempt.resource = true
  calm : ∀ attempt ∈ attempts, attempt.cancelled = false
  offered : ∀ attempt ∈ attempts, Offered setting disk attempt (contents attempt.resource.path)
  valid : ∀ attempt ∈ attempts, validate setting attempt.resource (contents attempt.resource.path) = .ok ()
  formats : ∀ attempt ∈ attempts, ∀ other ∈ attempts, attempt.resource.path = other.resource.path → attempt.resource.format = other.resource.format
  outside : ∀ attempt ∈ attempts, attempt.resource.source = .local_ → ¬ Inside setting.base attempt.resource.path
  apart : ∀ attempt ∈ attempts, IsRemote attempt.resource → ∀ other ∈ attempts, other.resource.path ≠ backupOf attempt.resource.path ∧
    (IsRemote other.resource → other.resource.path ≠ attempt.resource.path → backupOf other.resource.path ≠ backupOf attempt.resource.path)

/-- What a recovery leaves. -/
structure Recovered (path : String) (disk disk' : Disk) : Prop where
  target : disk' path = found disk path
  backup : disk' (backupOf path) = none
  others : ∀ name, name ≠ path → name ≠ backupOf path → disk' name = disk name

section Works
variable {setting : Setting} {m : Machine}

theorem works_metadataIsOk (name : String) : Works (metadataIsOk name) m (fun present m' => present = (m.disk name).isSome ∧ m'.disk = m.disk) := by
  cases present : m.disk name with
  | none =>
    refine Works.bind (Works.refused (by rw [present]; rfl)) ?_
    rintro _ m' ⟨rfl,same⟩
    exact Works.pure ⟨rfl,same⟩
  | some file =>
    refine Works.bind (Works.tolerate (Works.step m.disk (by rw [present]; rfl))) ?_
    rintro _ m' ⟨_,rfl,same,_⟩
    exact Works.pure ⟨rfl,same⟩

/-- The comparison succeeds if the chunks are what is expected from the offset on. -/
theorem works_verifyFrom {target tag : String} {expected : Bytes} {offset : Nat} {chunks : List Bytes} (rest : chunks.flatten = expected.drop offset)
    (within : offset ≤ expected.length) : Works (verifyFrom target tag expected offset chunks) m (fun _ _ => True) := by
  induction chunks generalizing offset m with
  | nil =>
    have ended : expected.length ≤ offset := List.drop_eq_nil_iff.mp rest.symm
    refine Works.bind (Works.explain Works.nothing) ?_
    intro _ m' _
    rw [if_pos (Nat.le_antisymm within ended)]
    exact Works.pure trivial
  | cons chunk chunks ih =>
    rw [List.flatten_cons] at rest
    have size := congrArg List.length rest
    rw [List.length_append,List.length_drop] at size
    have expects : chunk = (expected.drop offset).take chunk.length := by
      rw [← rest,List.take_left]
    have later : chunks.flatten = expected.drop (offset + chunk.length) := by
      rw [← List.drop_drop,← rest,List.drop_left]
    have inside : offset + chunk.length ≤ expected.length := by omega
    refine Works.bind (Works.explain Works.nothing) ?_
    intro _ m' _
    rw [if_pos ⟨inside,expects⟩]
    exact ih later inside

theorem works_verifySnapshot (pieces : Pieces) {target tag : String} {file : File} (present : m.disk target = some file) :
    Works (verifySnapshot pieces target file.content tag) m (fun _ _ => True) := by
  refine Works.bind (Works.explain (Works.readFile present)) ?_
  rintro _ m' ⟨rfl,_⟩
  refine works_verifyFrom ?_ (Nat.zero_le _)
  rw [List.flatten_filter_ne_nil,pieces.whole,List.drop_zero]

/-- A snapshot can be published, whether it is there or not. -/
theorem works_publishSnapshot (pieces : Pieces) (pid : Nat) {format : String} (known : KnownFormat format) (tag : String) (bytes : Bytes)
    (immutable : Immutable setting m.disk) : Works (publishSnapshot pieces pid (nameOf setting format bytes) bytes tag) m (fun _ _ => True) := by
  refine Works.bind (works_metadataIsOk _) ?_
  rintro _ m₁ ⟨rfl,same₁⟩
  cases present : m.disk (nameOf setting format bytes) with
  | some file =>
    obtain rfl := immutable format bytes file known present
    exact works_verifySnapshot pieces (same₁ ▸ present)
  | none =>
    refine Works.bind (Works.explain Works.nothing) ?_
    rintro _ m₂ ⟨same₂,_⟩
    refine Works.bind Works.nextNumber ?_
    rintro sequence m₃ ⟨_,same₃⟩
    refine Works.bind (Works.explain (Works.write pieces _ bytes)) ?_
    intro _ m₄ written
    refine Works.bind (Works.tolerate (Works.rename (by rw [written,put_same]))) ?_
    rintro _ m₅ ⟨_,rfl,_⟩
    exact Works.pure trivial

theorem works_recoverFrom {path tag : String} (apart : backupOf path ≠ path) :
    Works (recoverInterruptedPublication path tag) m (fun _ m' => Recovered path m.disk m'.disk) := by
  unfold recoverInterruptedPublication recoverFrom
  refine Works.bind (Q := fun aside m' => aside = (m.disk (backupOf path)).isSome ∧ m' = m) (fun smooth => ⟨smooth,rfl,rfl⟩) ?_
  rintro _ m₁ ⟨rfl,rfl⟩
  cases aside : m₁.disk (backupOf path) with
  | none => exact Works.pure ⟨by simp [found,aside],aside,fun _ _ _ => rfl⟩
  | some previous =>
    refine Works.bind (Q := fun present m' => present = (m₁.disk path).isSome ∧ m' = m₁) (fun smooth => ⟨smooth,rfl,rfl⟩) ?_
    rintro _ m₂ ⟨rfl,rfl⟩
    cases present : m₂.disk path with
    | none =>
      refine Works.mono (Works.explain (Works.rename aside)) ?_
      intro _ m' renamed
      refine ⟨?_,?_,?_⟩
      · rw [renamed,put_same,found,present,aside]
        rfl
      · rw [renamed,put_other _ _ apart,put_same]
      · intro name other other'
        rw [renamed,put_other _ _ other,put_other _ _ other']
    | some file =>
      refine Works.mono (Works.explain (Works.step (m₂.disk.put (backupOf path) none) (by rw [aside]))) ?_
      rintro _ m' ⟨removed,_⟩
      refine ⟨?_,?_,?_⟩
      · rw [removed,put_other _ _ apart.symm,found,present]
        rfl
      · rw [removed,put_same]
      · intro name _ other'
        rw [removed,put_other _ _ other']

theorem works_readResource {resource : RuleSetResource} {file : File} (present : m.disk resource.path = some file)
    (small : file.content.length ≤ MAX_RULE_SET_BYTES) : Works (readResource resource) m (fun bytes m' => bytes = file.content ∧ m'.disk = m.disk) := by
  refine Works.bind (Works.explain (Works.readFile present)) ?_
  rintro _ m' ⟨rfl,same⟩
  rw [if_neg (Nat.not_lt.mpr small)]
  exact Works.pure ⟨rfl,same⟩

end Works

/-! ### What is offered stays offered -/

section Offers
variable {setting : Setting} {disk disk' : Disk} {attempt other : Attempt} {bytes : Bytes}

theorem Offered.same (offered : Offered setting disk attempt bytes) (alone : attempt.resource.source = .local_ → disk' attempt.resource.path = disk attempt.resource.path)
    (pair : IsRemote attempt.resource → disk' attempt.resource.path = disk attempt.resource.path ∧
      disk' (backupOf attempt.resource.path) = disk (backupOf attempt.resource.path)) : Offered setting disk' attempt bytes := by
  unfold Offered at offered ⊢
  split at offered
  · next inline => simpa [inline] using offered
  · next here => simpa [here,alone here] using offered
  · next url remote =>
    obtain ⟨current,previous⟩ := pair ⟨url,remote⟩
    simpa [remote,found,current,previous] using offered

/-- A recovery takes nothing from the other resources. -/
theorem Offered.recovered (offered : Offered setting disk other bytes) (recovered : Recovered attempt.resource.path disk disk')
    (apart : other.resource.path ≠ backupOf attempt.resource.path)
    (apart' : IsRemote other.resource → other.resource.path ≠ attempt.resource.path →
      backupOf other.resource.path ≠ backupOf attempt.resource.path ∧ attempt.resource.path ≠ backupOf other.resource.path) :
    Offered setting disk' other bytes := by
  by_cases same : other.resource.path = attempt.resource.path
  · unfold Offered at offered ⊢
    split at offered
    · next inline => simpa [inline] using offered
    · next =>
      obtain ⟨file,present,rest⟩ := offered
      refine ⟨file,?_,rest⟩
      rw [same] at present ⊢
      rw [recovered.target,found,present]
      rfl
    · next =>
      obtain ⟨answer,file,present,rest⟩ := offered
      refine ⟨answer,file,?_,rest⟩
      rw [same] at present ⊢
      rw [found,recovered.target,recovered.backup,Option.or_none]
      exact present
  · refine offered.same (fun _ => recovered.others _ same apart) (fun isRemote => ⟨recovered.others _ same apart,?_⟩)
    obtain ⟨different,other'⟩ := apart' isRemote same
    exact recovered.others _ other'.symm different

end Offers

section Prepares
variable {setting : Setting} {m : Machine}

/-- What is offered is what is prepared, and it is not new. -/
theorem works_bytesOf {attempt : Attempt} {bytes : Bytes} (fine : planned setting attempt.resource = true) (offered : Offered setting m.disk attempt bytes) :
    Works (bytesOf setting attempt) m (fun result m' => result = (bytes,false) ∧
      (m'.disk = m.disk ∨ IsRemote attempt.resource ∧ Recovered attempt.resource.path m.disk m'.disk)) := by
  unfold Offered at offered
  unfold bytesOf
  split at offered
  · next own inline =>
    rw [inline]
    exact Works.pure ⟨by rw [offered],.inl rfl⟩
  · next here =>
    obtain ⟨file,present,rfl,small⟩ := offered
    rw [here]
    refine Works.bind (works_readResource present small) ?_
    rintro _ m' ⟨rfl,same⟩
    exact Works.pure ⟨rfl,.inl same⟩
  · next url remote =>
    obtain ⟨answer,file,present,rfl,small⟩ := offered
    have apart : backupOf attempt.resource.path ≠ attempt.resource.path := by
      rw [planned_remote fine remote]
      exact (CachePublication.publicationOf_apart [] 0).backup
    rw [remote]
    refine Works.bind (works_recoverFrom apart) ?_
    intro _ m₁ recovered
    have here : m₁.disk attempt.resource.path = some file := recovered.target.trans present
    have read {m' : Machine} (same : m'.disk = m₁.disk) : Works (do
        let bytes ← readResource attempt.resource
        pure (bytes,false)) m' (fun result m'' => result = (file.content,false) ∧
        (m''.disk = m.disk ∨ IsRemote attempt.resource ∧ Recovered attempt.resource.path m.disk m''.disk)) := by
      refine Works.bind (works_readResource (same ▸ here) small) ?_
      rintro _ m'' ⟨rfl,same'⟩
      refine Works.pure ⟨rfl,.inr ⟨⟨url,remote⟩,?_⟩⟩
      rw [same',same]
      exact recovered
    refine Works.bind (Q := fun fresh m' => fresh = attempt.young ∧ m'.disk = m₁.disk) (Works.bind (works_metadataIsOk _) ?_) ?_
    · rintro _ m₂ ⟨rfl,same⟩
      exact Works.pure ⟨by simp [here],same⟩
    rintro _ m₂ ⟨rfl,same₂⟩
    rcases answer with young | ⟨response,error,answered,failed⟩
    · rw [if_pos young]
      exact read same₂
    · split
      · exact read same₂
      · refine Works.bind (works_metadataIsOk _) ?_
        rintro _ m₃ ⟨rfl,same₃⟩
        have cached : (m₂.disk attempt.resource.path).isSome = true := by simp [same₂,here]
        rw [answered]
        dsimp only
        rw [failed]
        dsimp only
        rw [if_pos cached]
        exact read (same₃.trans same₂)

/-- The replacements that are known are those of the resources. -/
def Replaced (setting : Setting) (attempts : List Attempt) (contents : String → Bytes) (replacements : Map String String) : Prop :=
  ∀ path target, replacements[path]? = some target →
    ∃ attempt ∈ attempts, attempt.resource.path = path ∧ target = nameOf setting attempt.resource.format (contents path)

/-- All resources are still offered, and all snapshots are right. -/
structure Stocked (setting : Setting) (attempts : List Attempt) (contents : String → Bytes) (disk : Disk) : Prop where
  immutable : Immutable setting disk
  offered : ∀ attempt ∈ attempts, Offered setting disk attempt (contents attempt.resource.path)

variable {attempts : List Attempt} {contents : String → Bytes} {start : Disk} (ready : Ready setting start attempts contents)
  (injective : Function.Injective setting.contentDigest)
include ready injective

/-- The publication of a snapshot leaves all sources alone. -/
theorem stocked_publishSnapshot (pid : Nat) {format : String} (known : KnownFormat format) (tag : String) (bytes : Bytes)
    (stocked : Stocked setting attempts contents m.disk) :
    Works (publishSnapshot setting.pieces pid (nameOf setting format bytes) bytes tag) m (fun _ m' => Stocked setting attempts contents m'.disk) := by
  have publishes : Works (publishSnapshot setting.pieces pid (nameOf setting format bytes) bytes tag) m
      (fun _ m' => (True ∧ Immutable setting m'.disk) ∧ ∀ name, ¬ Inside setting.base name → m'.disk name = m.disk name) :=
    Works.also (Works.also (works_publishSnapshot setting.pieces pid known tag bytes stocked.immutable)
      (publishSnapshot_keeps injective setting.pieces pid known tag bytes stocked.immutable))
      (Ensures.mono (spares_publishSnapshot setting.pieces pid format tag bytes m) (fun _ _ held => held.1))
  refine Works.mono publishes ?_
  rintro _ m' ⟨⟨_,kept⟩,outside⟩
  refine ⟨kept,?_⟩
  intro attempt listed
  refine (stocked.offered attempt listed).same (fun here => outside _ (ready.outside attempt listed here)) ?_
  rintro ⟨url,remote⟩
  have path := planned_remote (ready.planned attempt listed) remote
  obtain ⟨away,away',_⟩ := cache_names_outside setting.sha256 setting.base attempt.resource.tag attempt.resource.format url
  rw [← path] at away away'
  exact ⟨outside _ away,outside _ away'⟩

omit injective in
theorem stocked_bytesOf {attempt : Attempt} (listed : attempt ∈ attempts) (stocked : Stocked setting attempts contents m.disk) :
    Works (bytesOf setting attempt) m (fun result m' => result = (contents attempt.resource.path,false) ∧ Stocked setting attempts contents m'.disk) := by
  have spared : Spares (snapshotNames setting) (bytesOf setting attempt) := (spares_bytesOf (ready.planned attempt listed)).fewer snapshotNames_inside
  refine Works.mono (Works.also (works_bytesOf (ready.planned attempt listed) (stocked.offered attempt listed)) (stocked.immutable.spared spared)) ?_
  rintro result m' ⟨⟨given,changed⟩,kept⟩
  refine ⟨given,kept,fun other listed' => ?_⟩
  rcases changed with same | ⟨remote,recovered⟩
  · rw [same]
    exact stocked.offered other listed'
  · obtain ⟨apart,apart'⟩ := ready.apart attempt listed remote other listed'
    exact (stocked.offered other listed').recovered recovered apart
      (fun remote' different => ⟨apart' remote' different,(ready.apart other listed' remote' attempt listed).1⟩)

/-- No resource is refused, and none conflicts with another one. -/
theorem works_prepareOne (pid : Nat) {attempt : Attempt} (listed : attempt ∈ attempts) {builder : PreparedRuleSetBuilder}
    (stocked : Stocked setting attempts contents m.disk) (replaced : Replaced setting attempts contents builder.pathReplacements) :
    Works (prepareOne setting pid builder attempt) m (fun builder m' => Stocked setting attempts contents m'.disk ∧
      Replaced setting attempts contents builder.pathReplacements) := by
  have known := planned_format (ready.planned attempt listed)
  have agrees : ¬ builder.pathReplacements[attempt.resource.path]?.any
      (fun previous => previous ≠ nameOf setting attempt.resource.format (contents attempt.resource.path)) = true := by
    intro conflict
    obtain ⟨previous,before,different⟩ := (Option.any_eq_true ..).mp conflict
    obtain ⟨other,listed',same,named⟩ := replaced _ _ before
    rw [ready.formats other listed' attempt listed same] at named
    exact of_decide_eq_true different named
  unfold prepareOne
  rw [if_neg (by rw [ready.calm attempt listed]; exact Bool.false_ne_true)]
  refine Works.bind (stocked_bytesOf ready listed stocked) ?_
  rintro _ m₁ ⟨rfl,stocked₁⟩
  dsimp only
  unfold PreparedRuleSetBuilder.push
  rw [ready.valid attempt listed]
  refine Works.bind (stocked_publishSnapshot ready injective pid known attempt.resource.tag _ stocked₁) ?_
  intro _ m₂ stocked₂
  rw [if_neg agrees]
  refine Works.pure ⟨stocked₂,?_⟩
  intro path target here
  rw [lookup_insert] at here
  split at here
  · next same =>
    cases here
    exact ⟨attempt,listed,same,by rw [same]⟩
  · exact replaced path target here

/-- A preparation of what is there and valid works. -/
theorem works_prepare (pid : Nat) (immutable : Immutable setting start) (counter : Nat) :
    Works (prepareWithCancel setting pid attempts false) ⟨start,[],counter,[]⟩ (fun _ _ => True) := by
  have looped : Works (foldEach (prepareOne setting pid) ⟨[],∅,[]⟩ attempts) ⟨start,[],counter,[]⟩ (fun _ _ => True) := by
    refine Works.foldEach (fun _ builder m => Stocked setting attempts contents m.disk ∧ Replaced setting attempts contents builder.pathReplacements)
      ⟨⟨immutable,ready.offered⟩,fun path target here => (by simp at here)⟩ ?_ (fun _ _ _ => trivial)
    rintro done attempt rest builder m split ⟨stocked,replaced⟩
    exact works_prepareOne ready injective pid (split ▸ List.mem_append_right _ List.mem_cons_self) stocked replaced
  refine Works.bind looped ?_
  intro builder m _
  exact Works.pure trivial

end Prepares

/-! ### Runs -/

/-- No process has run yet. -/
def initial (disk : Disk) : World := ⟨disk,none,0,[]⟩

/-- A power loss cuts no snapshot that was not written back. -/
def Whole (setting : Setting) (left : String → Nat) (disk : Disk) : Prop :=
  ∀ format bytes file, KnownFormat format → disk (nameOf setting format bytes) = some file →
    file.durable = true ∨ file.content.length ≤ left (nameOf setting format bytes)

/-- Every preparation from local, inline and cached resources that are there and valid works, if no step of it fails. -/
def Prepares (setting : Setting) (disk : Disk) : Prop :=
  ∀ attempts contents, Ready setting disk attempts contents → ∀ pid counter,
    ∃ prepared m, prepareWithCancel setting pid attempts false ⟨disk,[],counter,[]⟩ = (.ok prepared,m)

section Runs
variable {setting : Setting}

theorem prepares_of_immutable (injective : Function.Injective setting.contentDigest) {disk : Disk} (immutable : Immutable setting disk) : Prepares setting disk := by
  intro attempts contents ready pid counter
  have works := works_prepare ready injective pid immutable counter rfl
  rcases Ensures.outcome works with ⟨prepared,m,ran,_⟩ | ⟨_,_,_,impossible⟩
  · exact ⟨prepared,m,ran⟩
  · exact impossible.elim

theorem torn_at (left : String → Nat) {disk : Disk} {name : String} {file : File} (here : disk name = some file) :
    torn left disk name = some (if file.durable then file else ⟨file.content.take (left name),true⟩) := by
  rw [torn,here]
  rfl

/-- A power loss keeps the snapshots right if and only if it cuts none. -/
theorem torn_immutable_iff {left : String → Nat} {disk : Disk} (immutable : Immutable setting disk) :
    Immutable setting (torn left disk) ↔ Whole setting left disk := by
  constructor
  · intro after format bytes file known here
    by_cases durable : file.durable = true
    · exact .inl durable
    · right
      have kept := after format bytes _ known (torn_at left here)
      rw [if_neg durable] at kept
      have size := congrArg List.length (kept.trans (immutable format bytes file known here).symm)
      rw [List.length_take] at size
      omega
  · intro whole format bytes file known here
    cases before : disk (nameOf setting format bytes) with
    | none =>
      rw [torn,before] at here
      cases here
    | some old =>
      rw [torn_at left before] at here
      cases here
      split
      · exact immutable format bytes old known before
      · next fresh =>
        have kept := (whole format bytes old known before).resolve_left fresh
        dsimp only
        rw [List.take_of_length_le kept]
        exact immutable format bytes old known before

/-- What holds of every world. -/
structure Sound (setting : Setting) (w : World) : Prop where
  immutable : Immutable setting w.disk
  targets : ∀ prepared ∈ w.prepared, Targets setting prepared.pendingPublications

theorem Sound.after {α : Type} {w : World} (sound : Sound setting w) {p : Program α} {m : Machine} {results : α → List PreparedRuleSets}
    (kept : Ensures p m (Outcome (fun a m' => Immutable setting m'.disk ∧ ∀ prepared ∈ results a, Targets setting prepared.pendingPublications)
      (fun _ m' => Immutable setting m'.disk))) : Sound setting (w.after (p m) results) := by
  unfold Ensures at kept
  generalize p m = ran at kept ⊢
  obtain ⟨(message | _) | a,m'⟩ := ran
  · exact ⟨kept,sound.targets⟩
  · exact ⟨kept,fun _ impossible => (by cases impossible)⟩
  · refine ⟨kept.1,?_⟩
    intro prepared listed
    rcases List.mem_append.mp listed with old | new
    · exact sound.targets prepared old
    · exact kept.2 prepared new

/-- One step keeps the snapshots right, if it is no power loss that cuts one. -/
theorem sound_step (injective : Function.Injective setting.contentDigest) {w w' : World} (sound : Sound setting w) {action : Action}
    (kind : ∀ left, action = .powerLoss left → Whole setting left w.disk) (taken : worldStep setting w action = some w') : Sound setting w' := by
  cases action with
  | start pid =>
    dsimp only [worldStep] at taken
    split at taken
    · cases taken
      exact ⟨sound.immutable,sound.targets⟩
    · cases taken
  | prepare attempts cancelled fates =>
    dsimp only [worldStep] at taken
    split at taken
    · cases taken
    · next pid running =>
      split at taken
      · next fine =>
        cases taken
        refine sound.after (Ensures.mono (prepare_keeps injective (List.all_eq_true.mp fine) sound.immutable) ?_)
        rintro (failure | prepared) m' held
        · exact held
        · refine ⟨held.1,?_⟩
          intro other listed
          rw [List.mem_singleton.mp listed]
          exact held.2
      · cases taken
  | commit index fates =>
    dsimp only [worldStep] at taken
    split at taken
    · next pid prepared running known =>
      cases taken
      refine sound.after (Ensures.mono (commit_keeps (sound.targets prepared (List.mem_of_getElem? known)) sound.immutable) ?_)
      rintro (failure | _) m' held
      · exact held
      · exact ⟨held,fun _ impossible => (by cases impossible)⟩
    · cases taken
  | elsewhere name file =>
    dsimp only [worldStep] at taken
    split at taken
    · cases taken
    · next outside =>
      cases taken
      refine ⟨sound.immutable.same ?_,sound.targets⟩
      intro other listed
      exact put_other _ _ (fun same => outside (same ▸ snapshotNames_inside listed))
  | powerLoss left =>
    cases taken
    exact ⟨(torn_immutable_iff sound.immutable).mpr (kind left rfl),fun _ impossible => (by cases impossible)⟩

/-- The snapshots are right in all states of a run, and preparations work in all of them, if and only if no power loss of the
    run cuts a snapshot that was not written back. -/
theorem snapshots_right_iff (injective : Function.Injective setting.contentDigest) {disk : Disk} (empty : ∀ name, Inside setting.base name → disk name = none)
    (actions : List Action) :
    (∀ earlier later w, actions = earlier ++ later → Run (worldStep setting) (initial disk) earlier w → Immutable setting w.disk ∧ Prepares setting w.disk) ↔
    (∀ earlier left later w, actions = earlier ++ .powerLoss left :: later → Run (worldStep setting) (initial disk) earlier w → Whole setting left w.disk) := by
  constructor
  · intro right earlier left later w split run
    have before := (right earlier _ w split run).1
    have lost : Run (worldStep setting) (initial disk) (earlier ++ [.powerLoss left]) ⟨torn left w.disk,none,0,[]⟩ := run.snoc rfl
    exact (torn_immutable_iff before).mp (right _ later _ (by simpa using split) lost).1
  · intro whole
    have begins : Sound setting (initial disk) := by
      refine ⟨?_,fun _ impossible => (by cases impossible)⟩
      intro format bytes file _ here
      cases (empty _ (nameOf_inside format bytes)).symm.trans here
    have sound {earlier : List Action} {w : World} (run : Run (worldStep setting) (initial disk) earlier w) :
        ∀ later, actions = earlier ++ later → Sound setting w := by
      induction run with
      | nil => exact fun _ _ => begins
      | @snoc earlier w action w' run taken ih =>
        intro later split
        have split' : actions = earlier ++ action :: later := by simpa using split
        refine sound_step injective (ih _ split') ?_ taken
        rintro left rfl
        exact whole earlier left later w split' run
    intro earlier later w split run
    have kept := (sound run later split).immutable
    exact ⟨kept,prepares_of_immutable injective kept⟩

end Runs

def rulesText (version : UInt8) : Bytes := [123,34,118,101,114,115,105,111,110,34,58,version,44,34,114,117,108,101,115,34,58,91,93,125]

/-- Reads a text of `rulesText`. -/
def readRules (bytes : Bytes) : Option Value :=
  match bytes[11]? with
  | some digit =>
    if bytes = rulesText digit ∧ 48 ≤ digit ∧ digit ≤ 57 then
      some (.object [("version",.number (.natural (digit.toNat - 48))),("rules",.array [])])
    else none
  | none => none

/-- A setting in which the content of a snapshot is its digest. -/
def plainSetting : Setting :=
  ⟨"agent",fun _ => [],id,readRules,id,fun _ _ => .ok (),.unix,⟨fun bytes => [bytes],fun _ => List.flatten_singleton⟩⟩

def emptyRules : Attempt := ⟨⟨"ads","source","agent/runtime/rule-sets/inline/ads-0.json",.inline (rulesText 52)⟩,false,false,none⟩

/-- The process ends while it writes a snapshot, and the next one prepares the same rule set. -/
def interruptedRun : List Action :=
  [.powerLoss (fun _ => 0),.start 7,.prepare [emptyRules] false [.works,.works,.crashes],.start 7,.prepare [emptyRules] false []]

set_option maxRecDepth 4000 in
theorem interrupted_snapshot_right : ∃ w, Run (worldStep plainSetting) (initial (fun _ => none)) interruptedRun w ∧
    w.disk (nameOf plainSetting "source" (rulesText 52)) = some ⟨rulesText 52,false⟩ ∧ Immutable plainSetting w.disk ∧ Prepares plainSetting w.disk := by
  have reached : ∃ w, Run (worldStep plainSetting) (initial (fun _ => none)) interruptedRun w ∧
      w.disk (nameOf plainSetting "source" (rulesText 52)) = some ⟨rulesText 52,false⟩ := ⟨_,Run.of_follow rfl,rfl⟩
  obtain ⟨w,run,placed⟩ := reached
  refine ⟨w,run,placed,?_⟩
  refine (snapshots_right_iff Function.injective_id (fun _ _ => rfl) interruptedRun).mpr ?_ interruptedRun [] w (List.append_nil _).symm run
  intro earlier left later w' split run'
  cases earlier with
  | nil =>
    rw [run'.eq_of_nil]
    intro format bytes file _ here
    cases here
  | cons first earlier => simp [interruptedRun,List.cons_eq_append_iff] at split

/-- The power fails before a new snapshot is written back. -/
def tornRun : List Action := [.start 7,.prepare [emptyRules] false [],.powerLoss (fun _ => 0)]

set_option maxRecDepth 4000 in
/-- What is left of the snapshot is taken for a collision from then on. -/
theorem torn_snapshot_collides : ∃ w, Run (worldStep plainSetting) (initial (fun _ => none)) tornRun w ∧ ¬ Immutable plainSetting w.disk ∧
    Ready plainSetting w.disk [emptyRules] (fun _ => rulesText 52) ∧ (prepareWithCancel plainSetting 8 [emptyRules] false ⟨w.disk,[],0,[]⟩).1 =
      .error (.failed ("route rule-set ads snapshot digest collision at " ++
        "agent/runtime/rule-sets/snapshots/source-7b2276657273696f6e223a342c2272756c6573223a5b5d7d.json")) := by
  refine ⟨_,Run.of_follow rfl,?_,?_,rfl⟩
  · intro immutable
    have wrong : ([] : Bytes) = rulesText 52 := immutable "source" (rulesText 52) ⟨[],true⟩ (.inl rfl) rfl
    cases wrong
  · refine ⟨?_,?_,?_,?_,?_,?_,?_⟩ <;> simp [emptyRules,IsRemote]
    · decide
    · rfl
    · rfl

end NodeAgent.SnapshotCrashes
