import NodeAgent.Frames
import NodeAgent.SnapshotCrashes
import NodeAgent.Utf8Bytes

/-!
What a preparation of rule sets gives. Every resource was validated with bytes that its snapshot
then has for good, the path of the resource leads to this snapshot, only what was downloaded is to
be published, and the digest tells the resources and their bytes.
-/
namespace NodeAgent.PreparedContents
open NodeAgent.Fallible NodeAgent.Disks NodeAgent.RuleSetFiles NodeAgent.RuleSetSnapshots NodeAgent.SnapshotCrashes NodeAgent.FiniteMap
open NodeAgent.Transition NodeAgent.Frames
open NodeAgent.ForwardingPlans (asBytes)
open NodeAgent.Credential (Bytes)

/-! ### Digests -/

/-- A resource and the bytes that it was prepared with. -/
structure Content where
  resource : RuleSetResource
  bytes : Bytes

/-- What a resource adds to the digest. -/
def frame (content : Content) : Bytes :=
  beBytes64 (asBytes content.resource.tag).length ++ asBytes content.resource.tag ++
    beBytes64 (asBytes content.resource.format).length ++ asBytes content.resource.format ++ beBytes64 content.bytes.length ++ content.bytes

/-- What the digest is about. -/
def Content.identity (content : Content) : String × String × Bytes := (content.resource.tag,content.resource.format,content.bytes)

/-- No length is above a `u64`. -/
def Content.Sized (content : Content) : Prop :=
  (asBytes content.resource.tag).length < 18446744073709551616 ∧ (asBytes content.resource.format).length < 18446744073709551616 ∧
    content.bytes.length < 18446744073709551616

instance (content : Content) : Decidable content.Sized := inferInstanceAs (Decidable (_ ∧ _ ∧ _))

/-- A byte and what is above it give the number down to this byte. -/
theorem shift_next {a b k : Nat} (above : a >>> (k + 8) = b >>> (k + 8)) (byte : UInt8.ofNat (a >>> k) = UInt8.ofNat (b >>> k)) : a >>> k = b >>> k := by
  have split (n : Nat) : n >>> (k + 8) * 256 + (UInt8.ofNat (n >>> k)).toNat = n >>> k := by
    rw [Nat.shiftRight_add,Nat.shiftRight_eq_div_pow _ 8,UInt8.toNat_ofNat']
    exact Nat.div_add_mod' _ _
  rw [← split a,← split b,above,byte]

theorem beBytes64_delimited : Delimited (fun n => n < 18446744073709551616) beBytes64 := by
  have long (n : Nat) : (beBytes64 n).length = 8 := rfl
  refine Delimited.fixed long ?_
  intro a b small small' same
  have same : [UInt8.ofNat (a >>> 56),UInt8.ofNat (a >>> 48),UInt8.ofNat (a >>> 40),UInt8.ofNat (a >>> 32),UInt8.ofNat (a >>> 24),UInt8.ofNat (a >>> 16),
      UInt8.ofNat (a >>> 8),UInt8.ofNat (a >>> 0)] = [UInt8.ofNat (b >>> 56),UInt8.ofNat (b >>> 48),UInt8.ofNat (b >>> 40),UInt8.ofNat (b >>> 32),
      UInt8.ofNat (b >>> 24),UInt8.ofNat (b >>> 16),UInt8.ofNat (b >>> 8),UInt8.ofNat (b >>> 0)] := same
  have nothing {n : Nat} (small : n < 18446744073709551616) : n >>> 64 = 0 := by
    rw [Nat.shiftRight_eq_div_pow]
    exact Nat.div_eq_of_lt small
  have top : a >>> 64 = b >>> 64 := (nothing small).trans (nothing small').symm
  simp only [List.cons.injEq,and_true] at same
  obtain ⟨b56,b48,b40,b32,b24,b16,b8,b0⟩ := same
  exact shift_next (shift_next (shift_next (shift_next (shift_next (shift_next (shift_next (shift_next top b56) b48) b40) b32) b24) b16) b8) b0

/-- The code of three byte strings, each after its length. -/
def frames (parts : Bytes × Bytes × Bytes) : Bytes :=
  (beBytes64 parts.1.length ++ parts.1) ++ ((beBytes64 parts.2.1.length ++ parts.2.1) ++ (beBytes64 parts.2.2.length ++ parts.2.2))

def Content.parts (content : Content) : Bytes × Bytes × Bytes := (asBytes content.resource.tag,asBytes content.resource.format,content.bytes)

theorem frame_eq (content : Content) : frame content = frames content.parts := by simp [frame,frames,Content.parts]

/-- The bytes of the digest tell the tags, the formats and the contents, in their order. -/
theorem frames_identify {contents contents' : List Content} (sized : ∀ content ∈ contents, content.Sized) (sized' : ∀ content ∈ contents', content.Sized) :
    contents.flatMap frame = contents'.flatMap frame ↔ contents.map Content.identity = contents'.map Content.identity := by
  have framed (contents : List Content) : contents.flatMap frame = (contents.map Content.parts).flatMap frames := by
    rw [List.flatMap_map]
    exact congrArg (fun code => contents.flatMap code) (funext frame_eq)
  have parts (contents : List Content) : contents.map Content.parts = (contents.map Content.identity).map (fun own => (asBytes own.1,asBytes own.2.1,own.2.2)) := by
    rw [List.map_map]
    rfl
  have texts : Function.Injective (fun own : String × String × Bytes => (asBytes own.1,asBytes own.2.1,own.2.2)) := by
    rintro ⟨tag,format,bytes⟩ ⟨tag',format',bytes'⟩ same
    obtain ⟨first,second⟩ := Prod.mk.inj same
    obtain ⟨second,third⟩ := Prod.mk.inj second
    exact Prod.ext (Utf8Bytes.bytes_injective first) (Prod.ext (Utf8Bytes.bytes_injective second) third)
  have allowed (contents : List Content) (sized : ∀ content ∈ contents, content.Sized) : ∀ parts ∈ contents.map Content.parts,
      parts.1.length < 18446744073709551616 ∧ parts.2.1.length < 18446744073709551616 ∧ parts.2.2.length < 18446744073709551616 := by
    intro parts member
    obtain ⟨content,listed,rfl⟩ := List.mem_map.mp member
    exact sized content listed
  have delimited := beBytes64_delimited.frame.pair (beBytes64_delimited.frame.pair beBytes64_delimited.frame)
  constructor
  · intro same
    rw [framed,framed] at same
    have equal := delimited.flatMap_inj (fun parts impossible => absurd (congrArg List.length impossible) (by simp [beBytes64])) 
      (allowed contents sized) (allowed contents' sized') same
    rw [parts,parts] at equal
    exact List.map_injective_iff.mpr texts equal
  · intro same
    rw [framed,framed,parts,parts,same]

/-! ### Snapshots that stay -/

section Staying
variable {setting : Setting} {m : Machine}

/-- Every snapshot that is there stays. -/
def Stays (setting : Setting) (disk disk' : Disk) : Prop := ∀ name ∈ snapshotNames setting, (disk name).isSome = true → (disk' name).isSome = true

theorem Stays.refl (disk : Disk) : Stays setting disk disk := fun _ _ there => there

theorem Stays.trans {disk disk' disk'' : Disk} (first : Stays setting disk disk') (second : Stays setting disk' disk'') : Stays setting disk disk'' :=
  fun name listed there => second name listed (first name listed there)

theorem Stays.same {disk disk' : Disk} (same : ∀ name ∈ snapshotNames setting, disk' name = disk name) : Stays setting disk disk' := by
  intro name listed there
  rwa [same name listed]

theorem Stays.spared {α : Type} {p : Program α} (spares : Spares (snapshotNames setting) p) : Ensures p m (fun _ m' => Stays setting m.disk m'.disk) :=
  Ensures.mono (spares m) (fun _ _ held => .same held.1)

theorem ensures_metadataIsOk (name : String) : Ensures (metadataIsOk name) m (fun r m' => r = .ok true → (m'.disk name).isSome = true) := by
  refine Ensures.bind (Q := fun r m' => r = .ok (.ok ()) → (m'.disk name).isSome = true) ?_ ?_ (fun _ _ _ impossible => by cases impossible)
  · refine ensures_tolerate (Q := fun r m' => r = .ok () → (m'.disk name).isSome = true) (ensures_step ?_ (fun _ _ impossible => by cases impossible)) ?_
      (fun _ _ _ impossible => by cases impossible) (fun _ _ impossible => by cases impossible)
    · intro disk fates done _
      split at done
      · next there =>
        cases done
        exact there
      · cases done
    · intro _ m' held _
      exact held rfl
  · rintro (error | _) m' held
    · exact fun impossible => (by cases impossible)
    · exact fun _ => held rfl

/-- The publication of a snapshot takes none away, and when it works the snapshot is there. -/
theorem publishSnapshot_places (pieces : Pieces) (pid : Nat) {format : String} (known : KnownFormat format) (tag : String) (bytes : Bytes) :
    Ensures (publishSnapshot pieces pid (nameOf setting format bytes) bytes tag) m
      (fun r m' => Stays setting m.disk m'.disk ∧ (r = .ok () → (m'.disk (nameOf setting format bytes)).isSome = true)) := by
  have own : nameOf setting format bytes ∈ snapshotNames setting := ⟨format,bytes,known,rfl⟩
  have verified {m' : Machine} {p : Program Unit} (so : Stays setting m.disk m'.disk) (there : (m'.disk (nameOf setting format bytes)).isSome = true)
      (spares : Spares (snapshotNames setting) p) :
      Ensures p m' (fun r m'' => Stays setting m.disk m''.disk ∧ (r = .ok () → (m''.disk (nameOf setting format bytes)).isSome = true)) :=
    Ensures.mono (spares m') (fun _ _ held => ⟨so.trans (.same held.1),fun _ => by rw [held.1 _ own]; exact there⟩)
  refine Ensures.bind (Ensures.and (Stays.spared (spares_metadataIsOk _)) (ensures_metadataIsOk _)) ?_ (fun _ _ held => ⟨held.1,fun impossible => (by cases impossible)⟩)
  rintro present m₁ ⟨stays₁,there₁⟩
  split
  · next present =>
    subst present
    exact verified stays₁ (there₁ rfl) (spares_verifySnapshot pieces bytes)
  refine Ensures.bind (Stays.spared (Spares.explain Spares.nothing)) ?_ (fun _ _ held => ⟨stays₁.trans held,fun impossible => (by cases impossible)⟩)
  intro _ m₂ stays₂
  refine Ensures.bind (Stays.spared Spares.nextNumber) ?_ (fun _ _ held => ⟨stays₁.trans (stays₂.trans held),fun impossible => (by cases impossible)⟩)
  intro sequence m₃ stays₃
  have away : temporaryName setting format bytes pid sequence ∉ snapshotNames setting := temporaryName_away format bytes pid sequence
  have sofar := stays₁.trans (stays₂.trans stays₃)
  refine Ensures.bind (Stays.spared (Spares.explain (Spares.write away pieces bytes))) ?_ (fun _ _ held => ⟨sofar.trans held,fun impossible => (by cases impossible)⟩)
  intro _ m₄ stays₄
  have renamed : Ensures (rename (temporaryName setting format bytes pid sequence) (nameOf setting format bytes)) m₄
      (fun r m' => Stays setting m₄.disk m'.disk ∧ (r = .ok () → (m'.disk (nameOf setting format bytes)).isSome = true)) := by
    refine ensures_step ?_ (fun _ _ => ⟨.refl _,fun impossible => (by cases impossible)⟩)
    intro disk fates done
    split at done
    · cases done
      refine ⟨?_,fun _ => by dsimp only; rw [put_same]; rfl⟩
      intro name listed there
      dsimp only
      by_cases same : name = nameOf setting format bytes
      · rw [same,put_same]
        rfl
      · have apart : name ≠ temporaryName setting format bytes pid sequence := fun equal => away (equal ▸ listed)
        rwa [put_other _ _ same,put_other _ _ apart]
    · cases done
  refine Ensures.bind (ensures_tolerate (R := fun r m' => Stays setting m.disk m'.disk ∧ (r = .ok (.ok ()) → (m'.disk (nameOf setting format bytes)).isSome = true)) renamed
    (fun _ _ held => ⟨sofar.trans (stays₄.trans held.1),fun _ => held.2 rfl⟩) (fun _ _ held => ⟨sofar.trans (stays₄.trans held.1),fun impossible => (by cases impossible)⟩)
    (fun _ held => ⟨sofar.trans (stays₄.trans held.1),fun impossible => (by cases impossible)⟩)) ?_ (fun _ _ held => ⟨held.1,fun impossible => (by cases impossible)⟩)
  rintro (error | _) m₅ ⟨stays₅,there₅⟩
  · refine Ensures.bind (Ensures.and (Stays.spared (spares_metadataIsOk _)) (ensures_metadataIsOk _)) ?_ (fun _ _ held => ⟨stays₅.trans held.1,fun impossible => (by cases impossible)⟩)
    rintro present m₆ ⟨stays₆,there₆⟩
    split
    · next present =>
      subst present
      exact verified (stays₅.trans stays₆) (there₆ rfl) (Spares.bind (Spares.ignore (Spares.remove away)) (fun _ => spares_verifySnapshot pieces bytes))
    · refine Ensures.bind (Stays.spared (Spares.ignore (Spares.remove away))) ?_ (fun _ _ held => ⟨stays₅.trans (stays₆.trans held),fun impossible => (by cases impossible)⟩)
      exact fun _ _ held => ⟨stays₅.trans (stays₆.trans held),fun impossible => (by cases impossible)⟩
  · exact ⟨stays₅,fun _ => there₅ rfl⟩

end Staying

/-! ### Preparations -/

/-- What a preparation knows after these attempts, and the bytes of each. -/
structure PreparedFrom (setting : Setting) (attempts : List Attempt) (replacements : Map String String) (publications : List PendingPublication)
    (contents : List Content) : Prop where
  resources : contents.map Content.resource = attempts.map Attempt.resource
  valid : ∀ content ∈ contents, validate setting content.resource content.bytes = .ok ()
  inline : ∀ content ∈ contents, ∀ own, content.resource.source = .inline own → content.bytes = own
  replaced : ∀ content ∈ contents, replacements[content.resource.path]? = some (nameOf setting content.resource.format content.bytes)
  named : ∀ path snapshot, replacements[path]? = some snapshot → ∃ content ∈ contents, content.resource.path = path
  published : ∀ publication ∈ publications, ∃ attempt ∈ attempts, ∃ bytes, Downloaded setting attempt bytes ∧ ⟨attempt.resource,bytes⟩ ∈ contents ∧
    publication = ⟨attempt.resource.tag,nameOf setting attempt.resource.format bytes,attempt.resource.path⟩

section Preparing
variable {setting : Setting} {m : Machine} {attempts : List Attempt} {replacements : Map String String} {publications : List PendingPublication}
  {contents : List Content}

theorem PreparedFrom.empty : PreparedFrom setting [] ∅ [] [] :=
  ⟨rfl,fun _ listed => absurd listed List.not_mem_nil,fun _ listed => absurd listed List.not_mem_nil,fun _ listed => absurd listed List.not_mem_nil,
    fun _ _ impossible => (by simp at impossible),fun _ listed => absurd listed List.not_mem_nil⟩

/-- One more resource, whose path leads to no other snapshot. -/
theorem PreparedFrom.push (prepared : PreparedFrom setting attempts replacements publications contents) {attempt : Attempt} {bytes : Bytes} {publish : Bool}
    (valid : validate setting attempt.resource bytes = .ok ()) (inline : ∀ own, attempt.resource.source = .inline own → bytes = own)
    (downloaded : publish = true → Downloaded setting attempt bytes)
    (agrees : ∀ previous, replacements[attempt.resource.path]? = some previous → previous = nameOf setting attempt.resource.format bytes) :
    PreparedFrom setting (attempts ++ [attempt]) (replacements.insert attempt.resource.path (nameOf setting attempt.resource.format bytes))
      (publications ++ if publish then [⟨attempt.resource.tag,nameOf setting attempt.resource.format bytes,attempt.resource.path⟩] else [])
      (contents ++ [⟨attempt.resource,bytes⟩]) := by
  have last {P : Content → Prop} (old : ∀ content ∈ contents, P content) (new : P ⟨attempt.resource,bytes⟩) : ∀ content ∈ contents ++ [⟨attempt.resource,bytes⟩], P content := by
    intro content listed
    rcases List.mem_append.mp listed with before | own
    · exact old content before
    · rw [List.mem_singleton.mp own]
      exact new
  refine ⟨?_,last prepared.valid valid,last prepared.inline inline,last ?_ ?_,?_,?_⟩
  · simp [prepared.resources]
  · intro content listed
    rw [lookup_insert]
    split
    · next same =>
      have known := prepared.replaced content listed
      rw [← same] at known
      rw [agrees _ known]
    · exact prepared.replaced content listed
  · rw [lookup_insert,if_pos rfl]
  · intro path snapshot known
    rw [lookup_insert] at known
    split at known
    · next same => exact ⟨⟨attempt.resource,bytes⟩,List.mem_append_right _ (List.mem_singleton_self _),same⟩
    · obtain ⟨content,listed,same⟩ := prepared.named path snapshot known
      exact ⟨content,List.mem_append_left _ listed,same⟩
  · intro publication listed
    rcases List.mem_append.mp listed with before | own
    · obtain ⟨attempt',old,bytes',fetched,listed,same⟩ := prepared.published publication before
      exact ⟨attempt',List.mem_append_left _ old,bytes',fetched,List.mem_append_left _ listed,same⟩
    · cases publish with
      | false => cases own
      | true =>
        exact ⟨attempt,List.mem_append_right _ (List.mem_singleton_self _),bytes,downloaded rfl,
          List.mem_append_right _ (List.mem_singleton_self _),List.mem_singleton.mp own⟩

theorem bytesOf_inline (attempt : Attempt) :
    Returns (fun (bytes,_) => ∀ own, attempt.resource.source = .inline own → bytes = own) (bytesOf setting attempt) := by
  unfold bytesOf
  split
  · next source => exact Returns.bind (fun _ => Returns.pure (fun own other => absurd (source.symm.trans other) (by simp)))
  · next source =>
    intro m
    refine Ensures.mono (Returns.any _ m) ?_
    rintro (_ | _) _ _
    · trivial
    · exact fun own other => absurd (source.symm.trans other) (by simp)
  · next own source =>
    refine Returns.pure (fun own' other => ?_)
    cases source.symm.trans other
    rfl

/-- After a loop over these attempts: snapshots that were there still are, and each attempt has one. -/
def Loaded (setting : Setting) (start : Disk) (done : List Attempt) (builder : PreparedRuleSetBuilder) (m : Machine) : Prop :=
  Stays setting start m.disk ∧ ∃ contents, PreparedFrom setting done builder.pathReplacements builder.pendingPublications contents ∧
    builder.digest = contents.flatMap frame ∧ ∀ content ∈ contents, (m.disk (nameOf setting content.resource.format content.bytes)).isSome = true

theorem Loaded.later {start : Disk} {done : List Attempt} {builder : PreparedRuleSetBuilder} {m' : Machine} (fine : ∀ attempt ∈ done, planned setting attempt.resource = true)
    (loaded : Loaded setting start done builder m) (stays : Stays setting m.disk m'.disk) : Loaded setting start done builder m' := by
  obtain ⟨sofar,contents,prepared,digest,there⟩ := loaded
  refine ⟨sofar.trans stays,contents,prepared,digest,?_⟩
  intro content listed
  have own : content.resource ∈ done.map Attempt.resource := prepared.resources ▸ List.mem_map_of_mem listed
  obtain ⟨attempt,member,same⟩ := List.mem_map.mp own
  exact stays _ ⟨_,_,same ▸ planned_format (fine attempt member),rfl⟩ (there content listed)

theorem push_loads {pid : Nat} {start : Disk} {done : List Attempt} {builder : PreparedRuleSetBuilder} {attempt : Attempt} {bytes : Bytes} {publish : Bool}
    (fine : ∀ attempt ∈ done, planned setting attempt.resource = true) (planned : planned setting attempt.resource = true)
    (loaded : Loaded setting start done builder m) (inline : ∀ own, attempt.resource.source = .inline own → bytes = own) (downloaded : publish = true → Downloaded setting attempt bytes) :
    Ensures (builder.push setting pid attempt.resource bytes publish) m (Outcome (Loaded setting start (done ++ [attempt])) (fun _ m' => Stays setting start m'.disk)) := by
  unfold PreparedRuleSetBuilder.push
  split
  · exact loaded.1
  · next valid =>
    refine Ensures.bind (publishSnapshot_places setting.pieces pid (planned_format planned) attempt.resource.tag bytes) ?_ (fun _ _ held => loaded.1.trans held.1)
    rintro _ m' ⟨stays,placed⟩
    split
    · exact loaded.1.trans stays
    · next agrees =>
      obtain ⟨sofar,contents,prepared,digest,there⟩ := loaded.later fine stays
      refine ⟨sofar,contents ++ [⟨attempt.resource,bytes⟩],prepared.push valid inline downloaded ?_,?_,?_⟩
      · intro previous known
        rw [known] at agrees
        simpa using agrees
      · simp [digest,frame]
      · intro content listed
        rcases List.mem_append.mp listed with before | own
        · exact there content before
        · rw [List.mem_singleton.mp own]
          exact placed rfl

/-- Wherever it fails, a preparation takes no snapshot away; one that works knows the bytes of all its attempts. -/
theorem prepare_loads (pid : Nat) (cancelled : Bool) (m : Machine) (fine : ∀ attempt ∈ attempts, planned setting attempt.resource = true) :
    Ensures (prepareWithCancel setting pid attempts cancelled) m (Outcome
      (fun prepared m' => Stays setting m.disk m'.disk ∧ ∃ contents, PreparedFrom setting attempts prepared.pathReplacements prepared.pendingPublications contents ∧
        prepared.digest = setting.sha256 (contents.flatMap frame) ∧ ∀ content ∈ contents, (m'.disk (nameOf setting content.resource.format content.bytes)).isSome = true)
      (fun _ m' => Stays setting m.disk m'.disk)) := by
  have looped : Ensures (foldEach (prepareOne setting pid) ⟨[],∅,[]⟩ attempts) m (Outcome (Loaded setting m.disk attempts) (fun _ m' => Stays setting m.disk m'.disk)) := by
    refine Ensures.foldEach (Loaded setting m.disk) ⟨.refl _,[],.empty,rfl,fun _ listed => absurd listed List.not_mem_nil⟩ ?_ (fun _ _ held => held)
    intro done attempt rest builder m' split loaded
    have own : planned setting attempt.resource = true := fine attempt (split ▸ List.mem_append_right _ List.mem_cons_self)
    have before : ∀ attempt ∈ done, planned setting attempt.resource = true := fun attempt listed => fine attempt (split ▸ List.mem_append_left _ listed)
    have spared : Spares (snapshotNames setting) (bytesOf setting attempt) := (spares_bytesOf own).fewer snapshotNames_inside
    unfold prepareOne
    split
    · exact loaded.1
    · refine Ensures.bind (Ensures.and (Stays.spared spared) (Ensures.and (bytesOf_publish attempt _) (bytesOf_inline attempt _))) ?_ (fun _ _ held => loaded.1.trans held.1)
      rintro ⟨bytes,publish⟩ m'' ⟨stays,downloaded,inline⟩
      exact push_loads before own (loaded.later before stays) inline downloaded
  refine Ensures.bind looped ?_ (fun _ _ held => held)
  rintro builder m' ⟨stays,contents,prepared,digest,there⟩
  split
  · exact stays
  · exact ⟨stays,contents,prepared,by rw [← digest]; rfl,there⟩

theorem commit_stays {pid : Nat} {prepared : PreparedRuleSets} (targets : Targets setting prepared.pendingPublications) :
    Ensures (RuleSetSnapshots.commit setting pid prepared) m (fun _ m' => Stays setting m.disk m'.disk) := by
  refine Ensures.forEach (fun _ m' => Stays setting m.disk m'.disk) (.refl _) ?_ (fun _ held => held)
  intro done publication rest m' split kept
  obtain ⟨tag,format,url,target⟩ := targets publication (split ▸ List.mem_append_right _ List.mem_cons_self)
  obtain ⟨away,away',temporary⟩ := cache_names_outside setting.sha256 setting.base tag format url
  rw [← target] at away away' temporary
  have spared : Spares {name | Inside setting.base name} (commitCandidate setting.platform setting.pieces pid publication) :=
    spares_commitCandidate setting.platform setting.pieces pid away away' (temporary pid)
  refine Ensures.mono (Stays.spared (spared.fewer snapshotNames_inside)) ?_
  rintro (_ | _) m'' stays
  · exact kept.trans stays
  · exact kept.trans stays

/-- Two preparations that work, of whatever and whenever, have the same digest if and only if they have the same tags, formats and
    bytes in the same order. -/
theorem digests_identify (hash : Function.Injective setting.sha256) {attempts' : List Attempt} {pid pid' : Nat} {cancelled cancelled' : Bool} {m' after after' : Machine}
    {prepared prepared' : PreparedRuleSets} (fine : ∀ attempt ∈ attempts, planned setting attempt.resource = true)
    (fine' : ∀ attempt ∈ attempts', planned setting attempt.resource = true) (ran : prepareWithCancel setting pid attempts cancelled m = (.ok prepared,after))
    (ran' : prepareWithCancel setting pid' attempts' cancelled' m' = (.ok prepared',after')) :
    ∃ contents contents', PreparedFrom setting attempts prepared.pathReplacements prepared.pendingPublications contents ∧
      PreparedFrom setting attempts' prepared'.pathReplacements prepared'.pendingPublications contents' ∧
      ((∀ content ∈ contents ++ contents', content.Sized) → (prepared.digest = prepared'.digest ↔ contents.map Content.identity = contents'.map Content.identity)) := by
  have loaded := prepare_loads pid cancelled m fine
  have loaded' := prepare_loads pid' cancelled' m' fine'
  unfold Ensures at loaded loaded'
  rw [ran] at loaded
  rw [ran'] at loaded'
  obtain ⟨_,contents,known,digest,_⟩ := loaded
  obtain ⟨_,contents',known',digest',_⟩ := loaded'
  refine ⟨contents,contents',known,known',fun sized => ?_⟩
  rw [digest,digest',hash.eq_iff]
  exact frames_identify (fun content listed => sized content (List.mem_append_left _ listed)) (fun content listed => sized content (List.mem_append_right _ listed))

end Preparing

/-- A setting whose digests are the bytes themselves, all of them valid. -/
def openSetting : Setting := { plainSetting with sha256 := id }

/-- The rules of `emptyRules` in a later version. -/
def laterRules : Attempt := ⟨⟨"ads","source","agent/runtime/rule-sets/inline/ads-1.json",.inline (rulesText 53)⟩,false,false,none⟩

set_option maxRecDepth 4000 in
theorem versions_told_apart : ∃ (prepared prepared' : PreparedRuleSets) (after after' : Machine),
    prepareWithCancel openSetting 7 [emptyRules] false ⟨fun _ => none,[],0,[]⟩ = (.ok prepared,after) ∧
    prepareWithCancel openSetting 8 [laterRules] false ⟨fun _ => none,[],0,[]⟩ = (.ok prepared',after') ∧ prepared.digest ≠ prepared'.digest := by
  have ran : ∃ prepared after, prepareWithCancel openSetting 7 [emptyRules] false ⟨fun _ => none,[],0,[]⟩ = (.ok prepared,after) := ⟨_,_,rfl⟩
  have ran' : ∃ prepared after, prepareWithCancel openSetting 8 [laterRules] false ⟨fun _ => none,[],0,[]⟩ = (.ok prepared,after) := ⟨_,_,rfl⟩
  obtain ⟨prepared,after,ran⟩ := ran
  obtain ⟨prepared',after',ran'⟩ := ran'
  refine ⟨prepared,prepared',after,after',ran,ran',?_⟩
  have only {attempt : Attempt} {own : Bytes} {replacements : Map String String} {publications : List PendingPublication} {contents : List Content}
      (known : PreparedFrom openSetting [attempt] replacements publications contents) (inline : attempt.resource.source = .inline own) :
      contents = [⟨attempt.resource,own⟩] := by
    obtain ⟨content,rfl⟩ := List.length_eq_one_iff.mp ((List.length_map ..).symm.trans ((congrArg List.length known.resources).trans (List.length_map ..)))
    have same : content.resource = attempt.resource := List.head_eq_of_cons_eq known.resources
    have bytes := known.inline content (List.mem_singleton_self _) own (by rw [same]; exact inline)
    rw [← same,← bytes]
  obtain ⟨contents,contents',known,known',identified⟩ := digests_identify Function.injective_id (by decide) (by decide) ran ran'
  obtain rfl := only known rfl
  obtain rfl := only known' rfl
  rw [ne_eq,identified (by decide +kernel)]
  decide

/-! ### Runs -/

section Runs
variable {setting : Setting}

/-- No step takes a snapshot away. -/
theorem stays_step {w w' : World} (sound : Sound setting w) {action : Action} (taken : worldStep setting w action = some w') : Stays setting w.disk w'.disk := by
  have ended {α : Type} {p : Program α} {m : Machine} {results : α → List PreparedRuleSets} (stays : Ensures p m (fun _ m' => Stays setting w.disk m'.disk)) :
      Stays setting w.disk (w.after (p m) results).disk := by
    unfold Ensures at stays
    generalize p m = ran at stays ⊢
    obtain ⟨(message | _) | a,m'⟩ := ran
    · exact stays
    · exact stays
    · exact stays
  cases action with
  | start pid =>
    dsimp only [worldStep] at taken
    split at taken
    · cases taken
      exact .refl _
    · cases taken
  | prepare attempts cancelled fates =>
    dsimp only [worldStep] at taken
    split at taken
    · cases taken
    · split at taken
      · next fine =>
        cases taken
        refine ended (Ensures.mono (prepare_loads _ _ _ (List.all_eq_true.mp fine)) ?_)
        rintro (failure | prepared) m' held
        · exact held
        · exact held.1
      · cases taken
  | commit index fates =>
    dsimp only [worldStep] at taken
    split at taken
    · next pid prepared running known =>
      cases taken
      exact ended (commit_stays (sound.targets prepared (List.mem_of_getElem? known)))
    · cases taken
  | elsewhere name file =>
    dsimp only [worldStep] at taken
    split at taken
    · cases taken
    · next outside =>
      cases taken
      refine .same (fun other listed => ?_)
      exact put_other _ _ (fun same => outside (same ▸ snapshotNames_inside listed))
  | powerLoss left =>
    cases taken
    intro name listed there
    obtain ⟨file,here⟩ := Option.isSome_iff_exists.mp there
    dsimp only
    rw [torn_at left here]
    rfl

variable {disk : Disk}

/-- Every world of a run that cuts no snapshot is sound. -/
theorem sound_of_whole (injective : Function.Injective setting.contentDigest) (empty : ∀ name, Inside setting.base name → disk name = none) {actions : List Action}
    {w : World} (run : Run (worldStep setting) (initial disk) actions w)
    (whole : ∀ before left after v, actions = before ++ .powerLoss left :: after → Run (worldStep setting) (initial disk) before v → Whole setting left v.disk) :
    Sound setting w := by
  induction run with
  | nil =>
    refine ⟨?_,fun _ impossible => (by cases impossible)⟩
    intro format bytes file _ here
    cases (empty _ (nameOf_inside format bytes)).symm.trans here
  | @snoc earlier w action w' run taken ih =>
    have before := ih (fun before left after v split => whole before left (after ++ [action]) v (by rw [split]; simp))
    refine sound_step injective before ?_ taken
    rintro left rfl
    exact whole earlier left [] w rfl run

theorem stays_run (injective : Function.Injective setting.contentDigest) (empty : ∀ name, Inside setting.base name → disk name = none) {earlier later : List Action}
    {w w' : World} (run : Run (worldStep setting) (initial disk) earlier w) (more : Run (worldStep setting) w later w')
    (whole : ∀ before left after v, earlier ++ later = before ++ .powerLoss left :: after → Run (worldStep setting) (initial disk) before v → Whole setting left v.disk) :
    Stays setting w.disk w'.disk := by
  induction more with
  | nil => exact .refl _
  | @snoc later v action w' more taken ih =>
    have shorter : ∀ before left after v, earlier ++ later = before ++ .powerLoss left :: after → Run (worldStep setting) (initial disk) before v → Whole setting left v.disk :=
      fun before left after v split => whole before left (after ++ [action]) v (by rw [← List.append_assoc,split]; simp)
    exact (ih shorter).trans (stays_step (sound_of_whole injective empty (run.append more) shorter) taken)

/-- What a preparation that works makes of its attempts holds for good. The bytes of every attempt were validated, its path leads to a
    snapshot, and this snapshot has just these bytes in every later state, whatever fails and whoever ends, as long as no power loss
    cuts a snapshot that was not written back. -/
theorem prepared_for_good (injective : Function.Injective setting.contentDigest) (empty : ∀ name, Inside setting.base name → disk name = none)
    {earlier later : List Action} {w w' w'' : World} {attempts : List Attempt} {cancelled : Bool} {fates : List Fate}
    (run : Run (worldStep setting) (initial disk) earlier w) (taken : worldStep setting w (.prepare attempts cancelled fates) = some w')
    (more : Run (worldStep setting) w' later w'')
    (whole : ∀ before left after v, earlier ++ .prepare attempts cancelled fates :: later = before ++ .powerLoss left :: after →
      Run (worldStep setting) (initial disk) before v → Whole setting left v.disk)
    {prepared : PreparedRuleSets} (made : w'.prepared = w.prepared ++ [prepared]) :
    ∃ contents, PreparedFrom setting attempts prepared.pathReplacements prepared.pendingPublications contents ∧
      prepared.digest = setting.sha256 (contents.flatMap frame) ∧
      ∀ content ∈ contents, ∃ file, w''.disk (nameOf setting content.resource.format content.bytes) = some file ∧ file.content = content.bytes := by
  have joined : earlier ++ [.prepare attempts cancelled fates] ++ later = earlier ++ .prepare attempts cancelled fates :: later := by simp
  have stays := stays_run injective empty (run.snoc taken) more (by rw [joined]; exact whole)
  have sound : Sound setting w'' := sound_of_whole injective empty ((run.snoc taken).append more) (by rw [joined]; exact whole)
  dsimp only [worldStep] at taken
  split at taken
  · cases taken
  · next pid running =>
    split at taken
    · next fine =>
      have planned : ∀ attempt ∈ attempts, planned setting attempt.resource = true := List.all_eq_true.mp fine
      have loaded := prepare_loads pid cancelled ⟨w.disk,fates,w.counter,[]⟩ planned
      cases taken
      unfold Ensures at loaded
      generalize prepareWithCancel setting pid attempts cancelled ⟨w.disk,fates,w.counter,[]⟩ = ran at loaded made stays
      obtain ⟨(message | _) | result,m'⟩ := ran
      · exact absurd (congrArg List.length made) (by simp [World.after])
      · exact absurd (congrArg List.length made) (by simp [World.after])
      · obtain rfl : result = prepared := by simpa [World.after] using made
        obtain ⟨_,contents,known,digest,there⟩ := loaded
        refine ⟨contents,known,digest,?_⟩
        intro content listed
        have own : content.resource ∈ attempts.map Attempt.resource := known.resources ▸ List.mem_map_of_mem listed
        obtain ⟨attempt,member,same⟩ := List.mem_map.mp own
        have format : KnownFormat content.resource.format := same ▸ planned_format (planned attempt member)
        obtain ⟨file,here⟩ := Option.isSome_iff_exists.mp (stays _ ⟨_,_,format,rfl⟩ (there content listed))
        exact ⟨file,here,sound.immutable _ _ file format here⟩
    · cases taken

end Runs

def downloadedRules : Attempt :=
  ⟨⟨"ads","source",cachePath (fun _ => []) "agent" "ads" "source" "https://example.org/ads.json",.remote "https://example.org/ads.json"⟩,
    false,false,some (.ok (rulesText 52))⟩

/-- The process ends before what it downloaded has the name of the cache file, and the next one prepares later rules. -/
def unfinishedRun : List Action := [.commit 0 (List.replicate 8 .works ++ [.crashes]),.start 8,.prepare [laterRules] false []]

set_option maxRecDepth 4000 in
theorem downloaded_rules_stay : ∃ (w w' w'' : World) (prepared : PreparedRuleSets),
    Run (worldStep plainSetting) (initial (fun _ => none)) [.start 7] w ∧ worldStep plainSetting w (.prepare [downloadedRules] false []) = some w' ∧
    Run (worldStep plainSetting) w' unfinishedRun w'' ∧
    ∃ contents, PreparedFrom plainSetting [downloadedRules] prepared.pathReplacements prepared.pendingPublications contents ∧
      prepared.digest = plainSetting.sha256 (contents.flatMap frame) ∧
      ∀ content ∈ contents, ∃ file, w''.disk (nameOf plainSetting content.resource.format content.bytes) = some file ∧ file.content = content.bytes := by
  have run : Run (worldStep plainSetting) (initial (fun _ => none)) [.start 7] ⟨fun _ => none,some 7,0,[]⟩ := Run.of_follow rfl
  have taken : ∃ w' w'' prepared, worldStep plainSetting ⟨fun _ => none,some 7,0,[]⟩ (.prepare [downloadedRules] false []) = some w' ∧
      w'.prepared = [] ++ [prepared] ∧ Run (worldStep plainSetting) w' unfinishedRun w'' := ⟨_,_,_,rfl,rfl,Run.of_follow rfl⟩
  obtain ⟨w',w'',prepared,taken,made,more⟩ := taken
  refine ⟨_,w',w'',prepared,run,taken,more,?_⟩
  refine prepared_for_good Function.injective_id (fun _ _ => rfl) run taken more ?_ made
  intro before left after v split
  have listed : Action.powerLoss left ∈ ([.start 7] ++ .prepare [downloadedRules] false [] :: unfinishedRun : List Action) := split ▸ (by simp)
  simp [unfinishedRun] at listed

end NodeAgent.PreparedContents
