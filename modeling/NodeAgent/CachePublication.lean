import NodeAgent.Delimiters
import NodeAgent.RuleSetFiles

/-!
The publication of a rule set in its cache file. The invariant says which contents are allowed
for the cache file and for the copy that is put aside while it is replaced, and that one of the
two is there once a cache file has been; recovery makes the cache file of what is there.
-/
namespace NodeAgent.CachePublication
open NodeAgent.Fallible NodeAgent.Disks NodeAgent.RuleSetFiles NodeAgent.TopologyDigest
open NodeAgent.Credential (Bytes)

/-! ### The invariant -/

structure Sound (target backup : String) (allowed : Bytes → Prop) (once : Prop) (m : Machine) : Prop where
  current : ∀ file, m.disk target = some file → allowed file.content
  previous : ∀ file, m.disk target = none → m.disk backup = some file → allowed file.content
  stays : (once ∨ ∃ disk ∈ m.history, disk target ≠ none) → m.disk target ≠ none ∨ m.disk backup ≠ none

section Invariant
variable {target backup : String} {allowed : Bytes → Prop} {once : Prop} {m m' : Machine} {α : Type}

theorem Sound.weaken {allowed' : Bytes → Prop} (sound : Sound target backup allowed once m) (more : ∀ bytes, allowed bytes → allowed' bytes) :
    Sound target backup allowed' once m :=
  ⟨fun file here => more _ (sound.current file here),fun file gone here => more _ (sound.previous file gone here),sound.stays⟩

/-- Only the two files count, now and before. -/
theorem Sound.same (sound : Sound target backup allowed once m) (current : m'.disk target = m.disk target) (previous : m'.disk backup = m.disk backup)
    (history : m'.history = m.history) : Sound target backup allowed once m' := by
  refine ⟨?_,?_,?_⟩
  · rw [current]
    exact sound.current
  · rw [current,previous]
    exact sound.previous
  · rw [current,previous,history]
    exact sound.stays

/-- Nothing changes where the two files are left alone. -/
theorem Sound.spared {names : Set String} {p : Program α} (sound : Sound target backup allowed once m) (spares : Spares names p)
    (here : target ∈ names) (there : backup ∈ names) :
    Ensures p m (fun _ m' => Sound target backup allowed once m' ∧ ∀ name ∈ names, m'.disk name = m.disk name) := by
  refine Ensures.mono (spares m) ?_
  rintro _ m' ⟨same,passed⟩
  have target_same := same target here
  have backup_same := same backup there
  refine ⟨⟨?_,?_,?_⟩,same⟩
  · rw [target_same]
    exact sound.current
  · rw [target_same,backup_same]
    exact sound.previous
  · rw [target_same,backup_same]
    rintro (always | ⟨disk,listed,present⟩)
    · exact sound.stays (.inl always)
    · rcases passed disk listed with earlier | later
      · exact sound.stays (.inr ⟨disk,earlier,present⟩)
      · rw [later target here] at present
        exact .inl present

/-- A step that leaves the cache file allowed or puts it aside. -/
theorem Sound.stepped {disk : Disk} {fates : List Fate} {counter : Nat} (sound : Sound target backup allowed once m)
    (current : ∀ file, disk target = some file → allowed file.content)
    (previous : ∀ file, disk target = none → disk backup = some file → allowed file.content)
    (kept : m.disk target ≠ none ∨ m.disk backup ≠ none → disk target ≠ none ∨ disk backup ≠ none) :
    Sound target backup allowed once ⟨disk,fates,counter,m.disk :: m.history⟩ := by
  refine ⟨current,previous,?_⟩
  rintro (always | ⟨old,listed,present⟩)
  · exact kept (sound.stays (.inl always))
  · rcases List.mem_cons.mp listed with rfl | earlier
    · exact kept (.inl present)
    · exact kept (sound.stays (.inr ⟨old,earlier,present⟩))

/-- A step that fails changes neither file. -/
theorem Sound.failed {fates : List Fate} (sound : Sound target backup allowed once m) : Sound target backup allowed once { m with fates := fates } :=
  ⟨sound.current,sound.previous,sound.stays⟩

end Invariant

/-! ### Recovery -/

section Recovery
variable {target backup tag : String} {allowed : Bytes → Prop} {once : Prop} {m : Machine}

/-- What recovery leaves. -/
def Recovered (target backup : String) (allowed : Bytes → Prop) (once : Prop) (m : Machine) (r : Except Failure Unit) (m' : Machine) : Prop :=
  Sound target backup allowed once m' ∧ (r = .ok () → m'.disk backup = none) ∧ ∀ name, name ≠ target → name ≠ backup → m'.disk name = m.disk name

/-- Recovery works if no step fails. -/
theorem recover_works (smooth : m.fates = []) : Ensures (recoverFrom backup target tag) m (fun r _ => r = .ok ()) := by
  have explained {p : Program Unit} {text : String → String} (holds : Ensures p m (fun r _ => r = .ok ())) :
      Ensures (explain p text) m (fun r _ => r = .ok ()) :=
    ensures_explain holds (fun _ _ _ => rfl) (fun _ _ _ impossible => (by cases impossible))
  refine ensures_exists ?_
  cases aside : m.disk backup with
  | none => exact rfl
  | some previous =>
    refine ensures_exists ?_
    cases present : m.disk target with
    | none => exact explained (ensures_works (by rw [aside]) smooth rfl)
    | some file => exact explained (ensures_works (by rw [aside]) smooth rfl)

theorem Recovered.failed {fates : List Fate} {failure : Failure} (sound : Sound target backup allowed once m) :
    Recovered target backup allowed once m (.error failure) { m with fates := fates } :=
  ⟨sound.failed,fun impossible => (by cases impossible),fun _ _ _ => rfl⟩

/-- Nothing is put aside after it, if it works. -/
theorem recover_spec (apart : backup ≠ target) (sound : Sound target backup allowed once m) :
    Ensures (recoverFrom backup target tag) m (Recovered target backup allowed once m) := by
  have explained {p : Program Unit} {text : String → String} (holds : Ensures p m (Recovered target backup allowed once m)) :
      Ensures (explain p text) m (Recovered target backup allowed once m) :=
    ensures_explain holds (fun _ _ held => held) (fun _ _ _ held => ⟨held.1,fun impossible => (by cases impossible),held.2.2⟩)
  refine ensures_exists ?_
  cases aside : m.disk backup with
  | none => exact ⟨sound,fun _ => aside,fun _ _ _ => rfl⟩
  | some previous =>
    refine ensures_exists ?_
    cases present : m.disk target with
    | none =>
      refine explained (ensures_step ?_ (fun _ _ => Recovered.failed sound))
      intro disk fates done
      rw [aside] at done
      cases done
      refine ⟨sound.stepped ?_ ?_ ?_,fun _ => ?_,?_⟩
      · intro file here
        cases (put_same (m.disk.put backup none) target (some previous)).symm.trans here
        exact sound.previous _ present aside
      · intro file gone
        cases (put_same (m.disk.put backup none) target (some previous)).symm.trans gone
      · intro _
        left
        rw [put_same]
        exact Option.some_ne_none _
      · exact (put_other _ _ apart).trans (put_same ..)
      · intro name other other'
        exact (put_other _ _ other).trans (put_other _ _ other')
    | some file =>
      refine explained (ensures_step ?_ (fun _ _ => Recovered.failed sound))
      intro disk fates done
      rw [aside] at done
      cases done
      have kept : (m.disk.put backup none) target = some file := (put_other _ _ apart.symm).trans present
      refine ⟨sound.stepped ?_ ?_ ?_,fun _ => put_same ..,?_⟩
      · intro file' here
        cases kept.symm.trans here
        exact sound.current file present
      · intro file' gone
        cases kept.symm.trans gone
      · intro _
        exact .inl (ne_of_eq_of_ne kept (Option.some_ne_none _))
      · intro name _ other
        exact put_other _ _ other

end Recovery

/-! ### Publication -/

section Publication
variable {target backup temporary tag : String} {allowed : Bytes → Prop} {once : Prop} {m : Machine} {file : File}

/-- What publication leaves: the new content, or an old state with the new content allowed. -/
def Published (target backup : String) (allowed : Bytes → Prop) (once : Prop) (content : Bytes) : Except Failure Unit → Machine → Prop :=
  Outcome (fun _ m' => Sound target backup allowed once m' ∧ m'.disk backup = none ∧ ∃ file, m'.disk target = some file ∧ file.content = content)
    (fun _ m' => Sound target backup allowed once m')

/-- The new file takes the place of a cache file, or of one that has been put aside. -/
theorem rename_new (apart : backup ≠ target) (other : temporary ≠ backup) (sound : Sound target backup allowed once m) (fine : allowed file.content)
    (fresh : m.disk temporary = some file) :
    Ensures (rename temporary target) m (fun r m' => Sound target backup allowed once m' ∧ m'.disk backup = m.disk backup ∧
      (r = .ok () → m'.disk target = some file) ∧ (r ≠ .ok () → m'.disk target = m.disk target)) := by
  refine ensures_step ?_ (fun _ _ => ⟨sound.failed,rfl,fun impossible => (by cases impossible),fun _ => rfl⟩)
  intro disk fates done
  rw [fresh] at done
  cases done
  have placed := put_same (m.disk.put temporary none) target (some file)
  refine ⟨sound.stepped ?_ ?_ ?_,?_,fun _ => placed,fun impossible => absurd rfl impossible⟩
  · intro new here
    cases placed.symm.trans here
    exact fine
  · intro new gone
    cases placed.symm.trans gone
  · intro _
    exact .inl (ne_of_eq_of_ne placed (Option.some_ne_none _))
  · exact (put_other _ _ apart).trans (put_other _ _ other.symm)

/-- The cache file is put aside. -/
theorem rename_aside {old : File} (apart : backup ≠ target) (sound : Sound target backup allowed once m) (present : m.disk target = some old) :
    Ensures (rename target backup) m (fun r m' => Sound target backup allowed once m' ∧
      (r = .ok () → m'.disk target = none ∧ m'.disk backup = some old ∧ ∀ name, name ≠ target → name ≠ backup → m'.disk name = m.disk name)) := by
  refine ensures_step ?_ (fun _ _ => ⟨sound.failed,fun impossible => (by cases impossible)⟩)
  intro disk fates done
  rw [present] at done
  cases done
  have gone : ((m.disk.put target none).put backup (some old)) target = none := (put_other _ _ apart.symm).trans (put_same ..)
  have aside := put_same (m.disk.put target none) backup (some old)
  refine ⟨sound.stepped ?_ ?_ ?_,fun _ => ⟨gone,aside,?_⟩⟩
  · intro file here
    cases gone.symm.trans here
  · intro file _ here
    cases aside.symm.trans here
    exact sound.current _ present
  · intro _
    exact .inr (ne_of_eq_of_ne aside (Option.some_ne_none _))
  · intro name other other'
    exact (put_other _ _ other').trans (put_other _ _ other)

/-- What was put aside takes its place again. -/
theorem rename_back (sound : Sound target backup allowed once m) (gone : m.disk target = none) :
    Ensures (rename backup target) m (fun _ m' => Sound target backup allowed once m') := by
  refine ensures_step ?_ (fun _ _ => sound.failed)
  intro disk fates done
  cases aside : m.disk backup with
  | none =>
    rw [aside] at done
    cases done
  | some old =>
    rw [aside] at done
    cases done
    have placed := put_same (m.disk.put backup none) target (some old)
    refine sound.stepped ?_ ?_ ?_
    · intro file here
      cases placed.symm.trans here
      exact sound.previous _ gone aside
    · intro file impossible
      cases placed.symm.trans impossible
    · intro _
      exact .inl (ne_of_eq_of_ne placed (Option.some_ne_none _))

/-- What was put aside is removed when the cache file is there. -/
theorem remove_aside (apart : backup ≠ target) (sound : Sound target backup allowed once m) (present : m.disk target = some file) :
    Ensures (remove backup) m (fun r m' => Sound target backup allowed once m' ∧ (r = .ok () → m'.disk backup = none ∧ m'.disk target = some file)) := by
  refine ensures_step ?_ (fun _ _ => ⟨sound.failed,fun impossible => (by cases impossible)⟩)
  intro disk fates done
  cases aside : m.disk backup with
  | none =>
    rw [aside] at done
    cases done
  | some old =>
    rw [aside] at done
    cases done
    have kept : (m.disk.put backup none) target = some file := (put_other _ _ apart.symm).trans present
    refine ⟨sound.stepped ?_ ?_ ?_,fun _ => ⟨put_same ..,kept⟩⟩
    · intro file' here
      cases kept.symm.trans here
      exact sound.current file present
    · intro file' impossible
      cases kept.symm.trans impossible
    · intro _
      exact .inl (ne_of_eq_of_ne kept (Option.some_ne_none _))

theorem publish_unix (apart : backup ≠ target) (other : temporary ≠ backup) (sound : Sound target backup allowed once m)
    (clear : m.disk backup = none) (fine : allowed file.content) (fresh : m.disk temporary = some file) :
    Ensures (publishCache .unix temporary target tag) m (Published target backup allowed once file.content) := by
  refine ensures_explain (rename_new apart other sound fine fresh) ?_ (fun _ _ _ held => held.1)
  rintro _ m' ⟨sound',aside,done,_⟩
  exact ⟨sound',aside.trans clear,file,done rfl,rfl⟩

/-- On Windows the old file is put aside, put back if the new one does not come, and removed if it does. -/
theorem publish_windows (apart : backup ≠ target) (other : temporary ≠ backup) (other' : temporary ≠ target)
    (sound : Sound target backup allowed once m) (fine : allowed file.content) (fresh : m.disk temporary = some file) :
    Ensures (publishAside backup temporary target tag) m (Published target backup allowed once file.content) := by
  refine Ensures.bind (recover_spec apart sound) ?_ (fun _ _ held => held.1)
  rintro _ m₁ ⟨sound₁,clear,kept⟩
  have clear := clear rfl
  have fresh₁ : m₁.disk temporary = some file := (kept temporary other' other).trans fresh
  refine ensures_exists ?_
  cases present : m₁.disk target with
  | none =>
    refine Ensures.bind (Q := fun r m' => m' = m₁) rfl ?_ (fun _ _ same => by cases same; exact sound₁)
    rintro _ _ rfl
    refine Ensures.bind (ensures_tolerate (rename_new apart other sound₁ fine fresh₁) (R := Outcome (fun r m' => Sound target backup allowed once m' ∧
      m'.disk backup = none ∧ (r = .ok () → m'.disk target = some file)) (fun _ m' => Sound target backup allowed once m')) ?_ ?_ (fun _ held => held.1)) ?_
      (fun _ _ held => held)
    · rintro _ m₂ ⟨sound₂,aside,done,_⟩
      exact ⟨sound₂,aside.trans clear,fun _ => done rfl⟩
    · rintro message m₂ ⟨sound₂,aside,_,_⟩
      exact ⟨sound₂,aside.trans clear,fun impossible => (by cases impossible)⟩
    · rintro (message | _) m₂ ⟨sound₂,aside,done⟩
      · exact sound₂
      · exact ⟨sound₂,aside,file,done rfl,rfl⟩
  | some old =>
    refine Ensures.bind (Q := fun r m' => Sound target backup allowed once m' ∧
        (r = .ok () → m'.disk target = none ∧ m'.disk backup = some old ∧ ∀ name, name ≠ target → name ≠ backup → m'.disk name = m₁.disk name))
      (ensures_explain (rename_aside apart sound₁ present) (fun _ _ held => held) (fun _ _ _ held => ⟨held.1,fun impossible => (by cases impossible)⟩)) ?_
      (fun _ _ held => held.1)
    rintro _ m₂ ⟨sound₂,moved⟩
    obtain ⟨gone,_,kept₂⟩ := moved rfl
    have fresh₂ : m₂.disk temporary = some file := (kept₂ temporary other' other).trans fresh₁
    refine Ensures.bind (ensures_tolerate (rename_new apart other sound₂ fine fresh₂) (R := Outcome (fun r m' => Sound target backup allowed once m' ∧
      (r = .ok () → m'.disk target = some file) ∧ (r ≠ .ok () → m'.disk target = none)) (fun _ m' => Sound target backup allowed once m')) ?_ ?_
      (fun _ held => held.1)) ?_ (fun _ _ held => held)
    · rintro _ m₃ ⟨sound₃,_,done,_⟩
      exact ⟨sound₃,fun _ => done rfl,fun impossible => absurd rfl impossible⟩
    · rintro message m₃ ⟨sound₃,_,_,still⟩
      exact ⟨sound₃,fun impossible => (by cases impossible),fun _ => (still (fun impossible => (by cases impossible))).trans gone⟩
    · rintro (message | _) m₃ ⟨sound₃,done,still⟩
      · refine Ensures.bind (ensures_tolerate (rename_back sound₃ (still (fun impossible => (by cases impossible)))) (R := Outcome
          (fun _ m' => Sound target backup allowed once m') (fun _ m' => Sound target backup allowed once m')) (fun _ _ held => held) (fun _ _ held => held)
          (fun _ held => held)) ?_ (fun _ _ held => held)
        rintro (restore | _) m₄ sound₄
        · exact sound₄
        · exact sound₄
      · refine ensures_explain (remove_aside apart sound₃ (done rfl)) ?_ (fun _ _ _ held => held.1)
        rintro _ m₄ ⟨sound₄,removed⟩
        obtain ⟨clear₄,placed⟩ := removed rfl
        exact ⟨sound₄,clear₄,file,placed,rfl⟩

end Publication

/-! ### Commits -/

def temporaryOf (target : String) (pid sequence : Nat) : String := withExtension target s!"{pid}.{sequence}.commit"

/-- The files that a commit uses have different names. -/
structure Apart (publication : PendingPublication) (pid : Nat) : Prop where
  backup : backupOf publication.target ≠ publication.target
  temporary : ∀ sequence, temporaryOf publication.target pid sequence ≠ publication.target ∧
    temporaryOf publication.target pid sequence ≠ backupOf publication.target
  snapshot : publication.snapshot ≠ publication.target ∧ publication.snapshot ≠ backupOf publication.target ∧
    ∀ sequence, publication.snapshot ≠ temporaryOf publication.target pid sequence

section Commits
variable {target backup temporary : String} {allowed : Bytes → Prop} {once : Prop} {m : Machine}

/-- The invariant, and more if the operation works. -/
def Then (target backup : String) (allowed : Bytes → Prop) (once : Prop) (more : Machine → Prop) (r : Except Failure Unit) (m : Machine) : Prop :=
  Sound target backup allowed once m ∧ (r = .ok () → more m)

variable {more : Machine → Prop} {p : Program Unit}

theorem Then.explain {text : String → String} (holds : Ensures p m (Then target backup allowed once more)) :
    Ensures (explain p text) m (Then target backup allowed once more) :=
  ensures_explain holds (fun _ _ held => held) (fun _ _ _ held => ⟨held.1,fun impossible => (by cases impossible)⟩)

/-- Removing another file does no harm. -/
theorem Then.orRemove {text : String → String} (away : temporary ≠ target) (away' : temporary ≠ backup)
    (holds : Ensures p m (Then target backup allowed once more)) : Ensures (orRemove temporary p text) m (Then target backup allowed once more) := by
  refine Ensures.bind (ensures_tolerate holds (R := Outcome (fun r m' => Sound target backup allowed once m' ∧ (r = .ok () → more m'))
    (fun _ m' => Sound target backup allowed once m')) (fun _ _ held => ⟨held.1,fun _ => held.2 rfl⟩) (fun _ _ held => ⟨held.1,fun impossible => (by cases impossible)⟩)
    (fun _ held => held.1)) ?_ (fun _ _ held => ⟨held,fun impossible => (by cases impossible)⟩)
  rintro (message | _) m' ⟨sound,done⟩
  · have outside : temporary ∉ ({target,backup} : Set String) := by
      rintro (same | same)
      · exact away same
      · exact away' same
    refine Ensures.bind (sound.spared (Spares.ignore (Spares.remove outside)) (.inl rfl) (.inr rfl)) ?_
      (fun _ _ held => ⟨held.1,fun impossible => (by cases impossible)⟩)
    exact fun _ m'' held => ⟨held.1,fun impossible => (by cases impossible)⟩
  · exact ⟨sound,fun _ => done rfl⟩

/-- Steps that change no file. -/
theorem Then.nothing (sound : Sound target backup allowed once m) :
    Ensures nothing m (Then target backup allowed once (fun m' => m'.disk = m.disk)) :=
  Ensures.mono (sound.spared (@Spares.nothing Set.univ) trivial trivial) (fun _ _ held => ⟨held.1,fun _ => funext (fun name => held.2 name trivial)⟩)

theorem away_of_ne (away : temporary ≠ target) (away' : temporary ≠ backup) : temporary ∉ ({target,backup} : Set String) := by
  rintro (same | same)
  · exact away same
  · exact away' same

section Temporary
variable (away : temporary ≠ target) (away' : temporary ≠ backup) (sound : Sound target backup allowed once m)
include away away' sound

theorem created : Ensures (create temporary) m (Then target backup allowed once (fun m' => m'.disk backup = m.disk backup ∧
    m'.disk temporary = some ⟨[],false⟩)) := by
  refine Ensures.mono (Ensures.and (sound.spared (Spares.create (away_of_ne away away')) (.inl rfl) (.inr rfl)) (ensures_step
    (R := fun r m' => r = .ok () → m'.disk temporary = some ⟨[],false⟩) ?_ (fun _ _ impossible => (by cases impossible))))
    (fun _ _ both => ⟨both.1.1,fun done => ⟨both.1.2 backup (.inr rfl),both.2 done⟩⟩)
  intro disk fates done _
  cases done
  exact put_same ..

/-- The temporary file gets all of the source. -/
theorem copied (pieces : Pieces) (source : Bytes) {durable : Bool} (empty : m.disk temporary = some ⟨[],durable⟩) :
    Ensures (copyAll temporary (pieces.split source)) m (Then target backup allowed once (fun m' => m'.disk backup = m.disk backup ∧
      ∃ durable, m'.disk temporary = some ⟨source,durable⟩)) := by
  refine Ensures.mono (Ensures.and (sound.spared (Spares.copyAll (away_of_ne away away') _) (.inl rfl) (.inr rfl)) (ensures_copyAll _ empty)) ?_
  rintro r m' ⟨⟨sound',same⟩,copied⟩
  refine ⟨sound',fun done => ⟨same backup (.inr rfl),?_⟩⟩
  obtain ⟨durable,there⟩ := copied done
  rw [List.nil_append,pieces.whole] at there
  exact ⟨durable,there⟩

theorem synced {source : Bytes} {durable : Bool} (there : m.disk temporary = some ⟨source,durable⟩) :
    Ensures (sync temporary) m (Then target backup allowed once (fun m' => m'.disk backup = m.disk backup ∧
      m'.disk temporary = some ⟨source,true⟩)) := by
  refine Ensures.mono (Ensures.and (sound.spared (Spares.sync (away_of_ne away away')) (.inl rfl) (.inr rfl)) (ensures_step
    (R := fun r m' => r = .ok () → m'.disk temporary = some ⟨source,true⟩) ?_ (fun _ _ impossible => (by cases impossible))))
    (fun _ _ both => ⟨both.1.1,fun done => ⟨both.1.2 backup (.inr rfl),both.2 done⟩⟩)
  intro disk fates done _
  rw [there] at done
  cases done
  exact put_same ..

end Temporary

theorem published (platform : Platform) {tag : String} {file : File} (apart : backup ≠ target) (away : temporary ≠ target) (away' : temporary ≠ backup)
    (same : backup = backupOf target) (sound : Sound target backup allowed once m) (clear : m.disk backup = none) (fine : allowed file.content)
    (fresh : m.disk temporary = some file) :
    Ensures (publishCache platform temporary target tag) m (Published target backup allowed once file.content) := by
  subst same
  cases platform with
  | unix => exact publish_unix apart away' sound clear fine fresh
  | windows => exact publish_windows apart away' away sound fine fresh

end Commits

section Commit
variable {publication : PendingPublication} {pid : Nat} {allowed : Bytes → Prop} {once : Prop} {m : Machine}

/-- What a snapshot contains. -/
def Contains (disk : Disk) (name : String) (bytes : Bytes) : Prop := ∃ file, disk name = some file ∧ file.content = bytes

/-- A commit leaves its candidate, or an old state or its candidate if it fails. -/
theorem commit_spec (platform : Platform) (pieces : Pieces) (apart : Apart publication pid)
    (sound : Sound publication.target (backupOf publication.target) allowed once m) :
    Ensures (commitCandidate platform pieces pid publication) m (Outcome
      (fun _ m' => Sound publication.target (backupOf publication.target) (Contains m.disk publication.snapshot) True m')
      (fun _ m' => Sound publication.target (backupOf publication.target) (fun bytes => allowed bytes ∨ Contains m.disk publication.snapshot bytes) once m')) := by
  have wider : Sound publication.target (backupOf publication.target) (fun bytes => allowed bytes ∨ Contains m.disk publication.snapshot bytes) once m :=
    sound.weaken (fun _ fine => .inl fine)
  refine Ensures.bind (recover_spec apart.backup wider) ?_ (fun _ _ held => held.1)
  rintro _ m₁ ⟨sound₁,clear,kept⟩
  have clear := clear rfl
  have source₁ := kept publication.snapshot apart.snapshot.1 apart.snapshot.2.1
  refine Ensures.bind (Then.explain (Then.nothing sound₁)) ?_ (fun _ _ held => held.1)
  rintro _ m₂ ⟨sound₂,same₂⟩
  have same₂ := same₂ rfl
  refine Ensures.bind (Q := fun r m' => r = .ok m₂.counter ∧ m' = { m₂ with counter := m₂.counter + 1 }) ⟨rfl,rfl⟩ ?_
    (fun _ _ impossible => (by cases impossible.1))
  rintro sequence m₃ ⟨done,numbered⟩
  have sequence_same : sequence = m₂.counter := Except.ok.inj done
  have same₃ : m₃.disk = m₂.disk := by rw [numbered]
  have sound₃ : Sound publication.target (backupOf publication.target) (fun bytes => allowed bytes ∨ Contains m.disk publication.snapshot bytes) once m₃ := by
    rw [numbered]
    exact ⟨sound₂.current,sound₂.previous,sound₂.stays⟩
  clear done numbered
  obtain ⟨away,away'⟩ := apart.temporary sequence
  refine Ensures.bind (ensures_explain (Ensures.and (sound₃.spared (@Spares.readFile Set.univ publication.snapshot) trivial trivial)
    (ensures_readFile publication.snapshot)) (R := Outcome (fun source m' => Sound publication.target (backupOf publication.target)
      (fun bytes => allowed bytes ∨ Contains m.disk publication.snapshot bytes) once m' ∧ m'.disk = m₃.disk ∧ Contains m.disk publication.snapshot source)
    (fun _ m' => Sound publication.target (backupOf publication.target) (fun bytes => allowed bytes ∨ Contains m.disk publication.snapshot bytes) once m'))
    ?_ (fun _ _ _ held => held.1.1)) ?_ (fun _ _ held => held)
  · rintro source m' ⟨⟨sound',_⟩,same',found⟩
    obtain ⟨file,here,content⟩ := found source rfl
    rw [same₃,same₂,source₁] at here
    exact ⟨sound',same',file,here,content⟩
  rintro source m₄ ⟨sound₄,same₄,candidate⟩
  have clear₄ : m₄.disk (backupOf publication.target) = none := by rw [same₄,same₃,same₂,clear]
  refine Ensures.bind (Then.explain (created away away' sound₄)) ?_ (fun _ _ held => held.1)
  rintro _ m₅ ⟨sound₅,made⟩
  obtain ⟨aside₅,empty⟩ := made rfl
  refine Ensures.bind (Then.orRemove away away' (copied away away' sound₅ pieces source empty)) ?_ (fun _ _ held => held.1)
  rintro _ m₆ ⟨sound₆,made⟩
  obtain ⟨aside₆,durable,full⟩ := made rfl
  refine Ensures.bind (Then.orRemove away away' (Then.nothing sound₆)) ?_ (fun _ _ held => held.1)
  rintro _ m₇ ⟨sound₇,same₇⟩
  have same₇ := same₇ rfl
  have full₇ : m₇.disk (temporaryOf publication.target pid sequence) = some ⟨source,durable⟩ := by rw [same₇,full]
  refine Ensures.bind (Then.orRemove away away' (synced away away' sound₇ full₇)) ?_ (fun _ _ held => held.1)
  rintro _ m₈ ⟨sound₈,made⟩
  obtain ⟨aside₈,full₈⟩ := made rfl
  have clear₈ : m₈.disk (backupOf publication.target) = none := by rw [aside₈,same₇,aside₆,aside₅,clear₄]
  have fresh : Ensures (publishCache platform (temporaryOf publication.target pid sequence) publication.target publication.tag) m₈
      (Published publication.target (backupOf publication.target) (fun bytes => allowed bytes ∨ Contains m.disk publication.snapshot bytes) once source) :=
    published platform apart.backup away away' rfl sound₈ clear₈ (.inr candidate) full₈
  refine Ensures.bind (Q := Then publication.target (backupOf publication.target) (fun bytes => allowed bytes ∨ Contains m.disk publication.snapshot bytes) once
    (fun m' => ∃ file, m'.disk publication.target = some file ∧ file.content = source)) (Then.orRemove away away' ?_) ?_ (fun _ _ held => held.1)
  · refine Ensures.mono fresh ?_
    rintro (failure | _) m' held
    · exact ⟨held,fun impossible => (by cases impossible)⟩
    · exact ⟨held.1,fun _ => held.2.2⟩
  rintro _ m₉ ⟨sound₉,placed⟩
  obtain ⟨file,here,content⟩ := placed rfl
  -- Whatever happens now, the candidate is in its place.
  have final {m' : Machine} (same : m'.disk publication.target = m₉.disk publication.target) :
      Sound publication.target (backupOf publication.target) (Contains m.disk publication.snapshot) True m' := by
    refine ⟨fun file' there => ?_,fun _ gone => ?_,fun _ => .inl ?_⟩
    · rw [same,here] at there
      cases there
      exact content ▸ candidate
    · rw [same,here] at gone
      cases gone
    · rw [same,here]
      exact Option.some_ne_none _
  cases platform with
  | unix =>
    refine Ensures.mono (Then.explain (Then.nothing sound₉)) ?_
    rintro (failure | _) m' held
    · exact held.1
    · exact final (by rw [held.2 rfl])
  | windows => exact final rfl

end Commit

/-! ### Names -/

section Names
variable {sha256 : Bytes → Bytes} {base tag format url : String}

theorem withExtension_named {stem extension other : String} (plain : '.' ∉ extension.toList) :
    withExtension (stem ++ "." ++ extension) other = stem ++ "." ++ other := by
  have dot : ".".toList = ['.'] := rfl
  have stripped : ((stem ++ "." ++ extension).toList.reverse.dropWhile (fun c => c ≠ '.')).drop 1 = stem.toList.reverse := by
    rw [String.toList_append,String.toList_append,dot,List.append_assoc,List.reverse_append,List.reverse_append,List.append_assoc,
      List.dropWhile_append_of_pos]
    · simp
    · intro c member
      exact decide_eq_true (fun same => plain (same ▸ List.mem_reverse.mp member))
  rw [withExtension,stripped,List.reverse_reverse,String.ofList_toList]

theorem extensionOf_plain (format : String) : '.' ∉ (extensionOf format).toList ∧ '/' ∉ (extensionOf format).toList := by
  unfold extensionOf
  split <;> decide

theorem safeRuleSetTag_plain (tag : String) : '/' ∉ (safeRuleSetTag tag).toList := by
  unfold safeRuleSetTag
  dsimp only
  split
  · decide
  · rw [String.toList_ofList]
    intro member
    obtain ⟨character,_,same⟩ := List.mem_map.mp (List.mem_of_mem_take member)
    split at same
    · next fine =>
      rw [same] at fine
      exact absurd fine (by decide)
    · exact absurd same (by decide)

theorem hexEncode_plain (bytes : Bytes) : '/' ∉ (hexEncode bytes).toList := by
  have digits : '/' ∉ DIGITS := by decide
  have digit_plain (nibble : UInt8) : digit nibble ≠ '/' := by
    unfold digit
    cases found : DIGITS[nibble.toNat]? with
    | none => decide
    | some c => exact fun same => digits (same ▸ List.mem_of_getElem? found)
  rw [hexEncode,String.toList_ofList]
  intro member
  obtain ⟨byte,_,here⟩ := List.mem_flatMap.mp member
  rcases List.mem_pair.mp here with high | low
  · exact digit_plain _ high.symm
  · exact digit_plain _ low.symm

theorem cacheStem_named (other : String) : withExtension (cachePath sha256 base tag format url) other = cacheStem sha256 base tag format url ++ "." ++ other :=
  withExtension_named (extensionOf_plain format).1

/-- Snapshots are in a directory of their own. -/
theorem snapshot_elsewhere {extension format' : String} {bytes : Bytes} (plain : '/' ∉ extension.toList) :
    snapshotPath sha256 (snapshotRoot base) format' bytes ≠ cacheStem sha256 base tag format url ++ "." ++ extension := by
  intro same
  have chars := congrArg String.toList same
  simp only [snapshotPath,snapshotRoot,cacheStem,String.toList_append,List.append_assoc] at chars
  have names := List.append_cancel_left chars
  have slash : '/' ∈ "snapshots".toList ++ ("/".toList ++ (format'.toList ++ ("-".toList ++ ((hexEncode ((sha256 bytes).take 16)).toList ++
      (".".toList ++ (extensionOf format').toList))))) := by simp
  rw [names] at slash
  simp only [List.mem_append] at slash
  rcases slash with safe | dash | hex | dot | rest
  · exact safeRuleSetTag_plain tag safe
  · exact absurd dash (by decide)
  · exact hexEncode_plain _ hex
  · exact absurd dot (by decide)
  · exact plain rest

theorem commit_text (pid sequence : Nat) : (s!"{pid}.{sequence}.commit").toList =
    (toString pid).toList ++ '.' :: (toString sequence).toList ++ ".commi".toList ++ ['t'] := by
  have text : s!"{pid}.{sequence}.commit" = toString pid ++ "." ++ toString sequence ++ ".commit" := rfl
  rw [text]
  simp [String.toList_append]

theorem commit_plain (pid sequence : Nat) : '/' ∉ (s!"{pid}.{sequence}.commit").toList := by
  have number {n : Nat} : '/' ∉ (toString n).toList := fun member => absurd (Delimiters.isDigit_of_mem member) (by decide)
  rw [commit_text]
  simp only [List.mem_append,List.mem_cons,not_or]
  exact ⟨⟨⟨number,by decide,number⟩,by decide⟩,by decide,List.not_mem_nil⟩

/-- The extension of a temporary file ends in another letter than those of the other files. -/
theorem commit_ne {extension : String} (pid sequence : Nat) (last : extension.toList.getLast? ≠ some 't') : s!"{pid}.{sequence}.commit" ≠ extension := by
  rintro rfl
  rw [commit_text,List.getLast?_concat] at last
  exact last rfl

/-- Two names of the same stem with different extensions. -/
theorem named_ne {stem extension other : String} (different : extension ≠ other) : stem ++ "." ++ extension ≠ stem ++ "." ++ other := by
  intro same
  have chars := congrArg String.toList same
  simp only [String.toList_append,List.append_assoc] at chars
  exact different (String.toList_inj.mp (List.append_cancel_left (List.append_cancel_left chars)))

theorem publicationOf_apart (bytes : Bytes) (pid : Nat) : Apart (publicationOf sha256 base tag format url bytes) pid := by
  have backup : backupOf (cachePath sha256 base tag format url) = cacheStem sha256 base tag format url ++ "." ++ "previous" := cacheStem_named _
  have temporary (sequence : Nat) : temporaryOf (cachePath sha256 base tag format url) pid sequence =
      cacheStem sha256 base tag format url ++ "." ++ s!"{pid}.{sequence}.commit" := cacheStem_named _
  have last : (extensionOf format).toList.getLast? ≠ some 't' := by
    unfold extensionOf
    split <;> decide
  have other : "previous" ≠ extensionOf format := by
    unfold extensionOf
    split <;> decide
  refine ⟨?_,fun sequence => ⟨?_,?_⟩,?_,?_,fun sequence => ?_⟩
  · exact ne_of_eq_of_ne backup (named_ne other)
  · exact ne_of_eq_of_ne (temporary sequence) (named_ne (commit_ne pid sequence last))
  · exact ne_of_eq_of_ne (temporary sequence) (ne_of_ne_of_eq (named_ne (commit_ne pid sequence (by decide))) backup.symm)
  · exact snapshot_elsewhere (extensionOf_plain format).2
  · exact ne_of_ne_of_eq (snapshot_elsewhere (by decide)) backup.symm
  · exact ne_of_ne_of_eq (snapshot_elsewhere (commit_plain pid sequence)) (temporary sequence).symm

end Names

/-! ### Runs -/

theorem Sound.sooner {target backup : String} {allowed : Bytes → Prop} {once : Prop} {m : Machine} (sound : Sound target backup allowed True m) :
    Sound target backup allowed once m := ⟨sound.current,sound.previous,fun _ => sound.stays (.inl trivial)⟩

/-- The bytes that a call is to publish. -/
def Offers (call : Call) (bytes : Bytes) : Prop := ∃ file, call.candidate = some file ∧ file.content = bytes

/-- A commit of what is found under the name of the snapshot. -/
theorem commit_found {publication : PendingPublication} {pid : Nat} {candidate : Option File} {allowed : Bytes → Prop} {once : Prop} {m start : Machine}
    (platform : Platform) (pieces : Pieces) (apart : Apart publication pid) (placed : start.disk = m.disk.put publication.snapshot candidate)
    (history : start.history = m.history) (sound : Sound publication.target (backupOf publication.target) allowed once m) :
    Ensures (commitCandidate platform pieces pid publication) start (Outcome
      (fun _ m' => Sound publication.target (backupOf publication.target) (fun bytes => ∃ file, candidate = some file ∧ file.content = bytes) True m')
      (fun _ m' => Sound publication.target (backupOf publication.target)
        (fun bytes => allowed bytes ∨ ∃ file, candidate = some file ∧ file.content = bytes) once m')) := by
  have target_same : start.disk publication.target = m.disk publication.target := by rw [placed,put_other _ _ apart.snapshot.1.symm]
  have backup_same : start.disk (backupOf publication.target) = m.disk (backupOf publication.target) := by
    rw [placed,put_other _ _ apart.snapshot.2.1.symm]
  have offered {bytes : Bytes} (contained : Contains start.disk publication.snapshot bytes) : ∃ file, candidate = some file ∧ file.content = bytes := by
    obtain ⟨file,here,content⟩ := contained
    rw [placed,put_same] at here
    exact ⟨file,here,content⟩
  refine Ensures.mono (commit_spec platform pieces apart (sound.same target_same backup_same history)) ?_
  rintro (failure | _) m' held
  · exact held.weaken (fun bytes => Or.imp_right offered)
  · exact held.weaken (fun bytes => offered)

section Runs
variable {sha256 : Bytes → Bytes} {base tag format url target : String} (platform : Platform) (pieces : Pieces) {allowed : Bytes → Prop} {once : Prop}
  {m : Machine} (named : cachePath sha256 base tag format url = target)
include named

/-- A call leaves its candidate, or an old state or its candidate if it fails. -/
theorem call_spec (call : Call) (sound : Sound target (backupOf target) allowed once m) :
    (∃ m', runCall sha256 base tag format url platform pieces call m = (.ok (),m') ∧ Sound target (backupOf target) (Offers call) True m') ∨
      ∃ failure m', runCall sha256 base tag format url platform pieces call m = (.error failure,m') ∧
        Sound target (backupOf target) (fun bytes => allowed bytes ∨ Offers call bytes) once m' := by
  have apart : Apart (publicationOf sha256 base tag format url call.bytes) call.pid := publicationOf_apart call.bytes call.pid
  have aimed : (publicationOf sha256 base tag format url call.bytes).target = target := named
  unfold runCall
  dsimp only
  generalize publicationOf sha256 base tag format url call.bytes = publication at apart aimed ⊢
  generalize placed : (⟨m.disk.put publication.snapshot call.candidate,call.fates,call.sequence,m.history⟩ : Machine) = start
  subst aimed
  have disk : start.disk = m.disk.put publication.snapshot call.candidate := placed ▸ rfl
  have history : start.history = m.history := placed ▸ rfl
  rcases Ensures.outcome (commit_found platform pieces apart disk history sound) with ⟨_,m',ran,done⟩ | failed
  · exact .inl ⟨m',ran,done⟩
  · exact .inr failed

/-- The cache file after all calls, and after all calls from one that worked. -/
theorem calls_spec (calls : List Call) (sound : Sound target (backupOf target) allowed once m) :
    Sound target (backupOf target) (fun bytes => allowed bytes ∨ ∃ call ∈ calls, Offers call bytes) once
        (runCalls sha256 base tag format url platform pieces calls m).2 ∧
      ∀ earlier call later, calls = earlier ++ call :: later →
        (runCalls sha256 base tag format url platform pieces calls m).1[earlier.length]? = some (.ok ()) →
        Sound target (backupOf target) (fun bytes => ∃ call' ∈ call :: later, Offers call' bytes) True
          (runCalls sha256 base tag format url platform pieces calls m).2 := by
  induction calls generalizing allowed once m with
  | nil =>
    refine ⟨sound.weaken (fun _ fine => .inl fine),?_⟩
    intro earlier call later split
    simp at split
  | cons first rest ih =>
    unfold runCalls
    dsimp only
    rcases call_spec platform pieces named first sound with ⟨m₁,ran,placed⟩ | ⟨failure,m₁,ran,kept⟩
    · rw [ran]
      obtain ⟨after,since⟩ := ih placed
      have all : Sound target (backupOf target) (fun bytes => ∃ call ∈ first :: rest, Offers call bytes) True
          (runCalls sha256 base tag format url platform pieces rest m₁).2 := by
        refine after.weaken ?_
        rintro bytes (offered | ⟨call,listed,offered⟩)
        · exact ⟨first,List.mem_cons_self,offered⟩
        · exact ⟨call,List.mem_cons_of_mem _ listed,offered⟩
      refine ⟨all.sooner.weaken (fun _ => .inr),?_⟩
      intro earlier call later split done
      cases earlier with
      | nil =>
        cases split
        exact all
      | cons _ before =>
        cases split
        exact since before call later rfl done
    · rw [ran]
      obtain ⟨after,since⟩ := ih kept
      refine ⟨after.weaken ?_,?_⟩
      · rintro bytes ((fine | offered) | ⟨call,listed,offered⟩)
        · exact .inl fine
        · exact .inr ⟨first,List.mem_cons_self,offered⟩
        · exact .inr ⟨call,List.mem_cons_of_mem _ listed,offered⟩
      · intro earlier call later split done
        cases earlier with
        | nil => simp at done
        | cons _ before =>
          cases split
          exact since before call later rfl done

end Runs

section Crashes
variable (sha256 : Bytes → Bytes) (base tag format url : String) (platform : Platform) (pieces : Pieces)

/-- Whatever fails and wherever the process ends, recovery finds the cache file again: it is there
    if it ever was, with the old content or all of a candidate, and with the candidate of the last
    call that worked or of a later one. -/
theorem publication_crash_safe (calls : List Call) (disk : Disk) (clear : disk (backupOf (cachePath sha256 base tag format url)) = none) :
    ∃ final, recoverAfter sha256 base tag format url (runCalls sha256 base tag format url platform pieces calls ⟨disk,[],0,[disk]⟩).2 = (.ok (),final) ∧
      final.disk (backupOf (cachePath sha256 base tag format url)) = none ∧
      ((∃ disk ∈ final.history, disk (cachePath sha256 base tag format url) ≠ none) → final.disk (cachePath sha256 base tag format url) ≠ none) ∧
      (∀ file, final.disk (cachePath sha256 base tag format url) = some file →
        (∃ old, disk (cachePath sha256 base tag format url) = some old ∧ old.content = file.content) ∨ ∃ call ∈ calls, Offers call file.content) ∧
      ∀ earlier call later, calls = earlier ++ call :: later →
        (runCalls sha256 base tag format url platform pieces calls ⟨disk,[],0,[disk]⟩).1[earlier.length]? = some (.ok ()) →
        ∃ file, final.disk (cachePath sha256 base tag format url) = some file ∧ ∃ call' ∈ call :: later, Offers call' file.content := by
  unfold recoverAfter recoverInterruptedPublication
  generalize named : cachePath sha256 base tag format url = target at clear ⊢
  have apart : backupOf target ≠ target := by
    subst named
    exact (publicationOf_apart [] 0).backup
  have start : Sound target (backupOf target) (fun bytes => ∃ old, disk target = some old ∧ old.content = bytes) False ⟨disk,[],0,[disk]⟩ := by
    refine ⟨fun file here => ⟨file,here,rfl⟩,fun file _ aside => ?_,fun before => .inl ?_⟩
    · cases clear.symm.trans aside
    · obtain ⟨_,listed,present⟩ := before.resolve_left id
      cases List.mem_singleton.mp listed
      exact present
  obtain ⟨after,since⟩ := calls_spec platform pieces named calls start
  generalize runCalls sha256 base tag format url platform pieces calls ⟨disk,[],0,[disk]⟩ = ran at after since ⊢
  obtain ⟨results,last⟩ := ran
  have works : Ensures (recoverFrom (backupOf target) target tag) { last with fates := [] } (fun r _ => r = .ok ()) := recover_works rfl
  -- The recovery keeps every invariant that held before it.
  have recovered {allowed : Bytes → Prop} {once : Prop} (sound : Sound target (backupOf target) allowed once last) :
      Ensures (recoverFrom (backupOf target) target tag) { last with fates := [] } (Recovered target (backupOf target) allowed once { last with fates := [] }) :=
    recover_spec apart sound.failed
  unfold Ensures at works recovered
  generalize recoverFrom (backupOf target) target tag { last with fates := [] } = recovery at works recovered ⊢
  obtain ⟨result,final⟩ := recovery
  cases works
  obtain ⟨sound,aside,_⟩ := recovered after
  have aside := aside rfl
  refine ⟨final,rfl,aside,fun before => ?_,sound.current,?_⟩
  · exact (sound.stays (.inr before)).resolve_right (fun more => more aside)
  · intro earlier call later split done
    obtain ⟨sound',_,_⟩ := recovered (since earlier call later split done)
    have present := (sound'.stays (.inl trivial)).resolve_right (fun more => more aside)
    obtain ⟨file,here⟩ := Option.ne_none_iff_exists'.mp present
    exact ⟨file,here,sound'.current file here⟩

end Crashes

section Aside

def sampleCache : String := cachePath (fun _ => []) "agent" "ads" "binary" "https://rules"

/-- The cache file with an older rule set in it. -/
def olderCache : Disk := fun name => if name = sampleCache then some ⟨[83,82,83,1,0],true⟩ else none

/-- The process ends when the older cache file has been put aside and the candidate does not have its name yet. -/
def putAside : Call := ⟨[83,82,83,2,0],some ⟨[83,82,83,2,0],false⟩,7,0,List.replicate 9 .works ++ [.crashes]⟩

def asideMachine : Machine :=
  (runCalls (fun _ => []) "agent" "ads" "binary" "https://rules" .windows ⟨fun bytes => [bytes],fun bytes => by simp⟩ [putAside] ⟨olderCache,[],0,[olderCache]⟩).2

theorem put_aside_crash_safe : asideMachine.disk sampleCache = none ∧ asideMachine.disk (backupOf sampleCache) = some ⟨[83,82,83,1,0],true⟩ ∧
    ∃ final, recoverAfter (fun _ => []) "agent" "ads" "binary" "https://rules" asideMachine = (.ok (),final) ∧ final.disk (backupOf sampleCache) = none ∧
      ∃ file, final.disk sampleCache = some file ∧ (file.content = [83,82,83,1,0] ∨ file.content = [83,82,83,2,0]) := by
  refine ⟨rfl,rfl,?_⟩
  obtain ⟨final,done,clear,stays,current,_⟩ := publication_crash_safe (fun _ => []) "agent" "ads" "binary" "https://rules" .windows
    ⟨fun bytes => [bytes],fun bytes => by simp⟩ [putAside] olderCache rfl
  have begins : olderCache ∈ final.history := by
    have ended : (recoverAfter (fun _ => []) "agent" "ads" "binary" "https://rules" asideMachine).2 = final := congrArg Prod.snd done
    rw [← ended]
    exact List.mem_of_getElem? (i := 10) rfl
  obtain ⟨file,here⟩ := Option.ne_none_iff_exists'.mp (stays ⟨olderCache,begins,by decide⟩)
  refine ⟨final,done,clear,file,here,?_⟩
  rcases current file here with ⟨old,held,same⟩ | ⟨call,listed,candidate,given,same⟩
  · cases held
    exact .inl same.symm
  · cases List.mem_singleton.mp listed
    cases given
    exact .inr same.symm

end Aside

end NodeAgent.CachePublication
