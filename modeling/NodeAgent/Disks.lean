import Mathlib.Logic.Function.Basic
import NodeAgent.Fallible

/-!
Programs on files. Every step of a program takes effect as a whole, or fails without effect, or
is not reached because the process ends before it. A file that was written is durable when it has
been synced; a power loss may leave any prefix of a file that is not.
-/
namespace NodeAgent.Disks
open NodeAgent.Fallible

structure File where
  content : List UInt8
  durable : Bool

/-- The files by their names. -/
abbrev Disk := String → Option File

inductive Fate
  | works
  | fails (error : String)
  | crashes

inductive Failure
  | failed (message : String)
  | crashed

/-- The disk, what will become of the next steps, a counter of the process, and the disks before. -/
structure Machine where
  disk : Disk
  fates : List Fate
  counter : Nat
  history : List Disk

abbrev Program := Op Machine Failure

def perform (effect : Disk → Except String Disk) (fates : List Fate) (m : Machine) : Except Failure Unit × Machine :=
  match effect m.disk with
  | .ok disk => (.ok (),{ m with disk := disk, fates := fates, history := m.disk :: m.history })
  | .error error => (.error (.failed error),{ m with fates := fates })

/-- Once there is no fate left all steps work. -/
def step (effect : Disk → Except String Disk) : Program Unit := fun m =>
  match m.fates with
  | .fails error :: rest => (.error (.failed error),{ m with fates := rest })
  | .crashes :: rest => (.error .crashed,{ m with fates := rest })
  | fates => perform effect fates.tail m

/-- The next number of the process. -/
def nextNumber : Program Nat := fun m => (.ok m.counter,{ m with counter := m.counter + 1 })

/-- A failure is handed on, but not the end of the process. -/
def tolerate {α : Type} (p : Program α) : Program (Except String α) := do
  match ← attempt p with
  | .ok a => pure (.ok a)
  | .error (.failed message) => pure (.error message)
  | .error .crashed => fail .crashed

/-- A failure with a text before it. -/
def explain {α : Type} (p : Program α) (text : String → String) : Program α :=
  orFail p (fun failure => match failure with
    | .failed message => .failed (text message)
    | .crashed => .crashed)

/-- What is done in any case, whether it works or not. -/
def ignore (p : Program Unit) : Program Unit := do
  let _ ← tolerate p
  pure ()

/-! ### Steps -/

def missing : Except String Disk := .error "No such file or directory"

def Disk.put (disk : Disk) (name : String) (file : Option File) : Disk := Function.update disk name file

@[simp] theorem put_same (disk : Disk) (name : String) (file : Option File) : disk.put name file name = file := Function.update_self ..

@[simp] theorem put_other (disk : Disk) {name other : String} (file : Option File) (different : other ≠ name) : disk.put name file other = disk other :=
  Function.update_of_ne different ..

def exists_ (name : String) : Program Bool := do
  let m ← look
  return (m.disk name).isSome

def nothing : Program Unit := step .ok

def create (name : String) : Program Unit := step (fun disk => .ok (disk.put name (some ⟨[],false⟩)))

def append (name : String) (bytes : List UInt8) : Program Unit := step (fun disk =>
  match disk name with
  | some file => .ok (disk.put name (some ⟨file.content ++ bytes,false⟩))
  | none => missing)

def sync (name : String) : Program Unit := step (fun disk =>
  match disk name with
  | some file => .ok (disk.put name (some ⟨file.content,true⟩))
  | none => missing)

/-- A file that has the new name is replaced. -/
def rename (old new : String) : Program Unit := step (fun disk =>
  match disk old with
  | some file => .ok ((disk.put old none).put new (some file))
  | none => missing)

def remove (name : String) : Program Unit := step (fun disk =>
  match disk name with
  | some _ => .ok (disk.put name none)
  | none => missing)

/-- Opening a file may fail as any step; its content is what it has then. -/
def readFile (name : String) : Program (List UInt8) := do
  step (fun disk => match disk name with
    | some _ => .ok disk
    | none => missing)
  let m ← look
  return ((m.disk name).map File.content).getD []

/-- Writing what is read to a file, piece by piece; the last reading finds the end. -/
def copyAll (name : String) (pieces : List (List UInt8)) : Program Unit := do
  forEach pieces (fun piece => do
    nothing
    append name piece)
  nothing

/-- Writing to a file, piece by piece. -/
def appendAll (name : String) (pieces : List (List UInt8)) : Program Unit := forEach pieces (append name)

/-- How the bytes of a file are handed over in pieces. -/
structure Pieces where
  split : List UInt8 → List (List UInt8)
  whole : ∀ bytes, (split bytes).flatten = bytes

/-- The file is replaced by one that is not durable. -/
def write (pieces : Pieces) (name : String) (bytes : List UInt8) : Program Unit := do
  create name
  appendAll name (pieces.split bytes)

/-! ### Rules -/

section Rules
variable {α β : Type} {effect : Disk → Except String Disk} {m : Machine}

/-- A step that works has its effect; a step that does not has none. -/
theorem ensures_step {R : Except Failure Unit → Machine → Prop}
    (works : ∀ disk fates, effect m.disk = .ok disk → R (.ok ()) { m with disk := disk, fates := fates, history := m.disk :: m.history })
    (fails : ∀ failure fates, R (.error failure) { m with fates := fates }) : Ensures (step effect) m R := by
  have effected (fates : List Fate) : R (perform effect fates m).1 (perform effect fates m).2 := by
    unfold perform
    cases done : effect m.disk with
    | ok disk => exact works disk fates done
    | error error => exact fails _ fates
  unfold Ensures step
  cases m.fates with
  | nil => exact effected _
  | cons fate rest =>
    cases fate with
    | works => exact effected _
    | fails error => exact fails _ rest
    | crashes => exact fails _ rest

/-- A step works if it can and nothing keeps it from working. -/
theorem ensures_works {disk : Disk} {R : Except Failure Unit → Machine → Prop} (done : effect m.disk = .ok disk) (smooth : m.fates = [])
    (works : R (.ok ()) ⟨disk,[],m.counter,m.disk :: m.history⟩) : Ensures (step effect) m R := by
  unfold Ensures step
  rw [smooth]
  unfold perform
  simp only [List.tail_nil]
  rw [done]
  exact works

theorem ensures_exists {name : String} {f : Bool → Program β} {R : Except Failure β → Machine → Prop}
    (next : Ensures (f (m.disk name).isSome) m R) : Ensures (exists_ name >>= f) m R := next

theorem ensures_tolerate {p : Program α} {Q : Except Failure α → Machine → Prop} {R : Except Failure (Except String α) → Machine → Prop}
    (first : Ensures p m Q) (works : ∀ a m', Q (.ok a) m' → R (.ok (.ok a)) m') (fails : ∀ message m', Q (.error (.failed message)) m' → R (.ok (.error message)) m')
    (ends : ∀ m', Q (.error .crashed) m' → R (.error .crashed) m') : Ensures (tolerate p) m R := by
  refine Ensures.attempt_bind first ?_
  rintro ((message | _) | a) m' held
  · exact fails message m' held
  · exact ends m' held
  · exact works a m' held

theorem ensures_explain {p : Program α} {text : String → String} {Q : Except Failure α → Machine → Prop} {R : Except Failure α → Machine → Prop}
    (first : Ensures p m Q) (works : ∀ a m', Q (.ok a) m' → R (.ok a) m') (fails : ∀ failure failure' m', Q (.error failure) m' → R (.error failure') m') :
    Ensures (explain p text) m R := by
  refine Ensures.attempt_bind first ?_
  rintro (failure | a) m' held
  · exact fails _ _ m' held
  · exact works a m' held

/-! ### Files that a program leaves alone -/

/-- What a program leaves alone, also on its way. -/
def Spares (names : Set String) (p : Program α) : Prop :=
  ∀ m, Ensures p m (fun _ m' => (∀ name ∈ names, m'.disk name = m.disk name) ∧
    ∀ disk ∈ m'.history, disk ∈ m.history ∨ ∀ name ∈ names, disk name = m.disk name)

variable {names : Set String} {p : Program α} {f : α → Program β}

theorem Spares.fewer {names' : Set String} (spares : Spares names p) (fewer : names' ⊆ names) : Spares names' p := fun m =>
  Ensures.mono (spares m) (fun _ _ held => ⟨fun name listed => held.1 name (fewer listed),
    fun disk listed => (held.2 disk listed).imp_right (fun same name listed => same name (fewer listed))⟩)

theorem Spares.pure (a : α) : Spares names (Pure.pure a : Program α) := fun _ => ⟨fun _ _ => rfl,fun _ listed => .inl listed⟩

theorem Spares.fail (failure : Failure) : Spares names (Fallible.fail failure : Program α) := fun _ => ⟨fun _ _ => rfl,fun _ listed => .inl listed⟩

theorem Spares.look : Spares names (Fallible.look : Program Machine) := fun _ => ⟨fun _ _ => rfl,fun _ listed => .inl listed⟩

theorem Spares.bind (first : Spares names p) (next : ∀ a, Spares names (f a)) : Spares names (p >>= f) := by
  intro m
  refine Ensures.bind (first m) ?_ (fun _ _ held => held)
  rintro a m' ⟨same,passed⟩
  refine Ensures.mono (next a m') ?_
  rintro _ m'' ⟨same',passed'⟩
  refine ⟨fun name listed => (same' name listed).trans (same name listed),fun disk listed => ?_⟩
  rcases passed' disk listed with earlier | later
  · exact passed disk earlier
  · exact .inr (fun name listed => (later name listed).trans (same name listed))

theorem Spares.attempt (first : Spares names p) : Spares names (Fallible.attempt p : Program (Except Failure α)) := first

theorem Spares.tolerate (first : Spares names p) : Spares names (tolerate p) := by
  refine Spares.bind (Spares.attempt first) ?_
  rintro ((message | _) | a)
  · exact Spares.pure _
  · exact Spares.fail _
  · exact Spares.pure _

theorem Spares.explain {text : String → String} (first : Spares names p) : Spares names (explain p text) := by
  refine Spares.bind (Spares.attempt first) ?_
  rintro (failure | a)
  · exact Spares.fail _
  · exact Spares.pure _

theorem Spares.ignore {p : Program Unit} (first : Spares names p) : Spares names (ignore p) := Spares.bind first.tolerate (fun _ => Spares.pure _)

theorem Spares.forEach {body : β → Program Unit} (xs : List β) (each : ∀ x, Spares names (body x)) : Spares names (forEach xs body) := by
  unfold Fallible.forEach
  induction xs with
  | nil => exact Spares.pure _
  | cons x rest ih => exact Spares.bind (each x) (fun _ => ih)

theorem Spares.step (effects : ∀ disk disk', effect disk = .ok disk' → ∀ name ∈ names, disk' name = disk name) : Spares names (step effect) := by
  intro m
  refine ensures_step ?_ ?_
  · intro disk fates done
    refine ⟨effects _ _ done,fun passed listed => ?_⟩
    rcases List.mem_cons.mp listed with rfl | earlier
    · exact .inr (fun _ _ => rfl)
    · exact .inl earlier
  · exact fun _ _ => ⟨fun _ _ => rfl,fun _ listed => .inl listed⟩

theorem Spares.nextNumber : Spares names nextNumber := fun _ => ⟨fun _ _ => rfl,fun _ listed => .inl listed⟩

theorem Spares.exists_ (name : String) : Spares names (exists_ name) := Spares.bind Spares.look (fun _ => Spares.pure _)

theorem Spares.nothing : Spares names nothing := by
  refine Spares.step ?_
  intro disk disk' done
  cases done
  exact fun _ _ => rfl

theorem Spares.rename {old new : String} (away : old ∉ names) (away' : new ∉ names) : Spares names (rename old new) := by
  refine Spares.step ?_
  intro disk disk' done other listed
  split at done
  · cases done
    have first : other ≠ old := fun same => away (same ▸ listed)
    have second : other ≠ new := fun same => away' (same ▸ listed)
    rw [put_other _ _ second,put_other _ _ first]
  · cases done

variable {name : String} (away : name ∉ names)
include away

theorem other_of_away {other : String} (listed : other ∈ names) : other ≠ name := fun same => away (same ▸ listed)

theorem Spares.create : Spares names (create name) := by
  refine Spares.step ?_
  intro disk disk' done other listed
  cases done
  exact put_other disk _ (other_of_away away listed)

theorem Spares.append (bytes : List UInt8) : Spares names (append name bytes) := by
  refine Spares.step ?_
  intro disk disk' done other listed
  split at done
  · cases done
    exact put_other disk _ (other_of_away away listed)
  · cases done

theorem Spares.sync : Spares names (sync name) := by
  refine Spares.step ?_
  intro disk disk' done other listed
  split at done
  · cases done
    exact put_other disk _ (other_of_away away listed)
  · cases done

theorem Spares.remove : Spares names (remove name) := by
  refine Spares.step ?_
  intro disk disk' done other listed
  split at done
  · cases done
    exact put_other disk _ (other_of_away away listed)
  · cases done

theorem Spares.copyAll (pieces : List (List UInt8)) : Spares names (copyAll name pieces) :=
  Spares.bind (Spares.forEach pieces (fun piece => Spares.bind Spares.nothing (fun _ => Spares.append away piece))) (fun _ => Spares.nothing)

theorem Spares.appendAll (pieces : List (List UInt8)) : Spares names (appendAll name pieces) := Spares.forEach pieces (Spares.append away)

theorem Spares.write (pieces : Pieces) (bytes : List UInt8) : Spares names (write pieces name bytes) :=
  Spares.bind (Spares.create away) (fun _ => Spares.appendAll away _)

end Rules

section Reading
variable {names : Set String} {m : Machine}

theorem Spares.readFile (name : String) : Spares names (readFile name) := by
  refine Spares.bind (Spares.step ?_) (fun _ => Spares.bind Spares.look (fun _ => Spares.pure _))
  intro disk disk' done
  split at done
  · cases done
    exact fun _ _ => rfl
  · cases done

/-- What is read is the content of the file. -/
theorem ensures_readFile (name : String) : Ensures (readFile name) m (fun r m' => m'.disk = m.disk ∧
    ∀ bytes, r = .ok bytes → ∃ file, m.disk name = some file ∧ file.content = bytes) := by
  refine Ensures.bind (Q := fun r m' => m'.disk = m.disk ∧ (r = .ok () → ∃ file, m.disk name = some file)) ?_ ?_ ?_
  · refine ensures_step ?_ ?_
    · intro disk fates done
      cases found : m.disk name with
      | none =>
        rw [found] at done
        cases done
      | some file =>
        rw [found] at done
        cases done
        exact ⟨rfl,fun _ => ⟨file,rfl⟩⟩
    · exact fun failure fates => ⟨rfl,fun impossible => (by cases impossible)⟩
  · rintro _ m' ⟨same,found⟩
    obtain ⟨file,found⟩ := found rfl
    refine ⟨same,?_⟩
    intro bytes done
    cases done
    exact ⟨file,found,by simp [same,found]⟩
  · rintro failure m' ⟨same,_⟩
    exact ⟨same,fun _ impossible => (by cases impossible)⟩

/-- What the file has after all pieces have been appended. -/
theorem ensures_pieces {name : String} {pieces : List (List UInt8)} {body : List UInt8 → Program Unit} {content : List UInt8} {durable : Bool}
    (start : m.disk name = some ⟨content,durable⟩)
    (each : ∀ piece m content durable, m.disk name = some ⟨content,durable⟩ →
      Ensures (body piece) m (fun r m' => r = .ok () → ∃ durable, m'.disk name = some ⟨content ++ piece,durable⟩)) :
    Ensures (forEach pieces body) m (fun r m' => r = .ok () → ∃ durable, m'.disk name = some ⟨content ++ pieces.flatten,durable⟩) := by
  refine Ensures.forEach (fun done m' => ∃ durable, m'.disk name = some ⟨content ++ done.flatten,durable⟩) ⟨durable,by simpa using start⟩ ?_ ?_
  · rintro done piece rest m' _ ⟨durable,here⟩
    refine Ensures.mono (each piece m' _ _ here) ?_
    rintro (failure | _) m'' appended
    · exact fun impossible => (by cases impossible)
    · obtain ⟨durable,there⟩ := appended rfl
      exact ⟨durable,by simpa using there⟩
  · exact fun m' held _ => held

theorem ensures_append {name : String} {content piece : List UInt8} {durable : Bool} (start : m.disk name = some ⟨content,durable⟩) :
    Ensures (append name piece) m (fun r m' => r = .ok () → ∃ durable, m'.disk name = some ⟨content ++ piece,durable⟩) := by
  refine ensures_step ?_ ?_
  · intro disk fates done _
    rw [start] at done
    cases done
    exact ⟨false,put_same ..⟩
  · exact fun _ _ impossible => (by cases impossible)

theorem ensures_copyAll {name : String} {content : List UInt8} {durable : Bool} (pieces : List (List UInt8)) (start : m.disk name = some ⟨content,durable⟩) :
    Ensures (copyAll name pieces) m (fun r m' => r = .ok () → ∃ durable, m'.disk name = some ⟨content ++ pieces.flatten,durable⟩) := by
  have still (m : Machine) : Ensures nothing m (fun _ m' => m'.disk name = m.disk name) :=
    Ensures.mono (@Spares.nothing {name} m) (fun _ _ held => held.1 name rfl)
  refine Ensures.bind (ensures_pieces start ?_) ?_ ?_
  · intro piece m content durable here
    refine Ensures.bind (still m) ?_ ?_
    · intro _ m' same
      exact ensures_append (same.trans here)
    · exact fun _ _ _ impossible => (by cases impossible)
  · intro _ m' copied
    obtain ⟨durable,there⟩ := copied rfl
    exact Ensures.mono (still m') (fun _ m'' same _ => ⟨durable,same.trans there⟩)
  · exact fun _ _ _ impossible => (by cases impossible)

end Reading

/-! ### Steps that all work -/

/-- If nothing keeps a step from working, the program does not fail. -/
def Works {α : Type} (p : Program α) (m : Machine) (Q : α → Machine → Prop) : Prop :=
  m.fates = [] → Ensures p m (Outcome (fun a m' => m'.fates = [] ∧ Q a m') (fun _ _ => False))

section Works
variable {α β : Type} {p : Program α} {f : α → Program β} {m : Machine} {Q Q' : α → Machine → Prop} {R : β → Machine → Prop}

theorem Works.mono (works : Works p m Q) (weaker : ∀ a m', Q a m' → Q' a m') : Works p m Q' := by
  intro smooth
  refine Ensures.mono (works smooth) ?_
  rintro (_ | a) m' held
  · exact held
  · exact ⟨held.1,weaker a m' held.2⟩

/-- What holds in any case holds also if all steps work. -/
theorem Works.also {P : Machine → Prop} (works : Works p m Q) (always : Ensures p m (fun _ m' => P m')) : Works p m (fun a m' => Q a m' ∧ P m') := by
  intro smooth
  refine Ensures.mono (Ensures.and (works smooth) always) ?_
  rintro (_ | a) m' ⟨held,more⟩
  · exact held
  · exact ⟨held.1,held.2,more⟩

theorem Works.pure {a : α} (holds : Q a m) : Works (Pure.pure a : Program α) m Q := fun smooth => ⟨smooth,holds⟩

theorem Works.bind (first : Works p m Q) (next : ∀ a m', Q a m' → Works (f a) m' R) : Works (p >>= f) m R := by
  intro smooth
  refine Ensures.bind (first smooth) ?_ (fun _ _ impossible => impossible.elim)
  rintro a m' ⟨smooth',held⟩
  exact next a m' held smooth'

theorem Works.tolerate (works : Works p m Q) : Works (tolerate p) m (fun r m' => ∃ a, r = .ok a ∧ Q a m') := fun smooth =>
  ensures_tolerate (works smooth) (fun a _ held => ⟨held.1,a,rfl,held.2⟩) (fun _ _ impossible => False.elim impossible) (fun _ impossible => impossible)

/-- A step that cannot be taken is refused, and that is tolerated. -/
theorem Works.refused {effect : Disk → Except String Disk} {error : String} (done : effect m.disk = .error error) :
    Works (Disks.tolerate (Disks.step effect)) m (fun r m' => r = .error error ∧ m'.disk = m.disk) := by
  intro smooth
  have refused : Ensures (Disks.step effect) m (fun r m' => r = .error (.failed error) ∧ m'.fates = [] ∧ m'.disk = m.disk) := by
    unfold Ensures Disks.step
    rw [smooth]
    unfold perform
    simp only [List.tail_nil]
    rw [done]
    exact ⟨rfl,rfl,rfl⟩
  refine ensures_tolerate refused ?_ ?_ ?_
  · rintro _ _ ⟨impossible,_⟩
    cases impossible
  · rintro _ m' ⟨same,smooth',disk⟩
    cases same
    exact ⟨smooth',rfl,disk⟩
  · rintro _ ⟨impossible,_⟩
    cases impossible

theorem Works.explain {text : String → String} (works : Works p m Q) : Works (explain p text) m Q := fun smooth =>
  ensures_explain (works smooth) (fun _ _ held => held) (fun _ _ _ impossible => impossible)

theorem Works.foldEach {body : β → α → Program β} {xs : List α} {b : β} (inv : List α → β → Machine → Prop) (start : inv [] b m)
    (step : ∀ done x rest b m, xs = done ++ x :: rest → inv done b m → Works (body b x) m (inv (done ++ [x])))
    (finish : ∀ b m, inv xs b m → R b m) : Works (foldEach body b xs) m R := by
  intro smooth
  refine Ensures.foldEach (fun done b m => m.fates = [] ∧ inv done b m) ⟨smooth,start⟩ ?_ (fun b m held => ⟨held.1,finish b m held.2⟩)
  rintro done x rest b m split ⟨smooth,held⟩
  exact step done x rest b m split held smooth

theorem Works.step {effect : Disk → Except String Disk} (disk : Disk) (done : effect m.disk = .ok disk) :
    Works (step effect) m (fun _ m' => m'.disk = disk ∧ m'.counter = m.counter) :=
  fun smooth => ensures_works done smooth ⟨rfl,rfl,rfl⟩

theorem Works.nothing : Works nothing m (fun _ m' => m'.disk = m.disk ∧ m'.counter = m.counter) := Works.step _ rfl

theorem Works.nextNumber : Works nextNumber m (fun n m' => n = m.counter ∧ m'.disk = m.disk) := fun smooth => ⟨smooth,rfl,rfl⟩

theorem Works.readFile {name : String} {file : File} (present : m.disk name = some file) :
    Works (readFile name) m (fun bytes m' => bytes = file.content ∧ m'.disk = m.disk) := by
  refine Works.bind (Works.step m.disk (by rw [present])) ?_
  rintro _ m' ⟨same,_⟩ smooth
  refine ⟨smooth,?_,same⟩
  rw [same,present]
  rfl

theorem Works.append {name : String} {file : File} {bytes : List UInt8} (present : m.disk name = some file) :
    Works (append name bytes) m (fun _ m' => m'.disk = m.disk.put name (some ⟨file.content ++ bytes,false⟩)) :=
  Works.mono (Works.step _ (by rw [present])) (fun _ _ held => held.1)

theorem Works.rename {old new : String} {file : File} (present : m.disk old = some file) :
    Works (rename old new) m (fun _ m' => m'.disk = (m.disk.put old none).put new (some file)) :=
  Works.mono (Works.step _ (by rw [present])) (fun _ _ held => held.1)

/-- A file that is written is not durable. -/
theorem Works.write (pieces : Pieces) (name : String) (bytes : List UInt8) :
    Works (write pieces name bytes) m (fun _ m' => m'.disk = m.disk.put name (some ⟨bytes,false⟩)) := by
  refine Works.bind (Works.step _ rfl) ?_
  rintro _ m' ⟨made,_⟩
  refine Works.foldEach (fun done _ m'' => m''.disk = m.disk.put name (some ⟨done.flatten,false⟩)) made ?_ ?_
  · intro done piece rest _ m'' _ grown
    refine Works.mono (Works.append (by rw [grown,put_same])) ?_
    intro _ m''' appended
    rw [appended,grown]
    simp [Disk.put]
  · intro _ m'' grown
    rw [grown,pieces.whole]

end Works

/-! ### Power losses -/

/-- What a power loss may leave of a file. -/
def Torn (before after : File) : Prop :=
  after.durable = true ∧ if before.durable then after.content = before.content else after.content <+: before.content

/-- What a power loss may leave of a disk; all names stay. -/
def PowerLoss (before after : Disk) : Prop :=
  ∀ name, (before name = none ∧ after name = none) ∨ ∃ file torn, before name = some file ∧ after name = some torn ∧ Torn file torn

end NodeAgent.Disks
