import Mathlib.Data.List.Basic
import Mathlib.Tactic.Common

/-!
The bounded log file. When a message would make the active file too long, the numbered backups
are copied one place further, the active file is copied into the first of them, and is then
truncated in place. Files are copied and not renamed, so every step of this may fail alone.
-/
namespace NodeAgent.LogRotation

abbrev Bytes := List UInt8

inductive IoError
  /-- The log file is closed. -/
  | closed
  /-- The active log remains full after rotation. -/
  | full
  /-- An operation of the file system failed. -/
  | failed
deriving DecidableEq

/-- What becomes of one operation on a backup file, or of one sync. -/
inductive Fate
  | fine
  /-- It fails and changes nothing. -/
  | refused
  /-- It fails after some bytes. -/
  | cut (bytes : ℕ)
deriving DecidableEq

/-- The backup files by their numbers, and the fates of the operations that are still to
    come. When these are used up, nothing fails any more. -/
structure Disk where
  backups : ℕ → Option Bytes
  fates : List Fate

def Disk.next (disk : Disk) : Fate × Disk := (disk.fates.headD .fine,⟨disk.backups,disk.fates.tail⟩)

def Disk.put (disk : Disk) (number : ℕ) (content : Option Bytes) : Disk :=
  ⟨fun k => if k = number then content else disk.backups k,disk.fates⟩

/-- The handle of the active file. -/
structure File where
  content : Bytes
  position : ℕ
deriving DecidableEq

/-- `max_bytes` and `max_backups`. -/
structure Limits where
  maxBytes : ℕ
  maxBackups : ℕ

/-- The state of a log. What follows the disk records the history and is never read:
    which messages stood in the active file at each truncation, and since the last one. -/
structure Log where
  file : Option File
  size : ℕ
  disk : Disk
  past : List (List Bytes)
  current : List Bytes

/-! ### Backup files -/

def syncAll (disk : Disk) : Option IoError × Disk :=
  match disk.next with
  | (.fine,disk) => (none,disk)
  | (_,disk) => (some .failed,disk)

/-- Open the destination, which truncates it, copy into it, and sync it. -/
def replaceFile (destination : ℕ) (source : Bytes) (disk : Disk) : Option IoError × Disk :=
  match disk.next with
  | (.refused,disk) => (some .failed,disk)
  | (.cut _,disk) => (some .failed,disk.put destination (some []))
  | (.fine,disk) =>
    match (disk.put destination (some [])).next with
    | (.refused,disk) => (some .failed,disk)
    | (.cut bytes,disk) => (some .failed,disk.put destination (some (source.take bytes)))
    | (.fine,disk) => syncAll (disk.put destination (some source))

/-- Open a file that need not exist, and truncate it. -/
def clearIfExists (destination : ℕ) (disk : Disk) : Option IoError × Disk :=
  match disk.next with
  | (.fine,disk) =>
    match disk.backups destination with
    | none => (none,disk)
    | some _ =>
      match disk.next with
      | (.fine,disk) => (none,disk.put destination (some []))
      | (_,disk) => (some .failed,disk)
  | (_,disk) => (some .failed,disk)

def copyIfExists (source destination : ℕ) (disk : Disk) : Option IoError × Disk :=
  match disk.next with
  | (.fine,disk) =>
    match disk.backups source with
    | some content => replaceFile destination content disk
    | none => clearIfExists destination disk
  | (_,disk) => (some .failed,disk)

/-- Copy the whole active file, and return to the position of its handle. -/
def copyOpenFile (source : File) (destination : ℕ) (disk : Disk) : Option IoError × File × Disk :=
  let position := source.position
  let (error,disk) := replaceFile destination source.content disk
  (error,⟨source.content,position⟩,disk)

/-- `for index in (2..=max_backups).rev()`. -/
def shiftBackups : ℕ → Disk → Option IoError × Disk
  | index + 2, disk =>
    let (error,disk) := copyIfExists (index + 1) (index + 2) disk
    let (later,disk) := shiftBackups (index + 1) disk
    (error.or later,disk)
  | _, disk => (none,disk)

/-! ### The active file -/

def File.seekEnd (file : File) : File := ⟨file.content,file.content.length⟩

def File.seekStart (file : File) : File := ⟨file.content,0⟩

/-- `file.set_len(0)`. The position stays. -/
def File.clear (file : File) : File := ⟨[],file.position⟩

def u64Max : ℕ := 18446744073709551615

/-- `file.write_all(data)` at the position of the handle. A file cannot grow beyond what a
    64 bit size can count; then the write fails. -/
def File.writeAll (file : File) (data : Bytes) : Option File :=
  if max file.content.length (file.position + data.length) ≤ u64Max then
    some ⟨file.content.take file.position ++ data ++ file.content.drop (file.position + data.length),file.position + data.length⟩
  else none

variable (limits : Limits)

/-- Backups that cannot be written do not keep the active file from being truncated. -/
def rotateLocked (log : Log) : Option IoError × Log :=
  match log.file with
  | none => (some .closed,log)
  | some file =>
    let (unsynced,disk) := syncAll log.disk
    let (unshifted,disk) := shiftBackups limits.maxBackups disk
    let (uncopied,file,disk) := if limits.maxBackups > 0 then copyOpenFile file 1 disk else (none,file,disk)
    (unsynced.or (unshifted.or uncopied),⟨some file.clear.seekStart,0,disk,log.past ++ [log.current],[]⟩)

def prepareWrite (log : Log) (dataLen : ℕ) : Except IoError Unit × Log :=
  match log.file with
  | none => (.error .closed,log)
  | some file =>
    let log := { log with file := some file.seekEnd, size := file.content.length }
    if limits.maxBytes > 0 ∧ log.size > 0 ∧ min u64Max (log.size + dataLen) > limits.maxBytes then
      let (rotationError,log) := rotateLocked limits log
      if log.size ≠ 0 then (.error (rotationError.getD .full),log)
      else
        match log.file with
        | none => (.error .closed,log)
        | some file => (.ok (),{ log with file := some file.seekEnd })
    else (.ok (),{ log with file := some file.seekEnd.seekEnd })

/-- One message. Nothing is said of what follows a failed operation on the active file. -/
def writeAllLocked (log : Log) (data : Bytes) : Option (Except IoError Unit × Log) :=
  match prepareWrite limits log data.length with
  | (.error error,log) => some (.error error,log)
  | (.ok (),log) =>
    match log.file with
    | none => some (.error .closed,log)
    | some file =>
      match file.writeAll data with
      | none => none
      | some file => some (.ok (),{ log with file := some file, size := min u64Max (log.size + data.length), current := log.current ++ [data] })

/-- Messages one after the other, and what each of them gave. -/
def writeMessages : Log → List Bytes → Option (List (Except IoError Unit) × Log)
  | log, [] => some ([],log)
  | log, data :: rest =>
    match writeAllLocked limits log data with
    | none => none
    | some (result,log) =>
      match writeMessages log rest with
      | none => none
      | some (results,log) => some (result :: results,log)

/-! ### Operations that do not fail -/

def Disk.Fine (disk : Disk) : Prop := ∀ fate ∈ disk.fates, fate = .fine

/-- What a backup file holds; a missing file holds nothing. -/
def Disk.held (disk : Disk) (number : ℕ) : Bytes := (disk.backups number).getD []

section Fine
variable {disk : Disk} (fine : disk.Fine)
include fine

theorem next_fine : ∃ after, disk.next = (.fine,after) ∧ after.backups = disk.backups ∧ after.Fine := by
  obtain ⟨backups,fates⟩ := disk
  cases fates with
  | nil => exact ⟨_,rfl,rfl,fine⟩
  | cons fate rest =>
    have first : fate = .fine := fine fate List.mem_cons_self
    subst first
    exact ⟨_,rfl,rfl,fun fate member => fine fate (List.mem_cons_of_mem _ member)⟩

theorem syncAll_fine : ∃ after, syncAll disk = (none,after) ∧ after.backups = disk.backups ∧ after.Fine := by
  obtain ⟨after,next,same,fine⟩ := next_fine fine
  refine ⟨after,?_,same,fine⟩
  unfold syncAll
  rw [next]

theorem replaceFile_fine (destination : ℕ) (source : Bytes) : ∃ after, replaceFile destination source disk = (none,after) ∧
    (∀ k, after.held k = if k = destination then source else disk.held k) ∧ after.Fine := by
  obtain ⟨opened,next,same,fine⟩ := next_fine fine
  obtain ⟨copied,next',same',fine'⟩ := next_fine (show (opened.put destination (some [])).Fine from fine)
  obtain ⟨synced,next'',same'',fine''⟩ := syncAll_fine (show (copied.put destination (some source)).Fine from fine')
  refine ⟨synced,?_,?_,fine''⟩
  · unfold replaceFile
    simp only [next,next',next'']
  · intro k
    unfold Disk.held
    rw [same'']
    by_cases own : k = destination
    · simp [Disk.put,own]
    · simp only [Disk.put,if_neg own,same',same]

theorem clearIfExists_fine (destination : ℕ) : ∃ after, clearIfExists destination disk = (none,after) ∧
    (∀ k, after.held k = if k = destination then [] else disk.held k) ∧ after.Fine := by
  obtain ⟨opened,next,same,fine⟩ := next_fine fine
  cases found : opened.backups destination with
  | none =>
    refine ⟨opened,?_,?_,fine⟩
    · unfold clearIfExists
      simp only [next,found]
    · intro k
      unfold Disk.held
      by_cases own : k = destination
      · simp [own,found]
      · rw [if_neg own,same]
  | some content =>
    obtain ⟨cleared,next',same',fine'⟩ := next_fine fine
    refine ⟨cleared.put destination (some []),?_,?_,fine'⟩
    · unfold clearIfExists
      simp only [next,found,next']
    · intro k
      unfold Disk.held
      by_cases own : k = destination
      · simp [Disk.put,own]
      · simp only [Disk.put,if_neg own,same',same]

/-- A copy of a missing file empties the destination. -/
theorem copyIfExists_fine (source destination : ℕ) : ∃ after, copyIfExists source destination disk = (none,after) ∧
    (∀ k, after.held k = if k = destination then disk.held source else disk.held k) ∧ after.Fine := by
  obtain ⟨opened,next,same,fine⟩ := next_fine fine
  have unchanged (k : ℕ) : opened.held k = disk.held k := by unfold Disk.held; rw [same]
  cases found : opened.backups source with
  | none =>
    obtain ⟨after,cleared,held,fine'⟩ := clearIfExists_fine fine destination
    have nothing : disk.held source = [] := by rw [← unchanged,Disk.held,found]; rfl
    refine ⟨after,?_,?_,fine'⟩
    · unfold copyIfExists
      simp only [next,found,cleared]
    · intro k
      rw [held,nothing,unchanged]
  | some content =>
    obtain ⟨after,replaced,held,fine'⟩ := replaceFile_fine fine destination content
    have own : disk.held source = content := by rw [← unchanged,Disk.held,found]; rfl
    refine ⟨after,?_,?_,fine'⟩
    · unfold copyIfExists
      simp only [next,found,replaced]
    · intro k
      rw [held,own,unchanged]

/-- From the last backup down, each file takes what the one before it holds. -/
theorem shiftBackups_fine (count : ℕ) : ∃ after, shiftBackups count disk = (none,after) ∧
    (∀ k, after.held k = if 2 ≤ k ∧ k ≤ count then disk.held (k - 1) else disk.held k) ∧ after.Fine := by
  induction count generalizing disk with
  | zero =>
    refine ⟨disk,rfl,?_,fine⟩
    intro k
    rw [if_neg (by omega)]
  | succ count ih =>
    cases count with
    | zero =>
      refine ⟨disk,rfl,?_,fine⟩
      intro k
      rw [if_neg (by omega)]
    | succ index =>
      obtain ⟨copied,first,held,fine⟩ := copyIfExists_fine fine (index + 1) (index + 2)
      obtain ⟨after,rest,held',fine'⟩ := ih fine
      refine ⟨after,?_,?_,fine'⟩
      · unfold shiftBackups
        simp only [first,rest,Option.or_none]
      · intro k
        rw [held' k]
        by_cases last : k = index + 2
        · subst last
          rw [if_neg (by omega),if_pos (by omega),held,if_pos rfl]
          rfl
        · by_cases within : 2 ≤ k ∧ k ≤ index + 1
          · rw [if_pos within,if_pos (by omega),held,if_neg (by omega)]
          · rw [if_neg within,if_neg (by omega),held,if_neg last]

end Fine

/-! ### Single messages -/

/-- What the files hold after a rotation that does not fail: each what the one before it held. -/
def Shifted (maxBackups : ℕ) (active : Bytes) (before after : Disk) : Prop :=
  after.Fine ∧ ∀ k, 1 ≤ k → k ≤ maxBackups → after.held k = if k = 1 then active else before.held (k - 1)

section Messages
variable {limits : Limits} {log : Log}

/-- A rotation empties the active file, whatever fails. -/
theorem rotateLocked_opened {file : File} (opened : log.file = some file) : ∃ error disk,
    rotateLocked limits log = (error,⟨some ⟨[],0⟩,0,disk,log.past ++ [log.current],[]⟩) ∧
      (log.disk.Fine → Shifted limits.maxBackups file.content log.disk disk) := by
  unfold rotateLocked
  simp only [opened]
  refine ⟨_,_,rfl,?_⟩
  intro fine
  obtain ⟨synced,sync,same,fine⟩ := syncAll_fine fine
  obtain ⟨shifted,shift,held,fine⟩ := shiftBackups_fine fine limits.maxBackups
  have unchanged (k : ℕ) : synced.held k = log.disk.held k := by unfold Disk.held; rw [same]
  simp only [sync,shift]
  by_cases backups : limits.maxBackups > 0
  · obtain ⟨copied,copy,held',fine⟩ := replaceFile_fine fine 1 file.content
    simp only [if_pos backups,copyOpenFile,copy]
    refine ⟨fine,?_⟩
    intro k first within
    rw [held' k]
    by_cases one : k = 1
    · rw [if_pos one,if_pos one]
    · rw [if_neg one,if_neg one,held,if_pos (by omega),unchanged]
  · simp only [if_neg backups]
    refine ⟨fine,?_⟩
    intro k first within
    omega

/-- What a log is after messages, whatever has failed: they are in order, those since the last
    truncation are the active file, and no file ever became too long by a second message. -/
structure Kept (limits : Limits) (log : Log) (messages : List Bytes) : Prop where
  order : log.past.flatten ++ log.current = messages
  active : ∃ position, log.file = some ⟨log.current.flatten,position⟩
  limited : 0 < limits.maxBytes → ∀ group ∈ log.past ++ [log.current], group.flatten.length ≤ limits.maxBytes ∨ ∃ data ∈ group, group.flatten = data

/-- What the backups are if nothing has failed: the messages of the last truncations. -/
structure Backed (limits : Limits) (log : Log) : Prop where
  fine : log.disk.Fine
  held : ∀ k, 1 ≤ k → k ≤ limits.maxBackups → log.disk.held k = ((log.past.reverse[k - 1]?).getD []).flatten

variable {messages : List Bytes}

/-- Before a message is written the active file is at its end, and is empty if the message would
    not fit in behind what is there. -/
theorem prepareWrite_kept (kept : Kept limits log messages) (dataLen : ℕ) : ∃ log', prepareWrite limits log dataLen = (.ok (),log') ∧
    Kept limits log' messages ∧ log'.file = some ⟨log'.current.flatten,log'.current.flatten.length⟩ ∧
    (0 < limits.maxBytes → log'.current.flatten = [] ∨ min u64Max (log'.current.flatten.length + dataLen) ≤ limits.maxBytes) ∧
    (Backed limits log → Backed limits log') := by
  obtain ⟨position,opened⟩ := kept.active
  unfold prepareWrite
  simp only [opened,File.seekEnd]
  by_cases rotates : limits.maxBytes > 0 ∧ log.current.flatten.length > 0 ∧ min u64Max (log.current.flatten.length + dataLen) > limits.maxBytes
  · rw [if_pos rotates]
    have atEnd : ({ log with file := some ⟨log.current.flatten,log.current.flatten.length⟩, size := log.current.flatten.length } : Log).file =
        some ⟨log.current.flatten,log.current.flatten.length⟩ := rfl
    obtain ⟨error,disk,rotated,shifted⟩ := @rotateLocked_opened limits _ _ atEnd
    simp only [rotated]
    refine ⟨_,rfl,⟨?_,⟨0,rfl⟩,?_⟩,rfl,fun _ => .inl rfl,?_⟩
    · simpa using kept.order
    · intro positive group member
      rcases List.mem_append.mp member with old | new
      · exact kept.limited positive group old
      · rw [List.mem_singleton] at new
        subst new
        exact .inl (Nat.zero_le _)
    · intro backed
      obtain ⟨fine,held⟩ := shifted backed.fine
      refine ⟨fine,?_⟩
      intro k first within
      rw [held k first within]
      by_cases one : k = 1
      · subst one
        simp
      · have before := backed.held (k - 1) (by omega) (by omega)
        obtain ⟨j,rfl⟩ : ∃ j, k = j + 2 := ⟨k - 2,by omega⟩
        rw [if_neg one,List.reverse_append]
        exact before
  · rw [if_neg rotates]
    refine ⟨_,rfl,⟨kept.order,⟨_,rfl⟩,kept.limited⟩,rfl,?_,fun backed => ⟨backed.fine,backed.held⟩⟩
    intro positive
    by_cases empty : log.current.flatten = []
    · exact .inl empty
    · refine .inr (Nat.le_of_not_gt ?_)
      exact fun exceeds => rotates ⟨positive,List.length_pos_of_ne_nil empty,exceeds⟩

/-- One message: it is written behind those that the active file still has. -/
theorem writeAllLocked_kept (kept : Kept limits log messages) {data : Bytes} {result : Except IoError Unit} {log' : Log}
    (wrote : writeAllLocked limits log data = some (result,log')) :
    result = .ok () ∧ Kept limits log' (messages ++ [data]) ∧ (∃ others, log'.current = others ++ [data]) ∧ (Backed limits log → Backed limits log') := by
  obtain ⟨ready,prepared,kept',opened,room,backed⟩ := prepareWrite_kept kept data.length
  unfold writeAllLocked at wrote
  simp only [prepared,opened] at wrote
  cases written : File.writeAll ⟨ready.current.flatten,ready.current.flatten.length⟩ data with
  | none =>
    rw [written] at wrote
    cases wrote
  | some file =>
    rw [written] at wrote
    cases wrote
    unfold File.writeAll at written
    split at written
    · next fits =>
      cases written
      dsimp only at fits
      have appended : ready.current.flatten.take ready.current.flatten.length ++ data ++ ready.current.flatten.drop (ready.current.flatten.length + data.length) =
          (ready.current ++ [data]).flatten := by
        rw [List.take_length,List.drop_eq_nil_of_le (Nat.le_add_right ..),List.flatten_append,List.append_nil,List.flatten_singleton]
      refine ⟨rfl,⟨?_,⟨_,by rw [appended]⟩,?_⟩,⟨ready.current,rfl⟩,fun before => ⟨(backed before).fine,(backed before).held⟩⟩
      · rw [← kept'.order]
        exact (List.append_assoc ..).symm
      · intro positive group member
        rcases List.mem_append.mp member with old | new
        · exact kept'.limited positive group (List.mem_append_left _ old)
        · rw [List.mem_singleton] at new
          subst new
          rw [List.flatten_append,List.flatten_singleton,List.length_append]
          rcases room positive with empty | within
          · exact .inr ⟨data,by simp,by rw [empty,List.nil_append]⟩
          · exact .inl (by omega)
    · cases written

/-- Messages one after the other. -/
theorem writeMessages_kept {rest : List Bytes} {results : List (Except IoError Unit)} {log' : Log} (kept : Kept limits log messages)
    (wrote : writeMessages limits log rest = some (results,log')) :
    (∀ result ∈ results, result = .ok ()) ∧ results.length = rest.length ∧ Kept limits log' (messages ++ rest) ∧
      (∀ data, rest.getLast? = some data → ∃ others, log'.current = others ++ [data]) ∧ (Backed limits log → Backed limits log') := by
  induction rest generalizing log messages results with
  | nil =>
    cases wrote
    rw [List.append_nil]
    exact ⟨by simp,rfl,kept,by simp,id⟩
  | cons data rest ih =>
    unfold writeMessages at wrote
    cases first : writeAllLocked limits log data with
    | none =>
      rw [first] at wrote
      cases wrote
    | some outcome =>
      obtain ⟨result,next⟩ := outcome
      obtain ⟨ok,kept',ends,backed⟩ := writeAllLocked_kept kept first
      simp only [first] at wrote
      cases later : writeMessages limits next rest with
      | none =>
        rw [later] at wrote
        cases wrote
      | some outcome =>
        obtain ⟨others,last⟩ := outcome
        rw [later] at wrote
        cases wrote
        obtain ⟨oks,lengths,kept'',ends',backed'⟩ := ih kept' later
        refine ⟨?_,by simp [lengths],by simpa using kept'',?_,fun before => backed' (backed before)⟩
        · rw [List.forall_mem_cons]
          exact ⟨ok,oks⟩
        · intro latest isLast
          cases rest with
          | nil =>
            cases later
            cases isLast
            exact ends
          | cons next' more =>
            rw [List.getLast?_cons_cons] at isLast
            exact ends' latest isLast

end Messages

/-! ### Whole histories -/

/-- The backup files from the last to the first hold the groups that were truncated last. -/
theorem files_groups (count : ℕ) (groups : List (List Bytes)) :
    ((List.range count).reverse.map (fun k => ((groups[k]?).getD []).flatten)).flatten = (groups.take count).reverse.flatten.flatten := by
  induction count generalizing groups with
  | zero => simp
  | succ count ih =>
    rw [List.range_succ_eq_map,List.reverse_cons,List.map_append,List.flatten_append,← List.map_reverse,List.map_map]
    cases groups with
    | nil => simp
    | cons group rest =>
      have step := ih rest
      have shift : (fun k => (((group :: rest)[k]?).getD []).flatten) ∘ Nat.succ = fun k => ((rest[k]?).getD []).flatten := by
        funext k
        rfl
      rw [shift,step]
      simp

/-- A log whose files are all empty. -/
def Log.Empty (log : Log) : Prop :=
  (∃ position, log.file = some ⟨[],position⟩) ∧ (∀ k, log.disk.held k = []) ∧ log.past = [] ∧ log.current = []

/-- The contents of the backup files from the last to the first. -/
def backupContents (limits : Limits) (log : Log) : List Bytes := (List.range limits.maxBackups).reverse.map (fun k => log.disk.held (k + 1))

/-- What a log keeps of its history. Every message is accepted and is the end of the active file,
    which is what was written since its last truncation. If nothing fails, the files together
    are what was not truncated longer ago than there are backups, and none of them is too long
    but for a single message. -/
theorem rotation_keeps {limits : Limits} {start log : Log} {messages : List Bytes} {results : List (Except IoError Unit)} (empty : start.Empty)
    (wrote : writeMessages limits start messages = some (results,log)) :
    results.length = messages.length ∧ (∀ result ∈ results, result = .ok ()) ∧ log.past.flatten ++ log.current = messages ∧
    (∃ position, log.file = some ⟨log.current.flatten,position⟩) ∧ (∀ data, messages.getLast? = some data → ∃ others, log.current = others ++ [data]) ∧
    (start.disk.Fine →
      (backupContents limits log).flatten ++ log.current.flatten = ((log.past.drop (log.past.length - limits.maxBackups)).flatten ++ log.current).flatten ∧
      (log.past.drop (log.past.length - limits.maxBackups)).flatten ++ log.current <:+ messages ∧
      (0 < limits.maxBytes → ∀ content ∈ backupContents limits log ++ [log.current.flatten],
        content.length ≤ limits.maxBytes ∨ ∃ data ∈ messages, content = data)) := by
  obtain ⟨⟨position,opened⟩,nothing,noPast,noCurrent⟩ := empty
  have begins : Kept limits start [] := by
    refine ⟨by rw [noPast,noCurrent]; rfl,⟨position,by rw [noCurrent]; exact opened⟩,?_⟩
    intro positive group member
    rw [noPast,noCurrent,List.nil_append,List.mem_singleton] at member
    subst member
    exact .inl (Nat.zero_le _)
  obtain ⟨oks,lengths,kept,ends,backed⟩ := writeMessages_kept begins wrote
  rw [List.nil_append] at kept
  refine ⟨lengths,oks,kept.order,kept.active,ends,?_⟩
  intro fine
  have held := (backed ⟨fine,fun k _ _ => by rw [nothing k,noPast]; rfl⟩).held
  have contents : backupContents limits log = (List.range limits.maxBackups).reverse.map (fun k => ((log.past.reverse[k]?).getD []).flatten) := by
    refine List.map_congr_left ?_
    intro k member
    have within := List.mem_range.mp (List.mem_reverse.mp member)
    exact held (k + 1) (by omega) (by omega)
  refine ⟨?_,?_,?_⟩
  · rw [contents,files_groups,List.reverse_take,List.reverse_reverse,List.length_reverse,List.flatten_append]
  · refine ⟨(log.past.take (log.past.length - limits.maxBackups)).flatten,?_⟩
    rw [← List.append_assoc,← List.flatten_append,List.take_append_drop,kept.order]
  · intro positive content member
    rcases List.mem_append.mp member with backup | active
    · rw [contents] at backup
      obtain ⟨k,_,rfl⟩ := List.mem_map.mp backup
      cases found : log.past.reverse[k]? with
      | none => exact .inl (Nat.zero_le _)
      | some group =>
        have old : group ∈ log.past := List.mem_reverse.mp (List.mem_of_getElem? found)
        rcases kept.limited positive group (List.mem_append_left _ old) with short | ⟨data,inside,single⟩
        · exact .inl short
        · refine .inr ⟨data,?_,single⟩
          rw [← kept.order]
          exact List.mem_append_left _ (List.mem_flatten.mpr ⟨group,old,inside⟩)
    · rw [List.mem_singleton] at active
      subst active
      rcases kept.limited positive log.current (List.mem_append_right _ (List.mem_singleton_self _)) with short | ⟨data,inside,single⟩
      · exact .inl short
      · refine .inr ⟨data,?_,single⟩
        rw [← kept.order]
        exact List.mem_append_right _ inside

/-- A log of three bytes with one backup. -/
def smallLog : Log := ⟨some ⟨[],0⟩,0,⟨fun _ => none,[]⟩,[],[]⟩

theorem smallLog_empty : smallLog.Empty := ⟨⟨0,rfl⟩,fun _ => rfl,rfl,rfl⟩

/-- Three messages that fit one by one. -/
theorem three_messages : ∃ results log, writeMessages ⟨3,1⟩ smallLog [[1,1],[2,2],[3,3]] = some (results,log) ∧ (∀ result ∈ results, result = .ok ()) ∧
    (∃ others, log.current = others ++ [[3,3]]) ∧
    ∀ content ∈ backupContents ⟨3,1⟩ log ++ [log.current.flatten], content.length ≤ 3 ∨ ∃ data ∈ [[1,1],[2,2],[3,3]], content = data := by
  have works : (writeMessages ⟨3,1⟩ smallLog [[1,1],[2,2],[3,3]]).isSome := by decide
  obtain ⟨⟨results,log⟩,wrote⟩ := Option.isSome_iff_exists.mp works
  obtain ⟨_,oks,_,_,ends,whole⟩ := rotation_keeps smallLog_empty wrote
  obtain ⟨_,_,sizes⟩ := whole (fun fate member => absurd member List.not_mem_nil)
  exact ⟨results,log,wrote,oks,ends [3,3] rfl,sizes (by decide)⟩

end NodeAgent.LogRotation
