import NodeAgent.Transition
import Mathlib.Data.List.Basic

/-!
The writer of the local log. Producers put lines and file changes into one bounded queue under
a lock; the thread of the writer takes a command at a time under the lock, and writes it and
closes files outside. Lines that find no room make the oldest lines leave, and how many have
left is told by a line of its own.
-/
namespace NodeAgent.LogWriter
open NodeAgent.Transition

abbrev Bytes := List UInt8

def MAX_LINES : ℕ := 1024
def MAX_BYTES : ℕ := 1048576
def MAX_LINE_BYTES : ℕ := 32768
def MAX_FILE_CHANGES : ℕ := 4

def u64Max : ℕ := 18446744073709551615

/-- A line, with its place among all accepted commands, or an admitted file. -/
inductive Command
  | line (id : ℕ) (text : Bytes)
  | file (handle : ℕ)
deriving DecidableEq

/-- The state under the lock. The last field records the lines that `dropped` counts and is
    never read. -/
structure QueueState where
  commands : List Command
  lines : ℕ
  bytes : ℕ
  fileChanges : ℕ
  dropped : ℕ
  flushRequested : Bool
  closing : Bool
  finished : Bool
  lost : List ℕ

/-- A subtraction that would underflow has no result. -/
def checkedSub (a b : ℕ) : Option ℕ := if b ≤ a then some (a - b) else none

/-! ### Producers -/

/-- The first line leaves the commands. -/
def removeLine : List Command → Option (ℕ × Bytes × List Command)
  | [] => none
  | .line id text :: rest => some (id,text,rest)
  | .file handle :: rest =>
    match removeLine rest with
    | none => none
    | some (id,text,others) => some (id,text,.file handle :: others)

inductive Room
  | ready (queue : QueueState)
  /-- No line is left, and there is still no room. -/
  | stuck (queue : QueueState)
  | underflow

/-- The eviction loop of `enqueue`. Every round removes a command, so there are at most as many
    rounds as commands. -/
def makeRoom (length : ℕ) : ℕ → QueueState → Room
  | 0, queue => if queue.lines ≥ MAX_LINES ∨ queue.bytes + length > MAX_BYTES then .stuck queue else .ready queue
  | rounds + 1, queue =>
    if queue.lines ≥ MAX_LINES ∨ queue.bytes + length > MAX_BYTES then
      match removeLine queue.commands with
      | none => .stuck queue
      | some (id,old,rest) =>
        match checkedSub queue.lines 1,checkedSub queue.bytes old.length with
        | some lines,some bytes =>
          makeRoom length rounds { queue with
            commands := rest, lines := lines, bytes := bytes, dropped := min u64Max (queue.dropped + 1), lost := queue.lost ++ [id] }
        | _,_ => .underflow
    else .ready queue

/-- A command that has been accepted, for the record. -/
inductive Accepted
  | line (text : Bytes)
  | file (handle : ℕ)
deriving DecidableEq

/-- What the thread of the writer has done. Each line was written to the standard output and to
    the file, if there was one; a notice also records which lines it counts. -/
inductive Event
  | line (id : ℕ) (text : Bytes) (file : Option ℕ)
  | notice (dropped : ℕ) (lost : List ℕ) (file : Option ℕ)
  | flush
  | sync (file : ℕ)
deriving DecidableEq

/-- Where the thread of the writer is, with what it holds. -/
inductive Worker
  | waiting
  | taken (command : Option Command) (dropped : ℕ) (lost : List ℕ) (flush closing : Bool)
  | told (command : Option Command) (flush closing : Bool)
  | wrote (flush closing : Bool)
  /-- The resources are dropped: the queue is emptied, the file is closed, then the files that
      were pending, and at last the end is published. -/
  | leaving
  | closingFile (pending : List Command)
  | closingPending (pending : List Command)
  | finishing
  | ended
deriving DecidableEq

/-- The writer and its producers. `accepted`, `log` and `closed` record the history. `underflow`
    and `stuck` say whether a counter went below zero, and whether a line found no room. -/
structure World where
  queue : QueueState
  worker : Worker
  file : Option ℕ
  accepted : List Accepted
  log : List Event
  closed : List ℕ
  underflow : Bool
  stuck : Bool

def spawn (file : Option ℕ) : World := ⟨⟨[],0,0,0,0,false,false,false,[]⟩,.waiting,file,[],[],[],false,false⟩

def World.enqueue (w : World) (line : Bytes) : World :=
  if w.queue.closing || w.queue.finished then w
  else
    match makeRoom line.length w.queue.commands.length w.queue with
    | .underflow => { w with underflow := true }
    | .stuck queue => { w with queue := queue, stuck := true }
    | .ready queue =>
      { w with
        queue := { queue with
          bytes := queue.bytes + line.length, lines := queue.lines + 1, commands := queue.commands ++ [.line w.accepted.length line] }
        accepted := w.accepted ++ [.line line] }

/-- A file that is refused is left to the caller. -/
def World.replaceFile (w : World) (handle : ℕ) : World :=
  if w.queue.closing || w.queue.finished then w
  else if w.queue.fileChanges ≥ MAX_FILE_CHANGES then w
  else
    { w with
      queue := { w.queue with commands := w.queue.commands ++ [.file handle], fileChanges := w.queue.fileChanges + 1 }
      accepted := w.accepted ++ [.file handle] }

/-! ### The thread of the writer -/

/-- What is done under the lock: a command is taken, and the number of dropped lines with it. -/
def World.take (w : World) : World :=
  match w.queue.commands with
  | [] =>
    { w with
      queue := { w.queue with dropped := 0, flushRequested := false, lost := [] }
      worker := .taken none w.queue.dropped w.queue.lost w.queue.flushRequested w.queue.closing }
  | .line id text :: rest =>
    match checkedSub w.queue.lines 1,checkedSub w.queue.bytes text.length with
    | some lines,some bytes =>
      { w with
        queue := { w.queue with commands := rest, lines := lines, bytes := bytes, dropped := 0, lost := [] }
        worker := .taken (some (.line id text)) w.queue.dropped w.queue.lost false false }
    | _,_ => { w with underflow := true }
  | .file handle :: rest =>
    match checkedSub w.queue.fileChanges 1 with
    | some fileChanges =>
      { w with
        queue := { w.queue with commands := rest, fileChanges := fileChanges, dropped := 0, lost := [] }
        worker := .taken (some (.file handle)) w.queue.dropped w.queue.lost false false }
    | none => { w with underflow := true }

def Command.handle : Command → Option ℕ
  | .line _ _ => none
  | .file handle => some handle

/-- The files among commands. -/
def files (commands : List Command) : List ℕ := commands.filterMap Command.handle

/-- The next step of the thread. It waits while there is nothing to do. -/
def World.work (w : World) : Option World :=
  match w.worker with
  | .waiting => if w.queue.commands = [] ∧ !w.queue.closing ∧ !w.queue.flushRequested then none else some w.take
  | .taken command dropped lost flush closing =>
    let log := if dropped ≠ 0 then w.log ++ [.notice dropped lost w.file] else w.log
    some { w with worker := .told command flush closing, log := log }
  | .told (some (.line id text)) flush closing => some { w with worker := .wrote flush closing, log := w.log ++ [.line id text w.file] }
  | .told (some (.file next)) flush closing => some { w with worker := .wrote flush closing, file := some next, closed := w.closed ++ w.file.toList }
  | .told none flush closing => some { w with worker := .wrote flush closing }
  | .wrote flush closing =>
    let flushed := if flush || closing then w.log ++ [.flush] else w.log
    let log := if flush && !closing then flushed ++ w.file.toList.map Event.sync else flushed
    some { w with worker := if closing then .leaving else .waiting, log := log }
  | .leaving =>
    some { w with
      queue := { w.queue with closing := true, lines := 0, bytes := 0, fileChanges := 0, commands := [] }
      worker := .closingFile w.queue.commands }
  | .closingFile pending => some { w with worker := .closingPending pending, file := none, closed := w.closed ++ w.file.toList }
  | .closingPending pending => some { w with worker := .finishing, closed := w.closed ++ files pending }
  | .finishing => some { w with worker := .ended, queue := { w.queue with finished := true } }
  | .ended => none

inductive Action
  | enqueue (line : Bytes)
  | replaceFile (handle : ℕ)
  | requestFlush
  | sealQueue
  | work
deriving DecidableEq

/-- A step of a producer or of the thread. Lines come with their length bounded. -/
def step (w : World) : Action → Option World
  | .enqueue line => if line.length ≤ MAX_LINE_BYTES then some (w.enqueue line) else none
  | .replaceFile handle => some (w.replaceFile handle)
  | .requestFlush => some { w with queue := { w.queue with flushRequested := true } }
  | .sealQueue => some { w with queue := { w.queue with closing := true } }
  | .work => w.work

/-! ### What commands hold -/

def Command.lineId : Command → Option ℕ
  | .line id _ => some id
  | .file _ => none

def Command.size : Command → ℕ
  | .line _ text => text.length
  | .file _ => 0

def lineIds (commands : List Command) : List ℕ := commands.filterMap Command.lineId

def bytesOf : List Command → ℕ
  | [] => 0
  | command :: rest => command.size + bytesOf rest

@[simp] theorem lineIds_nil : lineIds [] = [] := rfl

@[simp] theorem lineIds_line (id : ℕ) (text : Bytes) (rest : List Command) : lineIds (.line id text :: rest) = id :: lineIds rest := rfl

@[simp] theorem lineIds_file (handle : ℕ) (rest : List Command) : lineIds (.file handle :: rest) = lineIds rest := rfl

@[simp] theorem lineIds_append (front back : List Command) : lineIds (front ++ back) = lineIds front ++ lineIds back := List.filterMap_append

@[simp] theorem files_nil : files [] = [] := rfl

@[simp] theorem files_line (id : ℕ) (text : Bytes) (rest : List Command) : files (.line id text :: rest) = files rest := rfl

@[simp] theorem files_file (handle : ℕ) (rest : List Command) : files (.file handle :: rest) = handle :: files rest := rfl

@[simp] theorem files_append (front back : List Command) : files (front ++ back) = files front ++ files back := List.filterMap_append

@[simp] theorem bytesOf_nil : bytesOf [] = 0 := rfl

@[simp] theorem bytesOf_line (id : ℕ) (text : Bytes) (rest : List Command) : bytesOf (.line id text :: rest) = text.length + bytesOf rest := rfl

@[simp] theorem bytesOf_file (handle : ℕ) (rest : List Command) : bytesOf (.file handle :: rest) = bytesOf rest := Nat.zero_add _

@[simp] theorem bytesOf_append (front back : List Command) : bytesOf (front ++ back) = bytesOf front + bytesOf back := by
  induction front with
  | nil => exact (Nat.zero_add _).symm
  | cons command rest ih => rw [List.cons_append,bytesOf,bytesOf,ih,Nat.add_assoc]

/-- Commands without lines have no bytes. -/
theorem bytesOf_no_lines {commands : List Command} (none : lineIds commands = []) : bytesOf commands = 0 := by
  induction commands with
  | nil => rfl
  | cons command rest ih =>
    cases command with
    | line id text => cases none
    | file handle => exact (bytesOf_file handle rest).trans (ih none)

theorem removeLine_none {commands : List Command} (none : removeLine commands = none) : lineIds commands = [] := by
  induction commands with
  | nil => rfl
  | cons command rest ih =>
    cases command with
    | line id text => cases none
    | file handle =>
      cases later : removeLine rest with
      | none => exact ih later
      | some found =>
        obtain ⟨id,text,others⟩ := found
        simp [removeLine,later] at none

/-- The first line stands behind files only. -/
theorem removeLine_some {commands rest : List Command} {id : ℕ} {text : Bytes} (removed : removeLine commands = some (id,text,rest)) :
    ∃ front back, commands = front ++ .line id text :: back ∧ rest = front ++ back := by
  induction commands generalizing rest with
  | nil => cases removed
  | cons command others ih =>
    cases command with
    | line id' text' =>
      cases removed
      exact ⟨[],others,rfl,rfl⟩
    | file handle =>
      cases later : removeLine others with
      | none => simp [removeLine,later] at removed
      | some found =>
        obtain ⟨id',text',left⟩ := found
        simp only [removeLine,later,Option.some.injEq,Prod.mk.injEq] at removed
        obtain ⟨rfl,rfl,rfl⟩ := removed
        obtain ⟨front,back,rfl,rfl⟩ := ih later
        exact ⟨.file handle :: front,back,rfl,rfl⟩

/-! ### Files and places -/

def Accepted.handle : Accepted → Option ℕ
  | .line _ => none
  | .file handle => some handle

/-- The file that was accepted last, or the first one. -/
def lastFile (start : Option ℕ) (accepted : List Accepted) : Option ℕ := ((accepted.filterMap Accepted.handle).getLast?).or start

/-- The file of a line: the last one that was accepted before it. -/
def fileBefore (start : Option ℕ) (accepted : List Accepted) (id : ℕ) : Option ℕ := lastFile start (accepted.take id)

/-- Commands that stand for what was accepted: with `current` as the file, each line meets the
    file of its place, and at the end the file is the last one that was accepted. -/
def Follows (start : Option ℕ) (accepted : List Accepted) : Option ℕ → List Command → Prop
  | current, [] => current = lastFile start accepted
  | current, .line id text :: rest => accepted[id]? = some (.line text) ∧ current = fileBefore start accepted id ∧ Follows start accepted current rest
  | _, .file handle :: rest => Follows start accepted (some handle) rest

section Places
variable {start current : Option ℕ} {accepted : List Accepted} {commands : List Command}

theorem lastFile_line (text : Bytes) : lastFile start (accepted ++ [.line text]) = lastFile start accepted := by
  simp [lastFile,Accepted.handle]

theorem lastFile_file (handle : ℕ) : lastFile start (accepted ++ [.file handle]) = some handle := by
  simp [lastFile,Accepted.handle]

theorem fileBefore_append {id : ℕ} (known : id ≤ accepted.length) (more : List Accepted) : fileBefore start (accepted ++ more) id = fileBefore start accepted id := by
  unfold fileBefore
  rw [List.take_append_of_le_length known]

/-- A line that is accepted comes last. -/
theorem Follows.line (follows : Follows start accepted current commands) (text : Bytes) :
    Follows start (accepted ++ [.line text]) current (commands ++ [.line accepted.length text]) := by
  induction commands generalizing current with
  | nil =>
    refine ⟨by simp,?_,?_⟩
    · rw [fileBefore_append (Nat.le_refl _),fileBefore,List.take_length]
      exact follows
    · exact follows.trans (lastFile_line text).symm
  | cons command rest ih =>
    cases command with
    | line id own =>
      obtain ⟨known,file,follows⟩ := follows
      have before := (List.getElem?_eq_some_iff.mp known).1
      refine ⟨by rw [List.getElem?_append_left before]; exact known,?_,ih follows⟩
      rw [fileBefore_append (Nat.le_of_lt before)]
      exact file
    | file handle => exact ih follows

theorem Follows.file (follows : Follows start accepted current commands) (handle : ℕ) :
    Follows start (accepted ++ [.file handle]) current (commands ++ [.file handle]) := by
  induction commands generalizing current with
  | nil => exact (lastFile_file handle).symm
  | cons command rest ih =>
    cases command with
    | line id own =>
      obtain ⟨known,file,follows⟩ := follows
      have before := (List.getElem?_eq_some_iff.mp known).1
      refine ⟨by rw [List.getElem?_append_left before]; exact known,?_,ih follows⟩
      rw [fileBefore_append (Nat.le_of_lt before)]
      exact file
    | file handle' => exact ih follows

/-- A line may leave. -/
theorem Follows.remove {front back : List Command} {id : ℕ} {text : Bytes} (follows : Follows start accepted current (front ++ .line id text :: back)) :
    Follows start accepted current (front ++ back) ∧ accepted[id]? = some (.line text) := by
  induction front generalizing current with
  | nil => exact ⟨follows.2.2,follows.1⟩
  | cons command rest ih =>
    cases command with
    | line id' text' =>
      obtain ⟨known,file,follows⟩ := follows
      exact ⟨⟨known,file,(ih follows).1⟩,(ih follows).2⟩
    | file handle => exact ih follows

theorem Follows.known (follows : Follows start accepted current commands) {id : ℕ} (member : id ∈ lineIds commands) : id < accepted.length := by
  induction commands generalizing current with
  | nil => cases member
  | cons command rest ih =>
    cases command with
    | line id' text =>
      obtain ⟨known,_,follows⟩ := follows
      rcases List.mem_cons.mp member with rfl | member
      · exact (List.getElem?_eq_some_iff.mp known).1
      · exact ih follows member
    | file handle => exact ih follows member

end Places

/-! ### Eviction -/

/-- The counters are the counts of the queued commands, and within their limits. -/
structure Stocked (queue : QueueState) : Prop where
  lines : queue.lines = (lineIds queue.commands).length
  bytes : queue.bytes = bytesOf queue.commands
  changes : queue.fileChanges = (files queue.commands).length
  fewLines : queue.lines ≤ MAX_LINES
  fewBytes : queue.bytes ≤ MAX_BYTES
  fewChanges : queue.fileChanges ≤ MAX_FILE_CHANGES
  dropped : queue.dropped = min u64Max queue.lost.length

/-- What the eviction of lines keeps. -/
structure Evicted (before after : QueueState) : Prop where
  stocked : Stocked after
  files : files after.commands = files before.commands
  sublist : (lineIds after.commands).Sublist (lineIds before.commands)
  count : ∀ id, (lineIds after.commands).count id + after.lost.count id = (lineIds before.commands).count id + before.lost.count id
  follows : ∀ start accepted current held, Follows start accepted current (held ++ before.commands) → Follows start accepted current (held ++ after.commands)
  closing : after.closing = before.closing
  finished : after.finished = before.finished

theorem Evicted.refl {queue : QueueState} (stocked : Stocked queue) : Evicted queue queue :=
  ⟨stocked,rfl,List.Sublist.refl _,fun _ => rfl,fun _ _ _ _ follows => follows,rfl,rfl⟩

theorem Evicted.trans {a b c : QueueState} (first : Evicted a b) (second : Evicted b c) : Evicted a c where
  stocked := second.stocked
  files := second.files.trans first.files
  sublist := second.sublist.trans first.sublist
  count id := (second.count id).trans (first.count id)
  follows start accepted current held follows := second.follows start accepted current held (first.follows start accepted current held follows)
  closing := second.closing.trans first.closing
  finished := second.finished.trans first.finished

theorem checkedSub_of_le {a b : ℕ} (fits : b ≤ a) : checkedSub a b = some (a - b) := if_pos fits

/-- One line leaves. -/
theorem evicted_one {queue : QueueState} (stocked : Stocked queue) {front back : List Command} {id : ℕ} {text : Bytes}
    (parts : queue.commands = front ++ .line id text :: back) : Evicted queue { queue with
      commands := front ++ back, lines := queue.lines - 1, bytes := queue.bytes - text.length,
      dropped := min u64Max (queue.dropped + 1), lost := queue.lost ++ [id] } := by
  obtain ⟨lines,bytes,changes,fewLines,fewBytes,fewChanges,dropped⟩ := stocked
  rw [parts] at lines bytes changes
  simp only [lineIds_append,lineIds_line,List.length_append,List.length_cons,bytesOf_append,bytesOf_line,files_append,files_line] at lines bytes changes
  refine ⟨⟨?_,?_,?_,by dsimp only; omega,by dsimp only; omega,fewChanges,?_⟩,?_,?_,?_,?_,rfl,rfl⟩
  · simp only [lineIds_append,List.length_append]
    omega
  · simp only [bytesOf_append]
    omega
  · simp only [files_append,List.length_append]
    exact changes
  · simp only [List.length_append,List.length_singleton]
    omega
  · simp [parts]
  · simp [parts]
  · intro k
    simp only [parts,lineIds_append,lineIds_line,List.count_append,List.count_cons,List.count_nil]
    omega
  · intro start accepted current held follows
    rw [parts,← List.append_assoc] at follows
    dsimp only
    rw [← List.append_assoc]
    exact follows.remove.1

/-- Without lines there is room for any line. -/
theorem room_without_lines {queue : QueueState} (stocked : Stocked queue) (none : lineIds queue.commands = []) {length : ℕ} (short : length ≤ MAX_LINE_BYTES) :
    ¬(queue.lines ≥ MAX_LINES ∨ queue.bytes + length > MAX_BYTES) := by
  have lines := stocked.lines
  have bytes := stocked.bytes
  rw [none] at lines
  rw [bytesOf_no_lines none] at bytes
  have limits : MAX_LINES = 1024 ∧ MAX_BYTES = 1048576 ∧ MAX_LINE_BYTES = 32768 := ⟨rfl,rfl,rfl⟩
  rw [List.length_nil] at lines
  omega

/-- The loop always ends with room, and no counter underflows. -/
theorem makeRoom_ready {length : ℕ} (short : length ≤ MAX_LINE_BYTES) {rounds : ℕ} {queue : QueueState} (stocked : Stocked queue)
    (enough : queue.commands.length ≤ rounds) : ∃ after, makeRoom length rounds queue = .ready after ∧ Evicted queue after ∧
      after.lines < MAX_LINES ∧ after.bytes + length ≤ MAX_BYTES := by
  induction rounds generalizing queue with
  | zero =>
    have empty : queue.commands = [] := List.eq_nil_of_length_eq_zero (by omega)
    have room := room_without_lines stocked (by rw [empty]; rfl) short
    refine ⟨queue,?_,Evicted.refl stocked,by omega,by omega⟩
    unfold makeRoom
    rw [if_neg room]
  | succ rounds ih =>
    by_cases full : queue.lines ≥ MAX_LINES ∨ queue.bytes + length > MAX_BYTES
    · cases found : removeLine queue.commands with
      | none => exact absurd full (room_without_lines stocked (removeLine_none found) short)
      | some removed =>
        obtain ⟨id,old,rest⟩ := removed
        obtain ⟨front,back,parts,rfl⟩ := removeLine_some found
        have evicted := evicted_one stocked parts
        have lines := stocked.lines
        have bytes := stocked.bytes
        have lengths := congrArg List.length parts
        rw [parts] at lines bytes
        simp only [lineIds_append,lineIds_line,List.length_append,List.length_cons,bytesOf_append,bytesOf_line] at lines bytes lengths
        obtain ⟨after,ready,more,room⟩ := ih evicted.stocked (by simp only [List.length_append]; omega)
        refine ⟨after,?_,evicted.trans more,room⟩
        unfold makeRoom
        rw [if_pos full]
        simp only [found,checkedSub_of_le (show 1 ≤ queue.lines by omega),checkedSub_of_le (show old.length ≤ queue.bytes by omega)]
        exact ready
    · refine ⟨queue,?_,Evicted.refl stocked,by omega,by omega⟩
      unfold makeRoom
      rw [if_neg full]

/-! ### The whole writer -/

def Event.lineId : Event → Option ℕ
  | .line id _ _ => some id
  | _ => none

def Event.lost : Event → List ℕ
  | .notice _ lost _ => lost
  | _ => []

def writtenIds (log : List Event) : List ℕ := log.filterMap Event.lineId

/-- The lines that notices count. -/
def noticedIds (log : List Event) : List ℕ := log.flatMap Event.lost

/-- Whether a line was accepted in this place. -/
def lineAt (accepted : List Accepted) (id : ℕ) : ℕ :=
  match accepted[id]? with
  | some (.line _) => 1
  | _ => 0

/-- The commands that the thread holds. -/
def held : Worker → List Command
  | .taken command _ _ _ _ => command.toList
  | .told command _ _ => command.toList
  | .closingFile pending => pending
  | .closingPending pending => pending
  | _ => []

/-- The lost lines that the thread has still to tell of. -/
def heldLost : Worker → List ℕ
  | .taken _ _ lost _ _ => lost
  | _ => []

/-- The thread will not take another command. -/
def Worker.last : Worker → Bool
  | .waiting => false
  | .taken _ _ _ _ closing => closing
  | .told _ _ closing => closing
  | .wrote _ closing => closing
  | _ => true

/-- The thread has closed its file. -/
def Worker.closedFile : Worker → Bool
  | .closingPending _ => true
  | .finishing => true
  | .ended => true
  | _ => false

/-- The invariant. Every accepted line is in one place: written, told of, or still to come; and
    every admitted file is closed, in use, or still to come. -/
structure Balanced (start : Option ℕ) (w : World) : Prop where
  stocked : Stocked w.queue
  balance : ∀ id, lineAt w.accepted id = (writtenIds w.log).count id + (noticedIds w.log).count id + (heldLost w.worker).count id +
    w.queue.lost.count id + (lineIds (held w.worker)).count id + (lineIds w.queue.commands).count id
  order : (writtenIds w.log ++ lineIds (held w.worker ++ w.queue.commands)).Pairwise (· < ·)
  follows : w.worker.closedFile = false → Follows start w.accepted w.file (held w.worker ++ w.queue.commands)
  written : ∀ id text file, .line id text file ∈ w.log → w.accepted[id]? = some (.line text) ∧ file = fileBefore start w.accepted id
  notices : ∀ dropped lost file, .notice dropped lost file ∈ w.log → lost ≠ [] ∧ dropped = min u64Max lost.length
  telling : ∀ command dropped lost flush closing, w.worker = .taken command dropped lost flush closing → dropped = min u64Max lost.length
  leaving : w.worker.last = true → w.queue.commands = [] ∧ held w.worker = [] ∧ w.queue.lost = [] ∧ w.queue.closing = true
  finished : w.queue.finished = true → w.worker = .ended
  admitted : ∀ handle, (start = some handle ∨ .file handle ∈ w.accepted) →
    handle ∈ w.closed ∨ w.file = some handle ∨ handle ∈ files (held w.worker ++ w.queue.commands)
  gone : w.worker.closedFile = true → w.file = none
  sound : w.underflow = false ∧ w.stuck = false

theorem balanced_spawn (start : Option ℕ) : Balanced start (spawn start) where
  stocked := ⟨rfl,rfl,rfl,Nat.zero_le _,Nat.zero_le _,Nat.zero_le _,rfl⟩
  balance _ := rfl
  order := List.Pairwise.nil
  follows _ := by cases start <;> rfl
  written _ _ _ member := absurd member List.not_mem_nil
  notices _ _ _ member := absurd member List.not_mem_nil
  telling := by
    intro command dropped lost flush closing impossible
    cases impossible
  leaving last := by cases last
  finished done := by cases done
  admitted handle := by
    rintro (first | member)
    · exact .inr (.inl first)
    · cases member
  gone closed := by cases closed
  sound := ⟨rfl,rfl⟩

section Steps
variable {start : Option ℕ} {w w' : World}

theorem closedFile_last {worker : Worker} (closed : worker.closedFile = true) : worker.last = true := by
  cases worker <;> first | rfl | cases closed

/-- Lines are accepted only while the thread still takes commands. -/
theorem Balanced.running (before : Balanced start w) (opened : (w.queue.closing || w.queue.finished) = false) :
    w.worker.last = false ∧ w.worker.closedFile = false := by
  have closing : w.queue.closing = false := (Bool.or_eq_false_iff.mp opened).1
  have running : w.worker.last = false := by
    by_contra last
    have closes := (before.leaving (by simpa using last)).2.2.2
    rw [closing] at closes
    cases closes
  refine ⟨running,?_⟩
  by_contra closed
  rw [closedFile_last (by simpa using closed)] at running
  cases running

theorem lineAt_line (accepted : List Accepted) (text : Bytes) (id : ℕ) :
    lineAt (accepted ++ [.line text]) id = lineAt accepted id + if accepted.length = id then 1 else 0 := by
  unfold lineAt
  by_cases before : id < accepted.length
  · rw [List.getElem?_append_left before,if_neg (by omega),Nat.add_zero]
  · rw [List.getElem?_eq_none (Nat.le_of_not_lt before)]
    by_cases last : accepted.length = id
    · subst last
      simp
    · rw [List.getElem?_eq_none (by rw [List.length_append,List.length_singleton]; omega),if_neg last]

theorem lineAt_file (accepted : List Accepted) (handle id : ℕ) : lineAt (accepted ++ [.file handle]) id = lineAt accepted id := by
  unfold lineAt
  by_cases before : id < accepted.length
  · rw [List.getElem?_append_left before]
  · rw [List.getElem?_eq_none (Nat.le_of_not_lt before)]
    by_cases last : accepted.length = id
    · subst last
      simp
    · rw [List.getElem?_eq_none (by rw [List.length_append,List.length_singleton]; omega)]

/-- What was written stays right when more is accepted. -/
theorem Balanced.written_more (before : Balanced start w) (entry : Accepted) {id : ℕ} {text : Bytes} {file : Option ℕ} (member : .line id text file ∈ w.log) :
    (w.accepted ++ [entry])[id]? = some (.line text) ∧ file = fileBefore start (w.accepted ++ [entry]) id := by
  obtain ⟨known,own⟩ := before.written id text file member
  have place := (List.getElem?_eq_some_iff.mp known).1
  exact ⟨by rw [List.getElem?_append_left place,known],by rw [fileBefore_append (Nat.le_of_lt place)]; exact own⟩

/-- Every line that is known stands before the next place. -/
theorem Balanced.place (before : Balanced start w) (running : w.worker.closedFile = false) {id : ℕ}
    (member : id ∈ writtenIds w.log ++ lineIds (held w.worker ++ w.queue.commands)) : id < w.accepted.length := by
  rcases List.mem_append.mp member with written | waiting
  · obtain ⟨event,inside,own⟩ := List.mem_filterMap.mp written
    cases event with
    | line id' text file =>
      cases own
      exact (List.getElem?_eq_some_iff.mp (before.written _ text file inside).1).1
    | notice dropped lost file => cases own
    | flush => cases own
    | sync file => cases own
  · exact (before.follows running).known waiting

theorem balanced_enqueue (before : Balanced start w) {line : Bytes} (short : line.length ≤ MAX_LINE_BYTES) : Balanced start (w.enqueue line) := by
  unfold World.enqueue
  by_cases opened : (w.queue.closing || w.queue.finished) = true
  · rw [if_pos opened]
    exact before
  · rw [if_neg opened]
    obtain ⟨running,unclosed⟩ := before.running (by simpa using opened)
    obtain ⟨after,ready,evicted,room,roomBytes⟩ := makeRoom_ready short before.stocked (Nat.le_refl _)
    simp only [ready]
    have stocked := evicted.stocked
    have sublist : (writtenIds w.log ++ lineIds (held w.worker ++ after.commands)).Sublist (writtenIds w.log ++ lineIds (held w.worker ++ w.queue.commands)) := by
      rw [lineIds_append,lineIds_append]
      exact (List.Sublist.refl _).append ((List.Sublist.refl _).append evicted.sublist)
    refine ⟨⟨?_,?_,?_,?_,?_,stocked.fewChanges,stocked.dropped⟩,?_,?_,?_,?_,before.notices,before.telling,?_,?_,?_,before.gone,before.sound⟩
    · simp [stocked.lines]
    · simp [stocked.bytes]
    · simp [stocked.changes]
    · dsimp only
      omega
    · exact roomBytes
    · intro id
      have count := evicted.count id
      have balance := before.balance id
      simp only [lineAt_line,lineIds_append,lineIds_line,lineIds_nil,List.count_append,List.count_cons,List.count_nil,beq_iff_eq]
      omega
    · dsimp only
      rw [← List.append_assoc,lineIds_append,← List.append_assoc,List.pairwise_append]
      refine ⟨before.order.sublist sublist,by simp,?_⟩
      intro id member next own
      simp only [lineIds_line,lineIds_nil,List.mem_singleton] at own
      rw [own]
      exact before.place unclosed (sublist.mem member)
    · intro _
      dsimp only
      rw [← List.append_assoc]
      exact (evicted.follows start w.accepted w.file (held w.worker) (before.follows unclosed)).line line
    · intro id text file member
      exact before.written_more (.line line) member
    · intro last
      rw [running] at last
      cases last
    · intro done
      exact before.finished (evicted.finished.symm.trans done)
    · intro handle known
      have old : start = some handle ∨ .file handle ∈ w.accepted := by simpa using known
      simpa [evicted.files] using before.admitted handle old

theorem balanced_replaceFile (before : Balanced start w) (handle : ℕ) : Balanced start (w.replaceFile handle) := by
  unfold World.replaceFile
  by_cases opened : (w.queue.closing || w.queue.finished) = true
  · rw [if_pos opened]
    exact before
  · rw [if_neg opened]
    by_cases full : w.queue.fileChanges ≥ MAX_FILE_CHANGES
    · rw [if_pos full]
      exact before
    · rw [if_neg full]
      obtain ⟨running,unclosed⟩ := before.running (by simpa using opened)
      have stocked := before.stocked
      refine ⟨⟨?_,?_,?_,stocked.fewLines,stocked.fewBytes,?_,stocked.dropped⟩,?_,?_,?_,?_,before.notices,before.telling,?_,before.finished,?_,before.gone,
        before.sound⟩
      · simp [stocked.lines]
      · simp [stocked.bytes]
      · simp [stocked.changes]
      · dsimp only
        omega
      · intro id
        have balance := before.balance id
        simp only [lineAt_file,lineIds_append,lineIds_file,lineIds_nil,List.append_nil]
        exact balance
      · dsimp only
        rw [← List.append_assoc,lineIds_append,lineIds_file,lineIds_nil,List.append_nil]
        exact before.order
      · intro _
        dsimp only
        rw [← List.append_assoc]
        exact (before.follows unclosed).file handle
      · intro id text file member
        exact before.written_more (.file handle) member
      · intro last
        rw [running] at last
        cases last
      · intro other known
        have cases' : (start = some other ∨ .file other ∈ w.accepted) ∨ other = handle := by
          rcases known with first | member
          · exact .inl (.inl first)
          · rcases List.mem_append.mp member with old | new
            · exact .inl (.inr old)
            · exact .inr (by simpa using new)
        rcases cases' with old | rfl
        · rcases before.admitted other old with closed | used | waiting
          · exact .inl closed
          · exact .inr (.inl used)
          · right; right
            dsimp only
            rw [← List.append_assoc,files_append]
            exact List.mem_append_left _ waiting
        · right; right
          simp

/-- Nothing but the flags changes. -/
theorem balanced_flags (before : Balanced start w) (flush : Bool) {closing : Bool} (closes : w.queue.closing = true → closing = true) :
    Balanced start { w with queue := { w.queue with flushRequested := flush, closing := closing } } := by
  obtain ⟨stocked,balance,order,follows,written,notices,telling,leaving,finished,admitted,gone,sound⟩ := before
  refine ⟨⟨stocked.1,stocked.2,stocked.3,stocked.4,stocked.5,stocked.6,stocked.7⟩,balance,order,follows,written,notices,telling,?_,finished,admitted,gone,sound⟩
  intro last
  obtain ⟨commands,hold,lost,own⟩ := leaving last
  exact ⟨commands,hold,lost,closes own⟩

/-- A command is taken together with the number of the lines that have been lost. -/
theorem balanced_take (before : Balanced start w) (waiting : w.worker = .waiting) : Balanced start w.take := by
  obtain ⟨stocked,balance,order,follows,written,notices,telling,leaving,finished,admitted,gone,sound⟩ := before
  rw [waiting] at balance order follows admitted finished
  have unfinished : ¬w.queue.finished = true := by
    intro done
    cases finished done
  unfold World.take
  cases commands : w.queue.commands with
  | nil =>
    refine ⟨⟨?_,?_,?_,stocked.fewLines,stocked.fewBytes,stocked.fewChanges,rfl⟩,?_,?_,?_,written,notices,?_,?_,?_,?_,?_,sound⟩
    · rw [stocked.lines,commands]
    · rw [stocked.bytes,commands]
    · rw [stocked.changes,commands]
    · intro id
      have own := balance id
      simp only [held,heldLost,commands,lineIds_nil,List.count_nil,Option.toList_none] at own ⊢
      omega
    · simpa [held,commands] using order
    · intro _
      simpa [held,commands] using follows rfl
    · intro command dropped lost flush closing own
      cases own
      exact stocked.dropped
    · intro closing
      exact ⟨commands,rfl,rfl,closing⟩
    · exact fun done => absurd done unfinished
    · intro handle known
      simpa [held,commands] using admitted handle known
    · intro closed
      cases closed
  | cons command rest =>
    have lines := stocked.lines
    have bytes := stocked.bytes
    have changes := stocked.changes
    have fewLines := stocked.fewLines
    have fewBytes := stocked.fewBytes
    have fewChanges := stocked.fewChanges
    cases command with
    | line id text =>
      rw [commands] at lines bytes changes
      simp only [lineIds_line,List.length_cons,bytesOf_line,files_line] at lines bytes changes
      simp only [checkedSub_of_le (show 1 ≤ w.queue.lines by omega),checkedSub_of_le (show text.length ≤ w.queue.bytes by omega)]
      refine ⟨⟨?_,?_,changes,?_,?_,fewChanges,rfl⟩,?_,?_,?_,written,notices,?_,?_,?_,?_,?_,sound⟩
      · dsimp only
        omega
      · dsimp only
        omega
      · dsimp only
        omega
      · dsimp only
        omega
      · intro k
        have own := balance k
        simp only [held,heldLost,commands,lineIds_nil,List.count_nil,Option.toList_some,lineIds_line,List.count_cons] at own ⊢
        omega
      · simpa [held,commands] using order
      · intro _
        simpa [held,commands] using follows rfl
      · intro command dropped lost flush closing own
        cases own
        exact stocked.dropped
      · intro last
        cases last
      · exact fun done => absurd done unfinished
      · intro handle known
        simpa [held,commands] using admitted handle known
      · intro closed
        cases closed
    | file handle =>
      rw [commands] at lines bytes changes
      simp only [lineIds_file,bytesOf_file,files_file,List.length_cons] at lines bytes changes
      simp only [checkedSub_of_le (show 1 ≤ w.queue.fileChanges by omega)]
      refine ⟨⟨lines,bytes,?_,fewLines,fewBytes,?_,rfl⟩,?_,?_,?_,written,notices,?_,?_,?_,?_,?_,sound⟩
      · dsimp only
        omega
      · dsimp only
        omega
      · intro k
        have own := balance k
        simp only [held,heldLost,commands,lineIds_nil,List.count_nil,Option.toList_some,lineIds_file] at own ⊢
        omega
      · simpa [held,commands] using order
      · intro _
        simpa [held,commands] using follows rfl
      · intro command dropped lost flush closing own
        cases own
        exact stocked.dropped
      · intro last
        cases last
      · exact fun done => absurd done unfinished
      · intro other known
        simpa [held,commands] using admitted other known
      · intro closed
        cases closed

@[simp] theorem writtenIds_append (log more : List Event) : writtenIds (log ++ more) = writtenIds log ++ writtenIds more := List.filterMap_append

@[simp] theorem noticedIds_append (log more : List Event) : noticedIds (log ++ more) = noticedIds log ++ noticedIds more := List.flatMap_append

/-- Events without lines leave the accounts as they are. -/
theorem balanced_log (before : Balanced start w) {more : List Event} (plain : ∀ event ∈ more, event.lineId = none ∧ event.lost = [])
    (other : ∀ event ∈ more, ∀ dropped lost file, event ≠ .notice dropped lost file) : Balanced start { w with log := w.log ++ more } := by
  obtain ⟨stocked,balance,order,follows,written,notices,telling,leaving,finished,admitted,gone,sound⟩ := before
  have noIds : writtenIds more = [] := List.filterMap_eq_nil_iff.mpr (fun event member => (plain event member).1)
  have noLost : noticedIds more = [] := List.flatMap_eq_nil_iff.mpr (fun event member => (plain event member).2)
  refine ⟨stocked,?_,?_,follows,?_,?_,telling,leaving,finished,admitted,gone,sound⟩
  · intro id
    simpa [noIds,noLost] using balance id
  · simpa [noIds] using order
  · intro id text file member
    rcases List.mem_append.mp member with old | new
    · exact written id text file old
    · have none := (plain _ new).1
      cases none
  · intro dropped lost file member
    rcases List.mem_append.mp member with old | new
    · exact notices dropped lost file old
    · exact absurd rfl (other _ new dropped lost file)

/-- A step of the thread with nothing in its hands. -/
theorem balanced_move (before : Balanced start w) {worker : Worker} (empty : held w.worker = []) (empty' : held worker = []) (told : heldLost w.worker = [])
    (told' : heldLost worker = [])
    (idle : ∀ command dropped lost flush closing, worker ≠ .taken command dropped lost flush closing) (same : worker.closedFile = w.worker.closedFile)
    (leaves : worker.last = true → w.queue.commands = [] ∧ w.queue.lost = [] ∧ w.queue.closing = true) (unfinished : w.queue.finished = false) :
    Balanced start { w with worker := worker } := by
  obtain ⟨stocked,balance,order,follows,written,notices,telling,leaving,finished,admitted,gone,sound⟩ := before
  rw [empty] at balance order follows admitted
  rw [told] at balance
  refine ⟨stocked,?_,?_,?_,written,notices,?_,?_,?_,?_,?_,sound⟩
  · intro id
    dsimp only
    rw [empty',told']
    exact balance id
  · dsimp only
    rw [empty']
    exact order
  · intro opened
    dsimp only
    rw [empty']
    exact follows (same ▸ opened)
  · intro command dropped lost flush closing own
    exact absurd own (idle command dropped lost flush closing)
  · intro last
    obtain ⟨commands,lost,closing⟩ := leaves last
    exact ⟨commands,empty',lost,closing⟩
  · intro done
    dsimp only at done
    rw [unfinished] at done
    cases done
  · intro handle known
    dsimp only
    rw [empty']
    exact admitted handle known
  · intro closed
    exact gone (same ▸ closed)

/-- The lines that have been lost are told of, if there are any. -/
theorem balanced_tell (before : Balanced start w) {command : Option Command} {dropped : ℕ} {lost : List ℕ} {flush closing : Bool}
    (taken : w.worker = .taken command dropped lost flush closing) :
    Balanced start { w with
      worker := .told command flush closing, log := if dropped ≠ 0 then w.log ++ [.notice dropped lost w.file] else w.log } := by
  obtain ⟨stocked,balance,order,follows,written,notices,telling,leaving,finished,admitted,gone,sound⟩ := before
  rw [taken] at balance order follows leaving finished admitted
  have number := telling _ _ _ _ _ taken
  have limit : u64Max = 18446744073709551615 := rfl
  have unfinished : ¬w.queue.finished = true := by
    intro done
    cases finished done
  have ids : writtenIds (if dropped ≠ 0 then w.log ++ [.notice dropped lost w.file] else w.log) = writtenIds w.log := by
    split
    · simp [writtenIds,Event.lineId]
    · rfl
  have noticed : noticedIds (if dropped ≠ 0 then w.log ++ [.notice dropped lost w.file] else w.log) = noticedIds w.log ++ lost := by
    split
    · simp [noticedIds,Event.lost]
    · next zero =>
      have none : lost = [] := List.eq_nil_of_length_eq_zero (by omega)
      simp [none]
  refine ⟨stocked,?_,?_,follows,?_,?_,?_,leaving,?_,admitted,?_,sound⟩
  · intro id
    have own := balance id
    dsimp only
    rw [ids,noticed]
    simp only [held,heldLost,List.count_append,List.count_nil] at own ⊢
    omega
  · dsimp only
    rw [ids]
    exact order
  · intro id text file member
    refine written id text file ?_
    dsimp only at member
    split at member
    · simpa using member
    · exact member
  · intro dropped' lost' file member
    dsimp only at member
    split at member
    · next some =>
      rcases List.mem_append.mp member with old | new
      · exact notices dropped' lost' file old
      · simp only [List.mem_singleton,Event.notice.injEq] at new
        obtain ⟨rfl,rfl,_⟩ := new
        refine ⟨?_,number⟩
        rintro rfl
        exact some number
    · exact notices dropped' lost' file member
  · intro _ _ _ _ _ own
    cases own
  · exact fun done => absurd done unfinished
  · intro closed
    cases closed

/-- The line in the hands of the thread is written to the file of its place. -/
theorem balanced_line (before : Balanced start w) {id : ℕ} {text : Bytes} {flush closing : Bool} (told : w.worker = .told (some (.line id text)) flush closing) :
    Balanced start { w with worker := .wrote flush closing, log := w.log ++ [.line id text w.file] } := by
  obtain ⟨stocked,balance,order,follows,written,notices,telling,leaving,finished,admitted,gone,sound⟩ := before
  rw [told] at balance order follows leaving finished admitted
  have unfinished : ¬w.queue.finished = true := by
    intro done
    cases finished done
  obtain ⟨known,own,follows⟩ := follows rfl
  have ids : writtenIds [.line id text w.file] = [id] := rfl
  have lost : noticedIds [.line id text w.file] = [] := rfl
  refine ⟨stocked,?_,?_,fun _ => follows,?_,?_,?_,?_,?_,?_,?_,sound⟩
  · intro k
    have own := balance k
    simp only [held,heldLost,writtenIds_append,noticedIds_append,ids,lost,List.append_nil,List.count_append,List.count_nil,Option.toList_some,lineIds_line,
      lineIds_nil] at own ⊢
    omega
  · simp only [held,writtenIds_append,ids,List.nil_append,List.append_assoc]
    simpa [held] using order
  · intro id' text' file member
    rcases List.mem_append.mp member with old | new
    · exact written id' text' file old
    · simp only [List.mem_singleton,Event.line.injEq] at new
      obtain ⟨rfl,rfl,rfl⟩ := new
      exact ⟨known,own⟩
  · intro dropped lost file member
    rcases List.mem_append.mp member with old | new
    · exact notices dropped lost file old
    · simp at new
  · intro _ _ _ _ _ own
    cases own
  · intro last
    have hands := (leaving last).2.1
    cases hands
  · exact fun done => absurd done unfinished
  · intro handle known
    simpa [held] using admitted handle known
  · intro closed
    cases closed

/-- The next file takes the place of the one before, which is closed. -/
theorem balanced_file (before : Balanced start w) {next : ℕ} {flush closing : Bool} (told : w.worker = .told (some (.file next)) flush closing) :
    Balanced start { w with worker := .wrote flush closing, file := some next, closed := w.closed ++ w.file.toList } := by
  obtain ⟨stocked,balance,order,follows,written,notices,telling,leaving,finished,admitted,gone,sound⟩ := before
  rw [told] at balance order follows leaving finished admitted
  have unfinished : ¬w.queue.finished = true := by
    intro done
    cases finished done
  refine ⟨stocked,balance,order,fun _ => follows rfl,written,notices,?_,?_,?_,?_,?_,sound⟩
  · intro _ _ _ _ _ own
    cases own
  · intro last
    have hands := (leaving last).2.1
    cases hands
  · exact fun done => absurd done unfinished
  · intro handle known
    rcases admitted handle known with closed | used | waiting
    · exact .inl (List.mem_append_left _ closed)
    · exact .inl (List.mem_append_right _ (by simp [used]))
    · simp only [held,Option.toList_some,List.singleton_append,files_file,List.mem_cons] at waiting
      rcases waiting with rfl | later
      · exact .inr (.inl rfl)
      · exact .inr (.inr later)
  · intro closed
    cases closed

/-- The thread closes its file when nothing is left to be written. -/
theorem balanced_close (before : Balanced start w) {pending : List Command} (closing : w.worker = .closingFile pending) :
    Balanced start { w with worker := .closingPending pending, file := none, closed := w.closed ++ w.file.toList } := by
  obtain ⟨stocked,balance,order,follows,written,notices,telling,leaving,finished,admitted,gone,sound⟩ := before
  rw [closing] at balance order follows leaving finished admitted
  have unfinished : ¬w.queue.finished = true := by
    intro done
    cases finished done
  refine ⟨stocked,balance,order,?_,written,notices,?_,leaving,fun done => absurd done unfinished,?_,fun _ => rfl,sound⟩
  · intro opened
    cases opened
  · intro _ _ _ _ _ own
    cases own
  · intro handle known
    rcases admitted handle known with closed | used | waiting
    · exact .inl (List.mem_append_left _ closed)
    · exact .inl (List.mem_append_right _ (by simp [used]))
    · exact .inr (.inr waiting)

/-- One step of the thread. -/
theorem balanced_work (before : Balanced start w) (taken : w.work = some w') : Balanced start w' := by
  have finished := before.finished
  unfold World.work at taken
  split at taken
  · next waiting =>
    split at taken
    · cases taken
    · cases taken
      exact balanced_take before waiting
  · next command dropped lost flush closing own =>
    cases taken
    exact balanced_tell before own
  · next id text flush closing own =>
    cases taken
    exact balanced_line before own
  · next next' flush closing own =>
    cases taken
    exact balanced_file before own
  · next flush closing own =>
    cases taken
    have leaving := before.leaving
    rw [own] at leaving finished
    refine balanced_move before (by rw [own]; rfl) rfl (by rw [own]; rfl) rfl (fun _ _ _ _ _ same => by cases same) (by rw [own]; rfl) ?_ ?_
    · intro last
      obtain ⟨commands,_,lost,closes⟩ := leaving last
      exact ⟨commands,lost,closes⟩
    · by_contra done
      cases finished (by simpa using done)
  · next flush closing own =>
    have leaving := before.leaving
    rw [own] at leaving finished
    have unfinished : w.queue.finished = false := by
      by_contra done
      cases finished (by simpa using done)
    have logged : Balanced start { w with log :=
        if flush && !closing then (if flush || closing then w.log ++ [.flush] else w.log) ++ w.file.toList.map Event.sync
        else if flush || closing then w.log ++ [.flush] else w.log } := by
      have flushed : Balanced start { w with log := if flush || closing then w.log ++ [.flush] else w.log } := by
        split
        · exact balanced_log before (by simp [Event.lineId,Event.lost]) (by simp)
        · exact before
      split
      · exact balanced_log flushed (by simp [Event.lineId,Event.lost]) (by simp)
      · exact flushed
    cases taken
    refine balanced_move logged ?_ ?_ ?_ ?_ ?_ ?_ ?_ unfinished
    · dsimp only
      rw [own]
      rfl
    · cases closing <;> rfl
    · dsimp only
      rw [own]
      rfl
    · cases closing <;> rfl
    · intro _ _ _ _ _ same
      cases closing <;> cases same
    · dsimp only
      rw [own]
      cases closing <;> rfl
    · intro last
      have closes : closing = true := by
        cases closing with
        | true => rfl
        | false => cases last
      obtain ⟨commands,_,lost,queue⟩ := leaving closes
      exact ⟨commands,lost,queue⟩
  · next own =>
    cases taken
    have leaving := before.leaving
    rw [own] at leaving finished
    obtain ⟨commands,_,lost,closes⟩ := leaving rfl
    have unfinished : w.queue.finished = false := by
      by_contra done
      cases finished (by simpa using done)
    have stocked := before.stocked
    have cleared : Balanced start { w with
        queue := { w.queue with closing := true, lines := 0, bytes := 0, fileChanges := 0, commands := [] } } := by
      have same : w.queue = { w.queue with closing := true, lines := 0, bytes := 0, fileChanges := 0, commands := [] } := by
        have lines := stocked.lines
        have bytes := stocked.bytes
        have changes := stocked.changes
        rw [commands] at lines bytes changes
        generalize w.queue = queue at *
        obtain ⟨_,_,_,_,_,_,_,_,_⟩ := queue
        simp only at commands lines bytes changes closes
        subst commands lines bytes changes closes
        rfl
      rw [← same]
      exact before
    rw [commands]
    refine balanced_move cleared (by dsimp only; rw [own]; rfl) rfl (by dsimp only; rw [own]; rfl) rfl (fun _ _ _ _ _ same => by cases same)
      (by dsimp only; rw [own]; rfl) (fun _ => ⟨rfl,lost,rfl⟩) unfinished
  · next pending own =>
    cases taken
    exact balanced_close before own
  · next pending own =>
    cases taken
    have leaving := before.leaving
    rw [own] at leaving finished
    obtain ⟨commands,empty,lost,closes⟩ := leaving rfl
    have none : pending = [] := empty
    subst none
    have unfinished : w.queue.finished = false := by
      by_contra done
      cases finished (by simpa using done)
    have same : w.closed ++ files [] = w.closed := List.append_nil _
    rw [same]
    exact balanced_move before (by rw [own]; rfl) rfl (by rw [own]; rfl) rfl (fun _ _ _ _ _ same => by cases same) (by rw [own]; rfl)
      (fun _ => ⟨commands,lost,closes⟩) unfinished
  · next own =>
    cases taken
    obtain ⟨stocked,balance,order,follows,written,notices,telling,leaving,finished,admitted,gone,sound⟩ := before
    rw [own] at balance order leaving admitted gone
    refine ⟨⟨stocked.1,stocked.2,stocked.3,stocked.4,stocked.5,stocked.6,stocked.7⟩,balance,order,?_,written,notices,?_,leaving,fun _ => rfl,admitted,gone,sound⟩
    · intro opened
      cases opened
    · intro _ _ _ _ _ same
      cases same
  · cases taken

theorem balanced_step (before : Balanced start w) {action : Action} (taken : step w action = some w') : Balanced start w' := by
  cases action with
  | enqueue line =>
    dsimp only [step] at taken
    split at taken
    · next short =>
      cases taken
      exact balanced_enqueue before short
    · cases taken
  | replaceFile handle =>
    cases taken
    exact balanced_replaceFile before handle
  | requestFlush =>
    cases taken
    exact balanced_flags before true id
  | sealQueue =>
    cases taken
    exact balanced_flags before w.queue.flushRequested (fun _ => rfl)
  | work => exact balanced_work before taken

theorem balanced_run {actions : List Action} (run : Run step (spawn start) actions w) : Balanced start w :=
  run.invariant (balanced_spawn start) (fun _ _ _ before taken => balanced_step before taken)

theorem work_published (taken : w.work = some w') : w'.worker = .ended → w'.queue.finished = true := by
  intro ended
  unfold World.work at taken
  split at taken
  · next waiting =>
    split at taken
    · cases taken
    · cases taken
      unfold World.take at ended
      split at ended
      · cases ended
      · split at ended
        · cases ended
        · dsimp only at ended
          rw [waiting] at ended
          cases ended
      · split at ended
        · cases ended
        · dsimp only at ended
          rw [waiting] at ended
          cases ended
  · cases taken
    cases ended
  · cases taken
    cases ended
  · cases taken
    cases ended
  · cases taken
    cases ended
  · next closing _ =>
    cases taken
    cases closing <;> cases ended
  · cases taken
    cases ended
  · cases taken
    cases ended
  · cases taken
    cases ended
  · cases taken
    rfl
  · cases taken

theorem published_run {actions : List Action} (run : Run step (spawn start) actions w) : w.worker = .ended → w.queue.finished = true := by
  have published := run.invariant (I := fun w => w.worker = .ended → w.queue.finished = true) (fun ended => by cases ended) ?_
  · exact published
  · intro w action w' published taken ended
    cases action with
    | enqueue line =>
      dsimp only [step] at taken
      split at taken
      · cases taken
        unfold World.enqueue at ended ⊢
        split at ended
        · next refused =>
          rw [if_pos refused]
          exact published ended
        · next opened =>
          have own : w.worker = .ended := by
            split at ended <;> exact ended
          simp [published own] at opened
      · cases taken
    | replaceFile handle =>
      cases taken
      unfold World.replaceFile at ended ⊢
      split at ended
      · next refused =>
        rw [if_pos refused]
        exact published ended
      · next opened =>
        have own : w.worker = .ended := by
          split at ended <;> exact ended
        simp [published own] at opened
    | requestFlush =>
      cases taken
      exact published ended
    | sealQueue =>
      cases taken
      exact published ended
    | work => exact work_published taken ended

/-! ### The end -/

/-- How many steps the thread has still to take once the queue is closing. -/
def remaining (w : World) : ℕ :=
  match w.worker with
  | .waiting => 4 * w.queue.commands.length + 8
  | .taken _ _ _ _ closing => if closing then 7 else 4 * w.queue.commands.length + 11
  | .told _ _ closing => if closing then 6 else 4 * w.queue.commands.length + 10
  | .wrote _ closing => if closing then 5 else 4 * w.queue.commands.length + 9
  | .leaving => 4
  | .closingFile _ => 3
  | .closingPending _ => 2
  | .finishing => 1
  | .ended => 0

/-- A closing writer never waits, and comes nearer to its end. -/
theorem work_nearer (before : Balanced start w) (closes : w.queue.closing = true) (going : w.worker ≠ .ended) :
    ∃ w', w.work = some w' ∧ remaining w' < remaining w ∧ w'.queue.closing = true := by
  have stocked := before.stocked
  unfold World.work
  cases own : w.worker with
  | waiting =>
    rw [if_neg (by simp [closes])]
    refine ⟨_,rfl,?_⟩
    unfold World.take remaining
    rw [own]
    cases commands : w.queue.commands with
    | nil =>
      simp only [closes,if_true,List.length_nil]
      exact ⟨by omega,trivial⟩
    | cons command rest =>
      have lines := stocked.lines
      have bytes := stocked.bytes
      have changes := stocked.changes
      rw [commands] at lines bytes changes
      cases command with
      | line id text =>
        simp only [lineIds_line,List.length_cons,bytesOf_line] at lines bytes
        simp only [checkedSub_of_le (show 1 ≤ w.queue.lines by omega),checkedSub_of_le (show text.length ≤ w.queue.bytes by omega),Bool.false_eq_true,if_false,
          List.length_cons]
        exact ⟨by omega,closes⟩
      | file handle =>
        simp only [files_file,List.length_cons] at changes
        simp only [checkedSub_of_le (show 1 ≤ w.queue.fileChanges by omega),Bool.false_eq_true,if_false,List.length_cons]
        exact ⟨by omega,closes⟩
  | taken command dropped lost flush closing =>
    refine ⟨_,rfl,?_,closes⟩
    unfold remaining
    rw [own]
    cases closing <;> simp
  | told command flush closing =>
    unfold remaining
    rw [own]
    cases command with
    | none =>
      refine ⟨_,rfl,?_,closes⟩
      cases closing <;> simp
    | some command =>
      cases command with
      | line id text =>
        refine ⟨_,rfl,?_,closes⟩
        cases closing <;> simp
      | file handle =>
        refine ⟨_,rfl,?_,closes⟩
        cases closing <;> simp
  | wrote flush closing =>
    refine ⟨_,rfl,?_,closes⟩
    unfold remaining
    rw [own]
    cases closing <;> simp
  | leaving => exact ⟨_,rfl,by simp [remaining,own],rfl⟩
  | closingFile pending => exact ⟨_,rfl,by simp [remaining,own],closes⟩
  | closingPending pending => exact ⟨_,rfl,by simp [remaining,own],closes⟩
  | finishing => exact ⟨_,rfl,by simp [remaining,own],closes⟩
  | ended => exact absurd own going

/-- A closing writer finishes by itself. -/
theorem closing_finishes (before : Balanced start w) (published : w.worker = .ended → w.queue.finished = true) (closes : w.queue.closing = true) :
    ∃ count w', follow step w (List.replicate count .work) = some w' ∧ w'.queue.finished = true := by
  induction steps : remaining w using Nat.strongRecOn generalizing w with
  | ind bound ih =>
    by_cases ended : w.worker = .ended
    · exact ⟨0,w,rfl,published ended⟩
    · obtain ⟨next,worked,nearer,closes'⟩ := work_nearer before closes ended
      obtain ⟨count,w',rest,done⟩ := ih (remaining next) (by omega) (balanced_work before worked) (work_published worked) closes' rfl
      refine ⟨count + 1,w',?_,done⟩
      rw [List.replicate_succ,follow,show step w .work = some next from worked]
      exact rest

end Steps

/-- The lines that are still to be written or to be told of. -/
def pendingIds (w : World) : List ℕ := heldLost w.worker ++ w.queue.lost ++ lineIds (held w.worker) ++ lineIds w.queue.commands

/-- The local log loses no accepted line silently. -/
theorem lines_written_or_told {start : Option ℕ} {actions : List Action} {w : World} (run : Run step (spawn start) actions w) :
    (w.queue.lines = (lineIds w.queue.commands).length ∧ w.queue.bytes = bytesOf w.queue.commands ∧ w.queue.fileChanges = (files w.queue.commands).length ∧
      w.queue.lines ≤ MAX_LINES ∧ w.queue.bytes ≤ MAX_BYTES ∧ w.queue.fileChanges ≤ MAX_FILE_CHANGES) ∧
    (w.underflow = false ∧ w.stuck = false) ∧
    (∀ id text, w.accepted[id]? = some (.line text) → (writtenIds w.log).count id + (noticedIds w.log).count id + (pendingIds w).count id = 1) ∧
    (writtenIds w.log).Pairwise (· < ·) ∧
    (∀ id text file, .line id text file ∈ w.log → w.accepted[id]? = some (.line text) ∧ file = fileBefore start w.accepted id) ∧
    (∀ dropped lost file, .notice dropped lost file ∈ w.log → lost ≠ [] ∧ dropped = min u64Max lost.length) ∧
    (w.queue.closing = true → ∃ count w', follow step w (List.replicate count .work) = some w' ∧ w'.queue.finished = true) ∧
    (w.queue.finished = true → pendingIds w = [] ∧ ∀ handle, (start = some handle ∨ .file handle ∈ w.accepted) → handle ∈ w.closed) := by
  have balanced := balanced_run run
  have stocked := balanced.stocked
  refine ⟨⟨stocked.lines,stocked.bytes,stocked.changes,stocked.fewLines,stocked.fewBytes,stocked.fewChanges⟩,balanced.sound,?_,?_,balanced.written,
    balanced.notices,closing_finishes balanced (published_run run),?_⟩
  · intro id text known
    have balance := balanced.balance id
    have one : lineAt w.accepted id = 1 := by simp [lineAt,known]
    simp only [pendingIds,List.count_append]
    omega
  · exact (List.pairwise_append.mp balanced.order).1
  · intro done
    have ended := balanced.finished done
    have admitted := balanced.admitted
    have gone := balanced.gone
    obtain ⟨commands,_,lost,_⟩ := balanced.leaving (by rw [ended]; rfl)
    rw [ended] at admitted gone
    constructor
    · unfold pendingIds
      rw [ended,lost,commands]
      rfl
    · intro handle known
      rcases admitted handle known with closed | used | waiting
      · exact closed
      · rw [gone rfl] at used
        cases used
      · rw [commands] at waiting
        cases waiting

def twoLines : List Action := [.enqueue [104,105,10],.replaceFile 2,.enqueue [33,10],.sealQueue] ++ List.replicate 20 .work

/-- Two lines, with a change of the file between them. -/
theorem two_lines_written : ∃ w, Run step (spawn (some 1)) twoLines w ∧ w.queue.finished = true ∧ pendingIds w = [] ∧ 1 ∈ w.closed ∧ 2 ∈ w.closed ∧
    (writtenIds w.log).count 2 + (noticedIds w.log).count 2 + (pendingIds w).count 2 = 1 := by
  have finishes : (follow step (spawn (some 1)) twoLines).any (fun w => w.queue.finished ∧ w.accepted = [.line [104,105,10],.file 2,.line [33,10]]) = true := by
    decide
  obtain ⟨w,followed,finished,accepted⟩ : ∃ w, follow step (spawn (some 1)) twoLines = some w ∧
      w.queue.finished = true ∧ w.accepted = [.line [104,105,10],.file 2,.line [33,10]] := by
    cases followed : follow step (spawn (some 1)) twoLines with
    | none =>
      rw [followed] at finishes
      cases finishes
    | some w =>
      rw [followed] at finishes
      exact ⟨w,rfl,by simpa using finishes⟩
  obtain ⟨_,_,once,_,_,_,_,ends⟩ := lines_written_or_told (Run.of_follow followed)
  obtain ⟨pending,closed⟩ := ends finished
  exact ⟨w,Run.of_follow followed,finished,pending,closed 1 (.inl rfl),closed 2 (.inr (by rw [accepted]; decide)),once 2 [33,10] (by rw [accepted]; rfl)⟩

end NodeAgent.LogWriter
