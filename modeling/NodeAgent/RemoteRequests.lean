import NodeAgent.RemoteController
import NodeAgent.StreamGroups
import NodeAgent.TopologyDigest

/-!
The stream of remote requests. Every request that the panel sends is handled by a task of its own,
at most sixteen of them over all streams, and the tasks of a stream put their responses into one
bounded queue. Whatever the controller, the topology and the panel can answer to a task is an answer
here. The tasks, the loops that read requests and the panel take steps in any order.
-/
namespace NodeAgent.RemoteRequests
open NodeAgent.Transition NodeAgent.TopologyDigest
open NodeAgent.RemoteController (RemoteControlState ReloadProgressStage ReloadSingBoxResult RemoteReloadResult u32Max reloadResult deadlineResult unixMillis)
open NodeAgent.StreamGroups (SessionError)
open NodeAgent.Topology (UserCredential)
open NodeAgent.Credential (Bytes)

def REMOTE_RESPONSE_QUEUE_SIZE : ℕ := 64
def MAX_CONCURRENT_REMOTE_REQUESTS : ℕ := 16
def REMOTE_CONFIG_CHUNK_SIZE : ℕ := 65536
def DEFAULT_LOADED_USERS_PAGE_SIZE : ℕ := 100
def MAX_LOADED_USERS_PAGE_SIZE : ℕ := 500

/-! ### Messages -/

inductive Command
  | status
  | reloadSingBox
  | loadedUsers (page pageSize : ℕ)
  | syncUsers
  | singBoxConfig
  | periodicUserPull (enabled : Bool) (intervalMinutes : ℕ)
deriving DecidableEq

structure RemoteControlRequest where
  requestId : String
  command : Option Command
deriving DecidableEq

inductive RemoteControlResponseStatus
  | progress
  | completed
  | failed
deriving DecidableEq

structure SingBoxConfigChunk where
  sequence : ℕ
  data : Bytes
  eof : Bool
  totalBytes : ℕ
  sha256 : String
deriving DecidableEq

structure LoadedUsersPage where
  users : List Topology.Pb.UserCredential
  page : ℕ
  pageSize : ℕ
  totalSize : ℕ
deriving DecidableEq

structure SyncUsersResult where
  addedCount : ℕ
  updatedCount : ℕ
  deletedCount : ℕ
  applied : Bool
  loadedUserCount : ℕ
  completedAtUnixMilli : ℤ
deriving DecidableEq

inductive Payload
  | controlState (state : RemoteControlState)
  | reloadResult (result : ReloadSingBoxResult)
  | loadedUsers (page : LoadedUsersPage)
  | singBoxConfig (chunk : SingBoxConfigChunk)
  | syncUsersResult (result : SyncUsersResult)
deriving DecidableEq

structure RemoteControlResponse where
  requestId : String
  status : RemoteControlResponseStatus
  stage : String
  message : String
  payload : Option Payload
deriving DecidableEq

def response (status : RemoteControlResponseStatus) (stage message : String) (payload : Option Payload) : RemoteControlResponse :=
  ⟨"",status,stage,message,payload⟩

def failure (stage message : String) : RemoteControlResponse := response .failed stage message none

/-! ### Handlers -/

def remoteUserCredential (user : UserCredential) : Topology.Pb.UserCredential where
  userId := user.userId
  name := user.name
  credential := user.credential
  status := if user.status = "disabled" then Topology.Pb.UserStatus.asI32 .disabled else Topology.Pb.UserStatus.asI32 .active
  uploadSpeedLimitBps := user.uploadSpeedLimitBps
  downloadSpeedLimitBps := user.downloadSpeedLimitBps

/-- The users of a node from an offset on, and how many there are in all. -/
def loadedUsersPage (users : List UserCredential) (offset limit : ℕ) : ℕ × List UserCredential :=
  (users.length,(users.drop (min offset users.length)).take limit)

def handleLoadedUsers (users : Except String (List UserCredential)) (requestedPage requestedPageSize : ℕ) : RemoteControlResponse :=
  let page := max requestedPage 1
  let pageSize := if 1 ≤ requestedPageSize ∧ requestedPageSize ≤ MAX_LOADED_USERS_PAGE_SIZE then requestedPageSize else DEFAULT_LOADED_USERS_PAGE_SIZE
  let offset := min ((page - 1) * pageSize) 18446744073709551615
  match users with
  | .error error => failure "loaded_users" error
  | .ok users =>
    let (total,users) := loadedUsersPage users offset pageSize
    response .completed "" "loaded users returned" (some (.loadedUsers ⟨users.map remoteUserCredential,page,pageSize,total % 4294967296⟩))

/-- The pieces of `config.chunks(REMOTE_CONFIG_CHUNK_SIZE)`. -/
def configChunks (config : Bytes) : List Bytes :=
  (List.range ((config.length + (REMOTE_CONFIG_CHUNK_SIZE - 1)) / REMOTE_CONFIG_CHUNK_SIZE)).map
    (fun i => (config.drop (i * REMOTE_CONFIG_CHUNK_SIZE)).take REMOTE_CONFIG_CHUNK_SIZE)

/-- Chunks with their numbers from one on, and the number after the last. -/
def chunkResponses : ℕ → List Bytes → List RemoteControlResponse × ℕ
  | sequence, [] => ([],sequence)
  | sequence, chunk :: rest =>
    let (responses,next) := chunkResponses (min (sequence + 1) u32Max) rest
    (response .progress "sing_box_config" "" (some (.singBoxConfig ⟨sequence,chunk,false,0,""⟩)) :: responses,next)

def handleCurrentConfig (sha256 : Bytes → Bytes) (config : Bytes) : List RemoteControlResponse :=
  if config.isEmpty then [failure "sing_box_config" "sing-box runtime has no active configuration"]
  else
    let (responses,sequence) := chunkResponses 0 (configChunks config)
    responses ++ [response .completed "sing_box_config" "current sing-box configuration returned"
      (some (.singBoxConfig ⟨sequence,[],true,config.length,hexEncode (sha256 config)⟩))]

structure UserSyncChanges where
  added : ℕ
  updated : ℕ
  deleted : ℕ
  applied : Bool
deriving DecidableEq

/-- `deadline_result`, of changes of users. -/
def syncDeadlineResult (result : Except String UserSyncChanges) : Except String UserSyncChanges :=
  match result with
  | .error error => if error = "context canceled" then .error "context deadline exceeded" else .error error
  | .ok changes => .ok changes

def syncUsersResponse (changes : UserSyncChanges) (users : Except String (List UserCredential)) (completedAt : ℤ) : RemoteControlResponse :=
  match users with
  | .error error => failure "sync_users" error
  | .ok users => response .completed "sync_users" "node users synchronized from panel" (some (.syncUsersResult
      ⟨changes.added % 4294967296,changes.updated % 4294967296,changes.deleted % 4294967296,changes.applied,users.length % 4294967296,
        unixMillis (some completedAt)⟩))

def busyReload (operationId : String) (completedAt : ℤ) : RemoteControlResponse :=
  let result : ReloadSingBoxResult :=
    ⟨operationId,.rejectedBusy,"busy","another sing-box reload is already running",0,"",0,0,unixMillis (some completedAt)⟩
  response .failed "busy" result.message (some (.reloadResult result))

def reloaded (result : ReloadSingBoxResult) : RemoteControlResponse := response .completed result.stage result.message (some (.reloadResult result))

/-- Where a task is, with the responses that it sends next. -/
inductive Phase
  | handling
  | sending (responses : List RemoteControlResponse)
  | reloading
  | reporting (stage : ReloadProgressStage)
  | syncing
  | synced (changes : UserSyncChanges)
  | returned
  /-- The permit is released. -/
  | ended
deriving DecidableEq

def Phase.isOver : Phase → Bool
  | .returned | .ended => true
  | _ => false

/-- What a task is told by the controller, the topology, the fetcher and the runtime. -/
inductive Answer
  | nothing
  | state (state : RemoteControlState)
  | users (users : Except String (List UserCredential)) (now : ℤ)
  | lease (granted : Bool) (now : ℤ)
  | progress (stage : ReloadProgressStage)
  | reloaded (late : Bool) (stage : String) (backend : Except String RemoteReloadResult) (durationMillis completedAt : ℤ)
  | synced (late : Bool) (result : Except String UserSyncChanges)

/-- `handle_remote_control_request` up to the next response. -/
def handle (sha256 : Bytes → Bytes) (config : Bytes) (request : RemoteControlRequest) : Phase → Answer → Option Phase
  | .handling, answer =>
    match request.command, answer with
    | some .status, .state state => some (.sending [response .completed "" "remote control state loaded" (some (.controlState state))])
    | some .reloadSingBox, .lease granted now => some (if granted then .reloading else .sending [busyReload request.requestId now])
    | some (.loadedUsers page pageSize), .users users _ => some (.sending [handleLoadedUsers users page pageSize])
    | some .syncUsers, .nothing => some .syncing
    | some .singBoxConfig, .nothing => some (.sending (handleCurrentConfig sha256 config))
    | some (.periodicUserPull enabled minutes), .nothing =>
      if enabled ∧ ¬ (1 ≤ minutes ∧ minutes ≤ 60) then some (.sending [failure "periodic_user_pull" "interval_minutes must be between 1 and 60"]) else none
    | some (.periodicUserPull enabled minutes), .state state =>
      if enabled ∧ ¬ (1 ≤ minutes ∧ minutes ≤ 60) then none
      else some (.sending [response .completed "" "periodic user pull setting updated" (some (.controlState state))])
    | none, .nothing => some (.sending [failure "request" "remote control command is required"])
    | _, _ => none
  | .reloading, .progress stage => some (.reporting stage)
  | .reloading, .reloaded late stage backend durationMillis completedAt =>
    some (.sending [reloaded (reloadResult request.requestId stage (if late then deadlineResult backend else backend) durationMillis completedAt)])
  | .syncing, .synced late result =>
    match if late then syncDeadlineResult result else result with
    | .error error => some (.sending [failure "sync_users" error])
    | .ok changes => some (.synced changes)
  | .synced changes, .users users now => some (.sending [syncUsersResponse changes users now])
  | _, _ => none

/-- What is said to a request when nothing is lost: any number of responses with progress, and a last one. -/
def Talk (responses : List RemoteControlResponse) : Prop :=
  ∃ steps last, responses = steps ++ [last] ∧ (∀ response ∈ steps, response.status = .progress) ∧ last.status ≠ .progress

section Handlers
variable {sha256 : Bytes → Bytes} {config : Bytes} {request : RemoteControlRequest} {phase phase' : Phase} {answer : Answer}

theorem talk_once {response : RemoteControlResponse} (final : response.status ≠ .progress) : Talk [response] :=
  ⟨[],response,rfl,fun _ member => absurd member List.not_mem_nil,final⟩

theorem chunkResponses_progress (sequence : ℕ) (chunks : List Bytes) : ∀ response ∈ (chunkResponses sequence chunks).1, response.status = .progress := by
  induction chunks generalizing sequence with
  | nil => exact fun _ member => absurd member List.not_mem_nil
  | cons chunk rest ih =>
    intro response member
    rcases List.mem_cons.mp member with rfl | later
    · rfl
    · exact ih _ response later

/-- The chunks by number, without evaluating how many they are. -/
theorem handleCurrentConfig_eq (filled : config.isEmpty = false) : handleCurrentConfig sha256 config =
    (chunkResponses 0 (configChunks config)).1 ++ [response .completed "sing_box_config" "current sing-box configuration returned"
      (some (.singBoxConfig ⟨(chunkResponses 0 (configChunks config)).2,[],true,config.length,hexEncode (sha256 config)⟩))] := by
  unfold handleCurrentConfig
  generalize chunkResponses 0 (configChunks config) = numbered
  obtain ⟨responses,sequence⟩ := numbered
  rw [if_neg (Bool.eq_false_iff.mp filled)]

theorem handleCurrentConfig_talk (sha256 : Bytes → Bytes) (config : Bytes) : Talk (handleCurrentConfig sha256 config) := by
  cases empty : config.isEmpty with
  | true =>
    rw [handleCurrentConfig,empty,if_pos rfl]
    exact talk_once (fun impossible => by cases impossible)
  | false =>
    rw [handleCurrentConfig_eq empty]
    exact ⟨_,_,rfl,chunkResponses_progress 0 _,fun impossible => by cases impossible⟩

theorem handleLoadedUsers_final (users : Except String (List UserCredential)) (page pageSize : ℕ) :
    (handleLoadedUsers users page pageSize).status ≠ .progress := by
  cases users <;> exact fun impossible => by cases impossible

theorem syncUsersResponse_final (changes : UserSyncChanges) (users : Except String (List UserCredential)) (completedAt : ℤ) :
    (syncUsersResponse changes users completedAt).status ≠ .progress := by
  cases users <;> exact fun impossible => by cases impossible

/-- What a handler does next. A request for the configuration is answered by what is read of it once. -/
inductive Handled (sha256 : Bytes → Bytes) (config : Bytes) (request : RemoteControlRequest) : Phase → Phase → Prop
  | answers {responses : List RemoteControlResponse} (talk : Talk responses)
      (reads : request.command = some .singBoxConfig → responses = handleCurrentConfig sha256 config) : Handled sha256 config request .handling (.sending responses)
  | reloads (command : request.command = some .reloadSingBox) : Handled sha256 config request .handling .reloading
  | syncs (command : request.command = some .syncUsers) : Handled sha256 config request .handling .syncing
  | reports (stage : ReloadProgressStage) : Handled sha256 config request .reloading (.reporting stage)
  | changes (changes : UserSyncChanges) : Handled sha256 config request .syncing (.synced changes)
  | concludes {phase : Phase} {response : RemoteControlResponse} (begun : phase = .reloading ∨ phase = .syncing ∨ ∃ changes, phase = .synced changes)
      (final : response.status ≠ .progress) : Handled sha256 config request phase (.sending [response])

theorem handle_handled : handle sha256 config request phase answer = some phase' → Handled sha256 config request phase phase' := by
  have other {response : RemoteControlResponse} {command : Option Command} (own : request.command = command) (unlike : command ≠ some .singBoxConfig)
      (final : response.status ≠ .progress) : Handled sha256 config request .handling (.sending [response]) :=
    .answers (talk_once final) (fun same => absurd (own.symm.trans same) unlike)
  fun_cases handle sha256 config request phase answer with
  | case1 state own =>
    rintro ⟨⟩
    exact other own (by decide) (fun impossible => by cases impossible)
  | case2 granted now own =>
    rintro ⟨⟩
    cases granted with
    | true => exact .reloads own
    | false => exact other own (by decide) (fun impossible => by cases impossible)
  | case3 page pageSize users now own =>
    rintro ⟨⟩
    exact other own (fun impossible => by cases impossible) (handleLoadedUsers_final users page pageSize)
  | case4 own =>
    rintro ⟨⟩
    exact .syncs own
  | case5 own =>
    rintro ⟨⟩
    exact .answers (handleCurrentConfig_talk sha256 config) (fun _ => rfl)
  | case6 enabled minutes own invalid =>
    rintro ⟨⟩
    exact other own (fun impossible => by cases impossible) (fun impossible => by cases impossible)
  | case9 enabled minutes state own valid =>
    rintro ⟨⟩
    exact other own (fun impossible => by cases impossible) (fun impossible => by cases impossible)
  | case10 own =>
    rintro ⟨⟩
    exact other own (fun impossible => by cases impossible) (fun impossible => by cases impossible)
  | case12 stage =>
    rintro ⟨⟩
    exact .reports stage
  | case13 late stage backend durationMillis completedAt =>
    rintro ⟨⟩
    exact .concludes (.inl rfl) (fun impossible => by cases impossible)
  | case14 late result error failed =>
    rintro ⟨⟩
    exact .concludes (.inr (.inl rfl)) (fun impossible => by cases impossible)
  | case15 late result changes done =>
    rintro ⟨⟩
    exact .changes changes
  | case16 changes users now =>
    rintro ⟨⟩
    exact .concludes (.inr (.inr ⟨changes,rfl⟩)) (syncUsersResponse_final changes users now)
  | _ => rintro ⟨⟩

theorem Handled.running (handled : Handled sha256 config request phase phase') : phase.isOver = false ∧ phase'.isOver = false := by
  cases handled with
  | concludes begun _ => rcases begun with rfl | rfl | ⟨_,rfl⟩ <;> exact ⟨rfl,rfl⟩
  | _ => exact ⟨rfl,rfl⟩

theorem Phase.running (running : phase.isOver = false) : phase ≠ .ended := by
  rintro rfl
  cases running

end Handlers

/-! ### Streams and tasks -/

/-- A spawned `handle_remote_control_request` with its permit. `sent` keeps what it has put into the queue. -/
structure RequestTask where
  stream : ℕ
  request : RemoteControlRequest
  phase : Phase
  crashed : Bool
  sent : List RemoteControlResponse
deriving DecidableEq

inductive StreamPhase
  | reading
  | retiring (outcome : Except SessionError Unit)
  | returned (outcome : Except SessionError Unit)
  | aborted
deriving DecidableEq

/-- One generation of the stream. `taken` are the responses that the panel has read, `admitted` the requests that were read,
    with their tasks: neither is read by the stream. -/
structure Stream where
  shutdown : Bool
  cancelled : Bool
  /-- The panel no longer takes responses. -/
  closed : Bool
  queue : List RemoteControlResponse
  taken : List RemoteControlResponse
  admitted : List (String × Option ℕ)
  phase : StreamPhase
deriving DecidableEq

def Stream.isCancelled (stream : Stream) : Bool := stream.shutdown || stream.cancelled

/-- `request_slots` of the controller, the configuration of the runtime and the ones it had, all streams and all tasks. -/
structure World where
  slots : ℕ
  configs : List Bytes
  config : Bytes
  streams : List Stream
  tasks : List RequestTask

def initial : World := ⟨MAX_CONCURRENT_REMOTE_REQUESTS,[[]],[],[],[]⟩

inductive Action
  | configure (config : Bytes)
  | openStream
  | shutdown (stream : ℕ)
  | receive (stream : ℕ) (request : RemoteControlRequest)
  /-- `requests.message()` has no request. -/
  | endRequests (stream : ℕ) (error : Option SessionError)
  | close (stream : ℕ)
  | retire (stream : ℕ)
  | return (stream : ℕ)
  | abort (stream : ℕ)
  | take (stream : ℕ)
  | answer (task : ℕ) (answer : Answer)
  | send (task : ℕ)
  | giveUp (task : ℕ)
  | timeOut (task : ℕ)
  | finish (task : ℕ)
  | crash (task : ℕ)

def responseStreamClosed : SessionError := .rpc .unavailable "remote control response stream closed"

def rejection (requestId : String) : RemoteControlResponse :=
  { failure "busy" "too many remote control requests are running; retry later" with requestId := requestId }

/-- `reject_busy_request`. -/
def rejectBusyRequest (stream : Stream) (requestId : String) : Except SessionError (List RemoteControlResponse) :=
  if stream.closed then .error responseStreamClosed
  else if stream.queue.length < REMOTE_RESPONSE_QUEUE_SIZE then .ok (stream.queue ++ [rejection requestId])
  else .error (.rpc .resourceExhausted "remote control response queue is full; cannot reject excess request")

/-- The loop has an outcome, and cancels the tasks of its stream. -/
def Stream.retire (stream : Stream) (outcome : Except SessionError Unit) : Stream := { stream with phase := .retiring outcome, cancelled := true }

def World.setStream (w : World) (id : ℕ) (stream : Stream) : World := { w with streams := w.streams.set id stream }

def World.setTask (w : World) (id : ℕ) (task : RequestTask) : World := { w with tasks := w.tasks.set id task }

/-- The loop of a stream has read a request. -/
def receive (w : World) (id : ℕ) (stream : Stream) (request : RemoteControlRequest) : World :=
  if request.requestId = "" then w
  else if 0 < w.slots then
    { w.setStream id { stream with admitted := stream.admitted ++ [(request.requestId,some w.tasks.length)] } with
      slots := w.slots - 1
      tasks := w.tasks ++ [⟨id,request,.handling,false,[]⟩] }
  else
    let stream := { stream with admitted := stream.admitted ++ [(request.requestId,none)] }
    match rejectBusyRequest stream request.requestId with
    | .error error => w.setStream id (stream.retire (.error error))
    | .ok queue => w.setStream id { stream with queue := queue }

def streamStep (w : World) (id : ℕ) (stream : Stream) : Action → Option World
  | .shutdown _ => some (w.setStream id { stream with shutdown := true })
  | .receive _ request => if stream.phase = .reading ∧ stream.isCancelled = false then some (receive w id stream request) else none
  | .endRequests _ none =>
    if stream.phase = .reading ∧ stream.isCancelled = false then
      some (w.setStream id (stream.retire (.error (.rpc .unavailable "remote control stream closed by panel"))))
    else none
  | .endRequests _ (some error) =>
    if stream.phase = .reading ∧ stream.cancelled = false then
      some (w.setStream id (stream.retire (if stream.shutdown then .ok () else .error error)))
    else none
  | .close _ => some (w.setStream id { stream with closed := true })
  | .retire _ =>
    if stream.phase ≠ .reading then none
    else if stream.shutdown then some (w.setStream id (stream.retire (.ok ())))
    else if stream.cancelled ∨ stream.closed then some (w.setStream id (stream.retire (.error responseStreamClosed)))
    else none
  | .return _ =>
    match stream.phase with
    | .retiring outcome => some (w.setStream id { stream with phase := .returned outcome })
    | _ => none
  | .abort _ =>
    match stream.phase with
    | .reading | .retiring _ => some (w.setStream id { stream with phase := .aborted, cancelled := true })
    | _ => none
  | .take _ =>
    match stream.queue with
    | [] => none
    | response :: rest => if stream.closed then none else some (w.setStream id { stream with queue := rest, taken := stream.taken ++ [response] })
  | _ => none

/-- After a response was sent, or not. A task that sends a list stops at the first one that was not sent. -/
def afterResponse (sent : Bool) : Phase → Phase
  | .sending (_ :: next :: rest) => if sent then .sending (next :: rest) else .returned
  | .reporting _ => .reloading
  | _ => .returned

def awaited : Phase → Option RemoteControlResponse
  | .sending (response :: _) => some response
  | .reporting stage => some (response .progress stage.asStr stage.asStr none)
  | _ => none

def taskStep (sha256 : Bytes → Bytes) (w : World) (id : ℕ) (task : RequestTask) (stream : Stream) : Action → Option World
  | .answer _ answer => (handle sha256 w.config task.request task.phase answer).map (fun phase => w.setTask id { task with phase := phase })
  | .send _ =>
    match awaited task.phase with
    | none => none
    | some response =>
      if stream.closed = false ∧ stream.queue.length < REMOTE_RESPONSE_QUEUE_SIZE then
        let response := { response with requestId := task.request.requestId }
        some ((w.setTask id { task with phase := afterResponse true task.phase, sent := task.sent ++ [response] }).setStream task.stream
          { stream with queue := stream.queue ++ [response] })
      else none
  | .giveUp _ =>
    match awaited task.phase with
    | none => if task.phase = .syncing ∧ stream.isCancelled then some (w.setTask id { task with phase := .returned }) else none
    | some _ => if stream.isCancelled ∨ stream.closed then some (w.setTask id { task with phase := afterResponse false task.phase }) else none
  | .timeOut _ =>
    match task.phase with
    | .reporting _ => some ((w.setTask id { task with phase := .reloading }).setStream task.stream { stream with cancelled := true })
    | _ => none
  | .finish _ => if task.phase = .returned then some { w.setTask id { task with phase := .ended } with slots := w.slots + 1 } else none
  | .crash _ => if task.phase.isOver then none else some (w.setTask id { task with phase := .returned, crashed := true })
  | _ => none

def step (sha256 : Bytes → Bytes) (w : World) (action : Action) : Option World :=
  match action with
  | .configure config => some { w with configs := w.configs ++ [config], config := config }
  | .openStream => some { w with streams := w.streams ++ [⟨false,false,false,[],[],[],.reading⟩] }
  | .shutdown id | .receive id _ | .endRequests id _ | .close id | .retire id | .return id | .abort id | .take id =>
    w.streams[id]?.bind (fun stream => streamStep w id stream action)
  | .answer id _ | .send id | .giveUp id | .timeOut id | .finish id | .crash id =>
    w.tasks[id]?.bind (fun task => w.streams[task.stream]?.bind (fun stream => taskStep sha256 w id task stream action))

/-! ### Steps -/

section Steps
variable {sha256 : Bytes → Bytes} {w w' : World} {stream stream' : Stream} {task : RequestTask} {action : Action} {id : ℕ}

/-- The responses of a stream, those that the panel has read first. -/
def Stream.responses (stream : Stream) : List RemoteControlResponse := stream.taken ++ stream.queue

/-- Nothing more reaches the panel for certain. -/
def Stream.Lost (stream : Stream) : Prop := stream.isCancelled = true ∨ stream.closed = true

/-- What a step of a stream that admits no request leaves as it is. -/
structure Keeps (stream stream' : Stream) : Prop where
  admitted : stream'.admitted = stream.admitted
  responses : stream'.responses = stream.responses
  room : stream'.queue.length ≤ stream.queue.length
  lost : stream.Lost → stream'.Lost
  ends : stream.phase ≠ .reading → stream'.phase ≠ .reading

/-- A step that puts at most one response at the end of the queue. -/
inductive StreamMove (w : World) (id : ℕ) (stream : Stream) : World → Prop
  | keeps {stream' : Stream} (keeps : Keeps stream stream') : StreamMove w id stream (w.setStream id stream')
  | ignores : StreamMove w id stream w
  | admits (request : RemoteControlRequest) (free : 0 < w.slots) :
      StreamMove w id stream { w.setStream id { stream with admitted := stream.admitted ++ [(request.requestId,some w.tasks.length)] } with
        slots := w.slots - 1, tasks := w.tasks ++ [⟨id,request,.handling,false,[]⟩] }
  | rejects (requestId : String) (busy : w.slots = 0) (room : stream.queue.length < REMOTE_RESPONSE_QUEUE_SIZE) :
      StreamMove w id stream (w.setStream id { stream with admitted := stream.admitted ++ [(requestId,none)], queue := stream.queue ++ [rejection requestId] })
  | retires (requestId : String) (error : SessionError) (busy : w.slots = 0) :
      StreamMove w id stream (w.setStream id (Stream.retire { stream with admitted := stream.admitted ++ [(requestId,none)] } (.error error)))

theorem Stream.retire_lost (stream : Stream) (outcome : Except SessionError Unit) : (stream.retire outcome).Lost :=
  .inl (Bool.or_true _)

theorem keeps_retire (stream : Stream) (outcome : Except SessionError Unit) : Keeps stream (stream.retire outcome) :=
  ⟨rfl,rfl,Nat.le_refl _,fun _ => stream.retire_lost outcome,fun _ reading => by cases reading⟩

theorem receive_move (w : World) (id : ℕ) (stream : Stream) (request : RemoteControlRequest) : StreamMove w id stream (receive w id stream request) := by
  unfold receive
  split
  · exact .ignores
  · split
    · next free => exact .admits request free
    · next busy =>
      have busy : w.slots = 0 := Nat.eq_zero_of_not_pos busy
      dsimp only
      split
      · next error _ => exact .retires _ error busy
      · next queue done =>
        unfold rejectBusyRequest at done
        split at done
        · cases done
        · split at done
          · next room =>
            cases done
            exact .rejects _ busy room
          · cases done

theorem streamStep_move (taken : streamStep w id stream action = some w') : StreamMove w id stream w' := by
  cases action with
  | shutdown =>
    cases taken
    exact .keeps ⟨rfl,rfl,Nat.le_refl _,fun _ => .inl (Bool.true_or _),fun ends => ends⟩
  | receive _ request =>
    rw [streamStep] at taken
    split at taken
    · cases taken
      exact receive_move w id stream request
    · cases taken
  | endRequests _ error =>
    cases error with
    | none =>
      rw [streamStep] at taken
      split at taken
      · cases taken
        exact .keeps (keeps_retire _ _)
      · cases taken
    | some error =>
      rw [streamStep] at taken
      split at taken
      · cases taken
        exact .keeps (keeps_retire _ _)
      · cases taken
  | close =>
    cases taken
    exact .keeps ⟨rfl,rfl,Nat.le_refl _,fun _ => .inr rfl,fun ends => ends⟩
  | retire =>
    rw [streamStep] at taken
    split at taken
    · cases taken
    · split at taken
      · cases taken
        exact .keeps (keeps_retire _ _)
      · split at taken
        · cases taken
          exact .keeps (keeps_retire _ _)
        · cases taken
  | «return» =>
    rw [streamStep] at taken
    split at taken
    · cases taken
      exact .keeps ⟨rfl,rfl,Nat.le_refl _,fun lost => lost,fun _ reading => by cases reading⟩
    · cases taken
  | abort =>
    rw [streamStep] at taken
    split at taken
    · cases taken
      exact .keeps ⟨rfl,rfl,Nat.le_refl _,fun _ => .inl (Bool.or_true _),fun _ reading => by cases reading⟩
    · cases taken
      exact .keeps ⟨rfl,rfl,Nat.le_refl _,fun _ => .inl (Bool.or_true _),fun _ reading => by cases reading⟩
    · cases taken
  | take =>
    rw [streamStep] at taken
    split at taken
    · cases taken
    · next response rest queued =>
      split at taken
      · cases taken
      · cases taken
        refine .keeps ⟨rfl,?_,?_,fun lost => lost,fun ends => ends⟩
        · simp [Stream.responses,queued]
        · simp [queued]
  | _ => cases taken

/-- A step of a task changes the task, and puts at most one response at the end of the queue of its stream. -/
inductive TaskMove (sha256 : Bytes → Bytes) (w : World) (id : ℕ) (task : RequestTask) (stream : Stream) : World → Prop
  | answered {phase : Phase} {answer : Answer} (done : handle sha256 w.config task.request task.phase answer = some phase) :
      TaskMove sha256 w id task stream (w.setTask id { task with phase := phase })
  | sent (response : RemoteControlResponse) (waiting : awaited task.phase = some response) (room : stream.queue.length < REMOTE_RESPONSE_QUEUE_SIZE) :
      TaskMove sha256 w id task stream ((w.setTask id { task with
          phase := afterResponse true task.phase, sent := task.sent ++ [{ response with requestId := task.request.requestId }] }).setStream task.stream
        { stream with queue := stream.queue ++ [{ response with requestId := task.request.requestId }] })
  | stopped (syncing : task.phase = .syncing) (lost : stream.Lost) : TaskMove sha256 w id task stream (w.setTask id { task with phase := .returned })
  | unsent (response : RemoteControlResponse) (waiting : awaited task.phase = some response) (lost : stream.Lost) :
      TaskMove sha256 w id task stream (w.setTask id { task with phase := afterResponse false task.phase })
  | late (stage : ReloadProgressStage) (waiting : task.phase = .reporting stage) :
      TaskMove sha256 w id task stream ((w.setTask id { task with phase := .reloading }).setStream task.stream { stream with cancelled := true })
  | finished (returned : task.phase = .returned) : TaskMove sha256 w id task stream { w.setTask id { task with phase := .ended } with slots := w.slots + 1 }
  | crashed (running : task.phase.isOver = false) :
      TaskMove sha256 w id task stream (w.setTask id { task with phase := .returned, crashed := true })

theorem taskStep_move (taken : taskStep sha256 w id task stream action = some w') : TaskMove sha256 w id task stream w' := by
  cases action with
  | answer _ answer =>
    obtain ⟨phase,done,rfl⟩ := Option.map_eq_some_iff.mp taken
    exact .answered done
  | send =>
    rw [taskStep] at taken
    split at taken
    · cases taken
    · next response waiting =>
      split at taken
      · next room =>
        cases taken
        exact .sent response waiting room.2
      · cases taken
  | giveUp =>
    rw [taskStep] at taken
    split at taken
    · split at taken
      · next stops =>
        cases taken
        exact .stopped stops.1 (.inl stops.2)
      · cases taken
    · next response waiting =>
      split at taken
      · next lost =>
        cases taken
        exact .unsent response waiting lost
      · cases taken
  | timeOut =>
    rw [taskStep] at taken
    split at taken
    · next stage waiting =>
      cases taken
      exact .late stage waiting
    · cases taken
  | finish =>
    rw [taskStep] at taken
    split at taken
    · next returned =>
      cases taken
      exact .finished returned
    · cases taken
  | crash =>
    rw [taskStep] at taken
    split at taken
    · cases taken
    · next running =>
      cases taken
      exact .crashed (Bool.eq_false_iff.mpr running)
  | _ => cases taken

end Steps

/-! ### Admissions -/

section Admissions
variable {sha256 : Bytes → Bytes} {w w' : World} {stream stream' : Stream} {streams : List Stream} {task task' : RequestTask} {tasks : List RequestTask}
  {id i : ℕ}

theorem set_all {α : Type} {xs : List α} {a : α} {P : ℕ → α → Prop} (others : ∀ j x, j ≠ i → xs[j]? = some x → P j x) (own : P i a) :
    ∀ j x, (xs.set i a)[j]? = some x → P j x := by
  intro j x there
  by_cases same : i = j
  · subst same
    rw [List.getElem?_set_self' ] at there
    obtain ⟨_,_,rfl⟩ := Option.map_eq_some_iff.mp there
    exact own
  · rw [List.getElem?_set_ne same] at there
    exact others j x (Ne.symm same) there

theorem mem_set_all {α : Type} {xs : List α} {a : α} {P : α → Prop} (all : ∀ x ∈ xs, P x) (own : P a) : ∀ x ∈ xs.set i a, P x := by
  intro x member
  rcases List.mem_or_eq_of_mem_set member with old | rfl
  · exact all x old
  · exact own

theorem append_cases {α : Type} {xs : List α} {a x : α} (there : (xs ++ [a])[i]? = some x) : xs[i]? = some x ∨ i = xs.length ∧ x = a := by
  rcases Nat.lt_or_ge i xs.length with within | beyond
  · exact .inl (by rwa [List.getElem?_append_left within] at there)
  · rw [List.getElem?_append_right beyond,List.getElem?_singleton] at there
    split at there
    · next last => exact .inr ⟨by omega,(Option.some.inj there).symm⟩
    · cases there

def Stream.answersTo (stream : Stream) (requestId : String) : List RemoteControlResponse :=
  stream.responses.filter (fun response => response.requestId = requestId)

/-- The panel has used an identifier for one request only. -/
def UsedOnce (admitted : List (String × Option ℕ)) (requestId : String) : Prop := (admitted.map Prod.fst).count requestId = 1

theorem UsedOnce.alone {admitted : List (String × Option ℕ)} {admission other : String × Option ℕ} (once : UsedOnce admitted admission.1)
    (member : admission ∈ admitted) (among : other ∈ admitted) (same : other.1 = admission.1) : other = admission := by
  rw [UsedOnce,List.count,List.countP_map,List.countP_eq_length_filter] at once
  obtain ⟨only,single⟩ := List.length_eq_one_iff.mp once
  have found {x : String × Option ℕ} (listed : x ∈ admitted) (named : x.1 = admission.1) : x = only :=
    List.mem_singleton.mp (single ▸ List.mem_filter.mpr ⟨listed,by simpa using named⟩)
  exact (found among same).trans (found member rfl).symm

theorem UsedOnce.before {admitted : List (String × Option ℕ)} {admission other : String × Option ℕ} (member : admission ∈ admitted)
    (once : UsedOnce (admitted ++ [other]) admission.1) : other.1 ≠ admission.1 ∧ UsedOnce admitted admission.1 := by
  have counted : 0 < (admitted.map Prod.fst).count admission.1 := List.count_pos_iff.mpr (List.mem_map_of_mem member)
  unfold UsedOnce at once ⊢
  rw [List.map_append,List.count_append,List.map_singleton,List.count_singleton] at once
  split at once
  · omega
  · next different => exact ⟨by simpa using different,by omega⟩

theorem UsedOnce.fresh {admitted : List (String × Option ℕ)} {admission : String × Option ℕ} (once : UsedOnce (admitted ++ [admission]) admission.1) :
    admission.1 ∉ admitted.map Prod.fst := by
  rw [UsedOnce,List.map_append,List.count_append,List.map_singleton,List.count_singleton_self] at once
  exact List.count_eq_zero.mp (by omega)

/-- What a stream has for the panel, request by request. An identifier that is used again gets the responses to all of its requests. -/
structure Accounts (tasks : List RequestTask) (id : ℕ) (stream : Stream) : Prop where
  handled : ∀ requestId t, (requestId,some t) ∈ stream.admitted →
    ∃ task, tasks[t]? = some task ∧ task.stream = id ∧ task.request.requestId = requestId ∧ task.sent.Sublist (stream.answersTo requestId) ∧
      (UsedOnce stream.admitted requestId → stream.answersTo requestId = task.sent)
  rejected : ∀ requestId, (requestId,none) ∈ stream.admitted → UsedOnce stream.admitted requestId →
    stream.answersTo requestId = [rejection requestId] ∨ stream.answersTo requestId = [] ∧ stream.phase ≠ .reading ∧ stream.Lost
  unknown : ∀ requestId, requestId ∉ stream.admitted.map Prod.fst → stream.answersTo requestId = []

theorem Accounts.keeps (accounts : Accounts tasks id stream) (keeps : Keeps stream stream') : Accounts tasks id stream' := by
  have same (requestId : String) : stream'.answersTo requestId = stream.answersTo requestId := by rw [Stream.answersTo,keeps.responses,Stream.answersTo]
  constructor
  · intro requestId t member
    rw [keeps.admitted] at member
    rw [same,keeps.admitted]
    exact accounts.handled requestId t member
  · intro requestId member once
    rw [keeps.admitted] at member once
    rw [same]
    exact (accounts.rejected requestId member once).imp_right (fun unanswered => ⟨unanswered.1,keeps.ends unanswered.2.1,keeps.lost unanswered.2.2⟩)
  · intro requestId absent
    rw [keeps.admitted] at absent
    rw [same]
    exact accounts.unknown requestId absent

/-- A task that goes on without a response. -/
structure Continues (task task' : RequestTask) : Prop where
  stream : task'.stream = task.stream
  request : task'.request = task.request
  sent : task'.sent = task.sent

theorem Accounts.goOn {tasks' : List RequestTask} (accounts : Accounts tasks id stream)
    (known : ∀ (t : ℕ) (task : RequestTask), tasks[t]? = some task → ∃ task', tasks'[t]? = some task' ∧ Continues task task') : Accounts tasks' id stream := by
  refine ⟨?_,accounts.rejected,accounts.unknown⟩
  intro requestId t member
  obtain ⟨task,there,own,named,answers⟩ := accounts.handled requestId t member
  obtain ⟨task',there',continues⟩ := known t task there
  exact ⟨task',there',continues.stream.trans own,by rw [continues.request,named],by rw [continues.sent]; exact answers⟩

theorem set_continues (known : tasks[i]? = some task) (continues : Continues task task') :
    ∀ (t : ℕ) (other : RequestTask), tasks[t]? = some other → ∃ other', (tasks.set i task')[t]? = some other' ∧ Continues other other' := by
  intro t other there
  by_cases same : i = t
  · subst same
    cases known.symm.trans there
    refine ⟨task',?_,continues⟩
    rw [List.getElem?_set_self',known]
    rfl
  · exact ⟨other,by rw [List.getElem?_set_ne same,there],rfl,rfl,rfl⟩

theorem append_continues : ∀ (t : ℕ) (other : RequestTask), tasks[t]? = some other → ∃ other', (tasks ++ [task])[t]? = some other' ∧ Continues other other' := by
  intro t other there
  obtain ⟨within,_⟩ := List.getElem?_eq_some_iff.mp there
  exact ⟨other,by rw [List.getElem?_append_left within,there],rfl,rfl,rfl⟩

/-- A response is accounted for under its request. -/
theorem answersTo_append {response : RemoteControlResponse} {requestId : String} :
    Stream.answersTo { stream with queue := stream.queue ++ [response] } requestId =
      stream.answersTo requestId ++ if response.requestId = requestId then [response] else [] := by
  unfold Stream.answersTo Stream.responses
  dsimp only
  rw [← List.append_assoc,List.filter_append]
  congr 1
  split
  · next own => rw [List.filter_cons_of_pos (by simpa using own),List.filter_nil]
  · next other => rw [List.filter_cons_of_neg (by simpa using other),List.filter_nil]

/-- A task of the stream sends a response. -/
theorem Accounts.send {response : RemoteControlResponse} (accounts : Accounts tasks task.stream stream) (known : tasks[i]? = some task)
    (owner : (task.request.requestId,some i) ∈ stream.admitted) (own : response.requestId = task.request.requestId)
    (same : task'.stream = task.stream ∧ task'.request = task.request) (sent : task'.sent = task.sent ++ [response]) :
    Accounts (tasks.set i task') task.stream { stream with queue := stream.queue ++ [response] } := by
  have alone {admission : String × Option ℕ} (member : admission ∈ stream.admitted) (once : UsedOnce stream.admitted admission.1)
      (named : response.requestId = admission.1) : admission = (task.request.requestId,some i) :=
    (once.alone member owner (own.symm.trans named)).symm
  constructor
  · intro requestId t member
    obtain ⟨other,there,owned,named,part,answers⟩ := accounts.handled requestId t member
    rw [answersTo_append]
    by_cases place : i = t
    · subst place
      cases known.symm.trans there
      refine ⟨task',?_,same.1,by rw [same.2,named],?_⟩
      · rw [List.getElem?_set_self',known]
        rfl
      · rw [if_pos (own.trans named),sent]
        exact ⟨part.append_right _,fun once => by rw [answers once]⟩
    · refine ⟨other,by rw [List.getElem?_set_ne place,there],owned,named,part.trans (List.sublist_append_left _ _),fun once => ?_⟩
      rw [if_neg,List.append_nil]
      · exact answers once
      · intro equal
        cases alone member once equal
        exact place rfl
  · intro requestId member once
    rw [answersTo_append,if_neg,List.append_nil]
    · exact accounts.rejected requestId member once
    · intro equal
      cases alone member once equal
  · intro requestId absent
    rw [answersTo_append,if_neg,List.append_nil]
    · exact accounts.unknown requestId absent
    · intro equal
      exact absent (List.mem_map.mpr ⟨_,owner,own.symm.trans equal⟩)

/-- A request that no slot is free for. -/
theorem Accounts.refuse {requestId : String} (accounts : Accounts tasks id stream) {refused : Stream}
    (admitted : refused.admitted = stream.admitted ++ [(requestId,none)])
    (others : ∀ other, other ≠ requestId → refused.answersTo other = stream.answersTo other)
    (answers : refused.answersTo requestId = stream.answersTo requestId ++ [rejection requestId] ∨
      refused.answersTo requestId = stream.answersTo requestId ∧ refused.phase ≠ .reading ∧ refused.Lost)
    (kept : refused.phase = stream.phase ∨ refused.phase ≠ .reading ∧ refused.Lost) (lost : stream.Lost → refused.Lost) :
    Accounts tasks id refused := by
  have more (other : String) : (stream.answersTo other).Sublist (refused.answersTo other) := by
    by_cases same : other = requestId
    · rw [same]
      rcases answers with told | silent
      · rw [told]
        exact List.sublist_append_left _ _
      · rw [silent.1]
    · rw [others other same]
  constructor
  · intro other t member
    rw [admitted] at member
    rcases List.mem_append.mp member with old | new
    · obtain ⟨task,there,own,named,part,exactly⟩ := accounts.handled other t old
      refine ⟨task,there,own,named,part.trans (more other),fun once => ?_⟩
      rw [admitted] at once
      obtain ⟨different,before⟩ := UsedOnce.before old once
      rw [others other (Ne.symm different),exactly before]
    · cases List.mem_singleton.mp new
  · intro other member once
    rw [admitted] at member once
    rcases List.mem_append.mp member with old | new
    · obtain ⟨different,before⟩ := UsedOnce.before old once
      rw [others other (Ne.symm different)]
      refine (accounts.rejected other old before).imp_right (fun unanswered => ⟨unanswered.1,?_,lost unanswered.2.2⟩)
      rcases kept with same | ends
      · rw [same]
        exact unanswered.2.1
      · exact ends.1
    · cases List.mem_singleton.mp new
      rw [accounts.unknown requestId once.fresh] at answers
      exact answers
  · intro other absent
    rw [admitted,List.map_append,List.mem_append,not_or] at absent
    rw [others other (fun same => absent.2 (List.mem_singleton.mpr same))]
    exact accounts.unknown other absent.1

/-- A request that a slot is free for. -/
theorem Accounts.accept {request : RemoteControlRequest} (accounts : Accounts tasks id stream) :
    Accounts (tasks ++ [⟨id,request,.handling,false,[]⟩]) id
      { stream with admitted := stream.admitted ++ [(request.requestId,some tasks.length)] } := by
  have later := @Accounts.goOn stream tasks id _ accounts (@append_continues ⟨id,request,.handling,false,[]⟩ tasks)
  constructor
  · intro requestId t member
    rcases List.mem_append.mp member with old | new
    · obtain ⟨task,there,own,named,part,exactly⟩ := later.handled requestId t old
      exact ⟨task,there,own,named,part,fun once => exactly (UsedOnce.before old once).2⟩
    · cases List.mem_singleton.mp new
      exact ⟨_,List.getElem?_concat_length,rfl,rfl,List.nil_sublist _,fun once => accounts.unknown _ once.fresh⟩
  · intro requestId member once
    rcases List.mem_append.mp member with old | new
    · exact accounts.rejected requestId old (UsedOnce.before old once).2
    · cases List.mem_singleton.mp new
  · intro requestId absent
    rw [List.map_append,List.mem_append,not_or] at absent
    exact accounts.unknown requestId absent.1

def RequestTask.isRunning (task : RequestTask) : Bool := task.phase ≠ .ended

structure Sound (w : World) : Prop where
  slots : w.slots + w.tasks.countP RequestTask.isRunning = MAX_CONCURRENT_REMOTE_REQUESTS
  owned : ∀ (i : ℕ) (task : RequestTask), w.tasks[i]? = some task → ∃ stream, w.streams[task.stream]? = some stream ∧ (task.request.requestId,some i) ∈ stream.admitted
  room : ∀ stream ∈ w.streams, stream.queue.length ≤ REMOTE_RESPONSE_QUEUE_SIZE
  accounts : ∀ (id : ℕ) (stream : Stream), w.streams[id]? = some stream → Accounts w.tasks id stream

theorem sound_initial : Sound initial :=
  ⟨rfl,fun _ _ there => (by cases there),fun _ member => absurd member List.not_mem_nil,fun _ _ there => (by cases there)⟩

/-- A stream that has admitted no less still owns its tasks. -/
theorem owned_set (owned : ∀ (i : ℕ) (task : RequestTask), tasks[i]? = some task →
      ∃ stream, streams[task.stream]? = some stream ∧ (task.request.requestId,some i) ∈ stream.admitted)
    (known : streams[id]? = some stream) (admitted : stream.admitted ⊆ stream'.admitted) :
    ∀ (i : ℕ) (task : RequestTask), tasks[i]? = some task →
      ∃ other, (streams.set id stream')[task.stream]? = some other ∧ (task.request.requestId,some i) ∈ other.admitted := by
  intro i task there
  obtain ⟨owner,place,member⟩ := owned i task there
  by_cases same : id = task.stream
  · subst same
    cases known.symm.trans place
    refine ⟨stream',?_,admitted member⟩
    rw [List.getElem?_set_self',known]
    rfl
  · exact ⟨owner,by rw [List.getElem?_set_ne same,place],member⟩

theorem sound_stream (sound : Sound w) (known : w.streams[id]? = some stream) (move : StreamMove w id stream w') : Sound w' := by
  have listed : stream ∈ w.streams := List.mem_of_getElem? known
  cases move with
  | ignores => exact sound
  | @keeps stream' keeps =>
    refine ⟨sound.slots,owned_set sound.owned known (fun _ member => keeps.admitted ▸ member),?_,?_⟩
    · exact mem_set_all sound.room (keeps.room.trans (sound.room stream listed))
    · exact set_all (fun j other _ there => sound.accounts j other there) ((sound.accounts id stream known).keeps keeps)
  | admits request free =>
    refine ⟨?_,?_,mem_set_all sound.room (sound.room stream listed),?_⟩
    · have before := sound.slots
      change w.slots - 1 + (w.tasks ++ [_]).countP RequestTask.isRunning = MAX_CONCURRENT_REMOTE_REQUESTS
      have runs : RequestTask.isRunning ⟨id,request,.handling,false,[]⟩ = true := rfl
      rw [List.countP_append,List.countP_singleton,if_pos runs]
      omega
    · intro i task there
      rcases append_cases there with old | ⟨rfl,rfl⟩
      · exact owned_set sound.owned known (List.subset_append_left _ _) i task old
      · refine ⟨{ stream with admitted := stream.admitted ++ [(request.requestId,some w.tasks.length)] },?_,List.mem_append_right _ List.mem_cons_self⟩
        change (w.streams.set id _)[id]? = _
        rw [List.getElem?_set_self',known]
        rfl
    · exact set_all (fun j other _ there => (sound.accounts j other there).goOn append_continues) (sound.accounts id stream known).accept
  | rejects requestId _ room =>
    refine ⟨sound.slots,owned_set sound.owned known (List.subset_append_left _ _),mem_set_all sound.room ?_,?_⟩
    · rw [List.length_append]
      exact room
    · refine set_all (fun j other _ there => sound.accounts j other there) ?_
      refine (sound.accounts id stream known).refuse rfl (fun other different => ?_) (.inl ?_) (.inl rfl) (fun lost => lost)
      · exact (@answersTo_append stream _ _).trans (by rw [if_neg (fun same => different same.symm),List.append_nil])
      · exact (@answersTo_append stream _ _).trans (by rw [if_pos (show (rejection requestId).requestId = requestId from rfl)])
  | retires requestId error _ =>
    refine ⟨sound.slots,owned_set sound.owned known (List.subset_append_left _ _),mem_set_all sound.room (sound.room stream listed),?_⟩
    refine set_all (fun j other _ there => sound.accounts j other there) ?_
    have ends : (Stream.retire { stream with admitted := stream.admitted ++ [(requestId,none)] } (.error error)).phase ≠ .reading := fun reading => by cases reading
    exact (sound.accounts id stream known).refuse rfl (fun _ _ => rfl) (.inr ⟨rfl,ends,Stream.retire_lost _ _⟩) (.inr ⟨ends,Stream.retire_lost _ _⟩)
      (fun _ => Stream.retire_lost _ _)

theorem running_set (known : w.tasks[i]? = some task) (same : task'.isRunning = task.isRunning) :
    (w.tasks.set i task').countP RequestTask.isRunning = w.tasks.countP RequestTask.isRunning := by
  obtain ⟨within,rfl⟩ := List.getElem?_eq_some_iff.mp known
  have counted := List.boole_getElem_le_countP (p := RequestTask.isRunning) within
  rw [List.countP_set within,same]
  exact Nat.sub_add_cancel counted

theorem owned_goOn {tasks' : List RequestTask} (owned : ∀ (i : ℕ) (task : RequestTask), tasks[i]? = some task →
      ∃ stream, streams[task.stream]? = some stream ∧ (task.request.requestId,some i) ∈ stream.admitted)
    (from_task : ∀ (i : ℕ) (task' : RequestTask), tasks'[i]? = some task' →
      ∃ task, tasks[i]? = some task ∧ task'.stream = task.stream ∧ task'.request = task.request) :
    ∀ (i : ℕ) (task' : RequestTask), tasks'[i]? = some task' → ∃ stream, streams[task'.stream]? = some stream ∧ (task'.request.requestId,some i) ∈ stream.admitted := by
  intro i task' there
  obtain ⟨task,before,own,request⟩ := from_task i task' there
  rw [own,request]
  exact owned i task before

theorem set_from (known : tasks[i]? = some task) (own : task'.stream = task.stream ∧ task'.request = task.request) :
    ∀ (j : ℕ) (after : RequestTask), (tasks.set i task')[j]? = some after →
      ∃ before, tasks[j]? = some before ∧ after.stream = before.stream ∧ after.request = before.request :=
  set_all (fun _ other _ there => ⟨other,there,rfl,rfl⟩) ⟨task,known,own⟩

/-- A task goes on without a response. -/
theorem Sound.goOn (sound : Sound w) (known : w.tasks[i]? = some task) (continues : Continues task task') (same : task'.isRunning = task.isRunning) :
    Sound (w.setTask i task') where
  slots := by
    rw [World.setTask,running_set known same]
    exact sound.slots
  owned := owned_goOn sound.owned (set_from known ⟨continues.stream,continues.request⟩)
  room := sound.room
  accounts id stream there := (sound.accounts id stream there).goOn (set_continues known continues)

theorem afterResponse_running (sent : Bool) (phase : Phase) : afterResponse sent phase ≠ .ended := by
  unfold afterResponse
  split
  · split
    · exact Phase.running rfl
    · exact fun impossible => by cases impossible
  · exact Phase.running rfl
  · exact fun impossible => by cases impossible

theorem awaited_running {phase : Phase} {response : RemoteControlResponse} (waiting : awaited phase = some response) : phase ≠ .ended := by
  rintro rfl
  cases waiting

theorem isRunning_eq (running : task.phase ≠ .ended) (still : task'.phase ≠ .ended) : task'.isRunning = task.isRunning := by
  rw [RequestTask.isRunning,RequestTask.isRunning,decide_eq_true running,decide_eq_true still]

theorem Accounts.elsewhere (accounts : Accounts tasks id stream) (known : tasks[i]? = some task) (other : task.stream ≠ id) :
    Accounts (tasks.set i task') id stream := by
  refine ⟨?_,accounts.rejected,accounts.unknown⟩
  intro requestId t member
  obtain ⟨owner,there,own,rest⟩ := accounts.handled requestId t member
  refine ⟨owner,?_,own,rest⟩
  rw [List.getElem?_set_ne,there]
  rintro rfl
  cases known.symm.trans there
  exact other own

theorem sound_task (sound : Sound w) (known : w.tasks[i]? = some task) (place : w.streams[task.stream]? = some stream)
    (move : TaskMove sha256 w i task stream w') : Sound w' := by
  have listed : stream ∈ w.streams := List.mem_of_getElem? place
  cases move with
  | @answered phase answer done =>
    have running := (handle_handled done).running
    exact sound.goOn known ⟨rfl,rfl,rfl⟩ (isRunning_eq (Phase.running running.1) (Phase.running running.2))
  | sent response waiting room =>
    obtain ⟨owner,same,member⟩ := sound.owned i task known
    cases place.symm.trans same
    refine ⟨?_,?_,mem_set_all sound.room ?_,set_all (fun j other different there => ?_) ?_⟩
    · exact (congrArg (w.slots + ·) (running_set known (isRunning_eq (awaited_running waiting) (afterResponse_running _ _)))).trans sound.slots
    · exact owned_set (owned_goOn sound.owned (set_from known ⟨rfl,rfl⟩)) place (List.Subset.refl _)
    · rw [List.length_append]
      exact room
    · exact (sound.accounts j other there).elsewhere known (fun same => different same.symm)
    · exact (sound.accounts _ stream place).send known member rfl ⟨rfl,rfl⟩ rfl
  | stopped syncing lost =>
    exact sound.goOn known ⟨rfl,rfl,rfl⟩ (isRunning_eq (Phase.running (by rw [syncing]; rfl)) (fun impossible => by cases impossible))
  | unsent response waiting lost => exact sound.goOn known ⟨rfl,rfl,rfl⟩ (isRunning_eq (awaited_running waiting) (afterResponse_running _ _))
  | late stage waiting =>
    have still : Sound (w.setTask i { task with phase := .reloading }) :=
      sound.goOn known ⟨rfl,rfl,rfl⟩ (isRunning_eq (Phase.running (by rw [waiting]; rfl)) (Phase.running rfl))
    refine sound_stream still place (.keeps ⟨rfl,rfl,Nat.le_refl _,fun _ => .inl (Bool.or_true _),fun ends => ends⟩)
  | finished returned =>
    refine ⟨?_,owned_goOn sound.owned (set_from known ⟨rfl,rfl⟩),sound.room,
      fun id stream there => (sound.accounts id stream there).goOn (set_continues known ⟨rfl,rfl,rfl⟩)⟩
    obtain ⟨within,same⟩ := List.getElem?_eq_some_iff.mp known
    have counted := List.boole_getElem_le_countP (p := RequestTask.isRunning) within
    have ran : task.isRunning = true := by rw [RequestTask.isRunning,returned]; rfl
    have ends : RequestTask.isRunning { task with phase := .ended } = false := rfl
    have before := sound.slots
    change w.slots + 1 + (w.tasks.set i _).countP RequestTask.isRunning = _
    rw [List.countP_set within,ends]
    rw [same,ran] at counted ⊢
    simp only [if_true,Bool.false_eq_true,if_false] at counted ⊢
    omega
  | crashed running => exact sound.goOn known ⟨rfl,rfl,rfl⟩ (isRunning_eq (Phase.running running) (fun impossible => by cases impossible))

theorem sound_step (sound : Sound w) {action : Action} (taken : step sha256 w action = some w') : Sound w' := by
  cases action with
  | configure config =>
    cases taken
    exact ⟨sound.slots,sound.owned,sound.room,sound.accounts⟩
  | openStream =>
    cases taken
    refine ⟨sound.slots,?_,?_,?_⟩
    · intro i task there
      obtain ⟨stream,place,member⟩ := sound.owned i task there
      exact ⟨stream,by rw [List.getElem?_append_left (List.getElem?_eq_some_iff.mp place).1,place],member⟩
    · intro stream member
      rcases List.mem_append.mp member with old | new
      · exact sound.room stream old
      · cases List.mem_singleton.mp new
        exact Nat.zero_le _
    · intro id stream there
      rcases append_cases there with old | ⟨rfl,rfl⟩
      · exact sound.accounts id stream old
      · exact ⟨fun _ _ member => absurd member List.not_mem_nil,fun _ member => absurd member List.not_mem_nil,fun _ _ => rfl⟩
  | shutdown id | receive id | endRequests id | close id | retire id | «return» id | abort id | take id =>
    obtain ⟨stream,known,taken⟩ := Option.bind_eq_some_iff.mp taken
    exact sound_stream sound known (streamStep_move taken)
  | answer i | send i | giveUp i | timeOut i | finish i | crash i =>
    obtain ⟨task,known,taken⟩ := Option.bind_eq_some_iff.mp taken
    obtain ⟨stream,place,taken⟩ := Option.bind_eq_some_iff.mp taken
    exact sound_task sound known place (taskStep_move taken)

theorem sound_run {actions : List Action} {w : World} (run : Run (step sha256) initial actions w) : Sound w :=
  run.invariant sound_initial (fun _ _ _ sound taken => sound_step sound taken)

end Admissions

end NodeAgent.RemoteRequests
