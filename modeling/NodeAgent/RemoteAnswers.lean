import NodeAgent.RemoteRequests

/-!
What the panel is told. The responses to a request are the beginning of one conversation, however the
tasks of a stream take turns: progress, then one last response, which is missing only if the stream is
lost or the task crashed. A panel that puts together the chunks of a configuration gets a
configuration that the runtime had as a whole, and never pieces of two.
-/
namespace NodeAgent.RemoteRequests
open NodeAgent.Transition NodeAgent.TopologyDigest
open NodeAgent.RemoteController (u32Max)
open NodeAgent.Credential (Bytes)

/-! ### Conversations -/

section Conversations
variable {sha256 : Bytes → Bytes} {config : Bytes} {configs configs' : List Bytes} {request : RemoteControlRequest}
  {sent responses : List RemoteControlResponse} {phase phase' : Phase}

def withId (requestId : String) (response : RemoteControlResponse) : RemoteControlResponse := { response with requestId := requestId }

/-- Everything that is said to a request: to one for the configuration, one of the configurations there were. -/
structure Whole (sha256 : Bytes → Bytes) (configs : List Bytes) (request : RemoteControlRequest) (responses : List RemoteControlResponse) : Prop where
  talk : Talk responses
  read : request.command = some .singBoxConfig → ∃ config ∈ configs, responses = (handleCurrentConfig sha256 config).map (withId request.requestId)

/-- What was sent and what comes next are the beginning of a conversation. -/
def Conversation (sha256 : Bytes → Bytes) (configs : List Bytes) (request : RemoteControlRequest) (sent : List RemoteControlResponse) : Phase → Prop
  | .sending rest => rest ≠ [] ∧ Whole sha256 configs request (sent ++ rest.map (withId request.requestId))
  | .returned | .ended => ∃ more, Whole sha256 configs request (sent ++ more)
  | phase => (∀ response ∈ sent, response.status = .progress) ∧ (request.command = some .singBoxConfig → sent = [] ∧ phase = .handling)

theorem Talk.map {requestId : String} (talk : Talk responses) : Talk (responses.map (withId requestId)) := by
  obtain ⟨steps,last,rfl,progress,final⟩ := talk
  refine ⟨steps.map (withId requestId),withId requestId last,by rw [List.map_append,List.map_singleton],?_,final⟩
  intro response member
  obtain ⟨step,among,rfl⟩ := List.mem_map.mp member
  exact progress step among

theorem Talk.after (talk : Talk responses) (before : ∀ response ∈ sent, response.status = .progress) : Talk (sent ++ responses) := by
  obtain ⟨steps,last,rfl,progress,final⟩ := talk
  refine ⟨sent ++ steps,last,(List.append_assoc _ _ _).symm,?_,final⟩
  intro response member
  rcases List.mem_append.mp member with early | later
  · exact before response early
  · exact progress response later

theorem Whole.mono (whole : Whole sha256 configs request responses) (more : configs ⊆ configs') : Whole sha256 configs' request responses :=
  ⟨whole.talk,fun asks => (whole.read asks).imp (fun _ held => ⟨more held.1,held.2⟩)⟩

theorem Conversation.mono (conversation : Conversation sha256 configs request sent phase) (more : configs ⊆ configs') :
    Conversation sha256 configs' request sent phase := by
  cases phase with
  | sending rest => exact ⟨conversation.1,conversation.2.mono more⟩
  | returned => exact conversation.imp (fun _ whole => whole.mono more)
  | ended => exact conversation.imp (fun _ whole => whole.mono more)
  | _ => exact conversation

/-- Wherever a conversation stops, it was the beginning of a whole one. -/
theorem Conversation.beginning (conversation : Conversation sha256 configs request sent phase) (current : config ∈ configs) :
    ∃ more, Whole sha256 configs request (sent ++ more) := by
  have begun (progress : ∀ response ∈ sent, response.status = .progress) (fresh : request.command = some .singBoxConfig → sent = []) :
      ∃ more, Whole sha256 configs request (sent ++ more) := by
    by_cases asks : request.command = some .singBoxConfig
    · refine ⟨(handleCurrentConfig sha256 config).map (withId request.requestId),(handleCurrentConfig_talk sha256 config).map.after progress,fun _ => ?_⟩
      exact ⟨config,current,by rw [fresh asks,List.nil_append]⟩
    · exact ⟨[failure "" ""],(talk_once (fun impossible => by cases impossible)).after progress,fun same => absurd same asks⟩
  cases phase with
  | sending rest => exact ⟨_,conversation.2⟩
  | returned => exact conversation
  | ended => exact conversation
  | _ => exact begun conversation.1 (fun asks => (conversation.2 asks).1)

theorem Conversation.handled (conversation : Conversation sha256 configs request sent phase) (current : config ∈ configs)
    (handled : Handled sha256 config request phase phase') : Conversation sha256 configs request sent phase' := by
  cases handled with
  | answers talk reads =>
    obtain ⟨progress,fresh⟩ := conversation
    refine ⟨?_,talk.map.after progress,fun asks => ⟨config,current,?_⟩⟩
    · rintro rfl
      obtain ⟨steps,last,empty,_⟩ := talk
      exact List.append_ne_nil_of_right_ne_nil _ (List.cons_ne_nil _ _) empty.symm
    · rw [(fresh asks).1,List.nil_append,reads asks]
  | reloads command => exact ⟨conversation.1,fun asks => by cases command.symm.trans asks⟩
  | syncs command => exact ⟨conversation.1,fun asks => by cases command.symm.trans asks⟩
  | reports stage => exact ⟨conversation.1,fun asks => by cases (conversation.2 asks).2⟩
  | changes changes => exact ⟨conversation.1,fun asks => by cases (conversation.2 asks).2⟩
  | concludes begun final =>
    rcases begun with rfl | rfl | ⟨_,rfl⟩
    all_goals exact ⟨List.cons_ne_nil _ _,(talk_once final).map.after conversation.1,fun asks => by cases (conversation.2 asks).2⟩

/-- After a response was sent, and the last one of a conversation when the task returns. -/
theorem Conversation.sends {response : RemoteControlResponse} (conversation : Conversation sha256 configs request sent phase)
    (waiting : awaited phase = some response) :
    Conversation sha256 configs request (sent ++ [withId request.requestId response]) (afterResponse true phase) ∧
      ((afterResponse true phase).isOver = true → Whole sha256 configs request (sent ++ [withId request.requestId response])) := by
  cases phase with
  | sending rest =>
    obtain ⟨_,whole⟩ := conversation
    match rest with
    | [] => cases waiting
    | [last] =>
      cases waiting
      exact ⟨⟨[],by rw [List.append_nil]; exact whole⟩,fun _ => whole⟩
    | first :: next :: rest =>
      cases waiting
      refine ⟨⟨List.cons_ne_nil _ _,?_⟩,fun impossible => by cases impossible⟩
      rw [List.append_assoc]
      exact whole
  | reporting stage =>
    cases waiting
    refine ⟨⟨?_,fun asks => by cases (conversation.2 asks).2⟩,fun impossible => by cases impossible⟩
    intro response member
    rcases List.mem_append.mp member with old | new
    · exact conversation.1 response old
    · cases List.mem_singleton.mp new
      rfl
  | _ => cases waiting

theorem Conversation.unsent {response : RemoteControlResponse} (conversation : Conversation sha256 configs request sent phase)
    (waiting : awaited phase = some response) (current : config ∈ configs) : Conversation sha256 configs request sent (afterResponse false phase) := by
  have stops := conversation.beginning current
  cases phase with
  | sending rest =>
    match rest with
    | [] => cases waiting
    | [last] => exact stops
    | first :: next :: rest => exact stops
  | reporting stage => exact ⟨conversation.1,fun asks => by cases (conversation.2 asks).2⟩
  | _ => cases waiting

end Conversations

/-! ### Every step -/

section Telling
variable {sha256 : Bytes → Bytes} {w w' : World} {stream stream' : Stream} {task : RequestTask} {id i : ℕ}

/-- Why a task may be over: it said everything, or crashed, or nobody listens. -/
def Excused (sha256 : Bytes → Bytes) (configs : List Bytes) (stream : Stream) (task : RequestTask) : Prop :=
  task.crashed = true ∨ stream.Lost ∨ Whole sha256 configs task.request task.sent

structure Telling (sha256 : Bytes → Bytes) (w : World) : Prop where
  current : w.config ∈ w.configs
  conversations : ∀ (i : ℕ) (task : RequestTask), w.tasks[i]? = some task → Conversation sha256 w.configs task.request task.sent task.phase
  excused : ∀ (i : ℕ) (task : RequestTask) (stream : Stream), w.tasks[i]? = some task → w.streams[task.stream]? = some stream →
    task.phase.isOver = true → Excused sha256 w.configs stream task

theorem telling_initial : Telling sha256 initial :=
  ⟨List.mem_singleton.mpr rfl,fun _ _ there => (by cases there),fun _ _ _ there => (by cases there)⟩

/-- A stream that is still lost if it was. -/
theorem Telling.setStream (telling : Telling sha256 w) (known : w.streams[id]? = some stream) (lost : stream.Lost → stream'.Lost) :
    Telling sha256 (w.setStream id stream') := by
  refine ⟨telling.current,telling.conversations,fun i task other there place ends => ?_⟩
  change (w.streams.set id stream')[task.stream]? = some other at place
  by_cases same : id = task.stream
  · subst same
    rw [List.getElem?_set_self',known] at place
    cases place
    exact (telling.excused i task stream there known ends).imp_right (fun excuse => excuse.imp_left lost)
  · rw [List.getElem?_set_ne same] at place
    exact telling.excused i task other there place ends

theorem Telling.setTask {task' : RequestTask} (telling : Telling sha256 w)
    (conversation : Conversation sha256 w.configs task'.request task'.sent task'.phase)
    (excused : ∀ stream, w.streams[task'.stream]? = some stream → task'.phase.isOver = true → Excused sha256 w.configs stream task') :
    Telling sha256 (w.setTask i task') where
  current := telling.current
  conversations := set_all (fun j other _ there => telling.conversations j other there) conversation
  excused := fun j after stream there =>
    @set_all i _ _ _ (fun _ after => w.streams[after.stream]? = some stream → after.phase.isOver = true → Excused sha256 w.configs stream after)
      (fun j other _ there => telling.excused j other stream there) (excused stream) j after there

theorem telling_stream (telling : Telling sha256 w) (known : w.streams[id]? = some stream) (move : StreamMove w id stream w') :
    Telling sha256 w' := by
  cases move with
  | ignores => exact telling
  | keeps keeps => exact telling.setStream known keeps.lost
  | rejects => exact telling.setStream known (fun lost => lost)
  | retires => exact telling.setStream known (fun _ => Stream.retire_lost _ _)
  | admits request free =>
    have still : Telling sha256 (w.setStream id { stream with admitted := stream.admitted ++ [(request.requestId,some w.tasks.length)] }) :=
      telling.setStream known (fun lost => lost)
    refine ⟨telling.current,fun i task there => ?_,fun i task other there place ends => ?_⟩
    · rcases append_cases there with old | ⟨rfl,rfl⟩
      · exact telling.conversations i task old
      · exact ⟨fun _ member => absurd member List.not_mem_nil,fun _ => ⟨rfl,rfl⟩⟩
    · rcases append_cases there with old | ⟨rfl,rfl⟩
      · exact still.excused i task other old place ends
      · cases ends

theorem telling_task (telling : Telling sha256 w) (known : w.tasks[i]? = some task) (place : w.streams[task.stream]? = some stream)
    (move : TaskMove sha256 w i task stream w') : Telling sha256 w' := by
  have conversation := telling.conversations i task known
  have here {P : Stream → Prop} (holds : P stream) : ∀ other, w.streams[task.stream]? = some other → P other := by
    intro other there
    cases place.symm.trans there
    exact holds
  cases move with
  | answered done =>
    have handled := handle_handled done
    refine telling.setTask (conversation.handled telling.current handled) (fun _ _ ends => ?_)
    have running := handled.running.2
    rw [running] at ends
    cases ends
  | sent response waiting room =>
    obtain ⟨goes_on,says_all⟩ := conversation.sends waiting
    exact (telling.setTask goes_on (fun _ _ ends => .inr (.inr (says_all ends)))).setStream place (fun lost => lost)
  | stopped syncing lost =>
    refine telling.setTask (conversation.beginning telling.current) (fun other there _ => .inr (.inl ?_))
    exact @here Stream.Lost lost other there
  | unsent response waiting lost =>
    refine telling.setTask (conversation.unsent waiting telling.current) (fun other there _ => .inr (.inl ?_))
    exact @here Stream.Lost lost other there
  | late stage waiting =>
    rw [waiting] at conversation
    refine (telling.setTask ?_ (fun _ _ ends => by cases ends)).setStream place (fun _ => .inl (Bool.or_true _))
    exact ⟨conversation.1,fun asks => by cases (conversation.2 asks).2⟩
  | finished returned =>
    rw [returned] at conversation
    have excuse := telling.excused i task stream known place (by rw [returned]; rfl)
    have still : Telling sha256 (w.setTask i { task with phase := .ended }) :=
      telling.setTask conversation (fun other there _ => @here (fun stream => Excused sha256 w.configs stream { task with phase := .ended }) excuse other there)
    exact ⟨still.current,still.conversations,still.excused⟩
  | crashed running => exact telling.setTask (conversation.beginning telling.current) (fun _ _ _ => .inl rfl)

theorem telling_step (sound : Sound w) (telling : Telling sha256 w) {action : Action} (taken : step sha256 w action = some w') : Telling sha256 w' := by
  cases action with
  | configure config =>
    cases taken
    refine ⟨List.mem_append_right _ List.mem_cons_self,fun i task there => (telling.conversations i task there).mono (List.subset_append_left _ _),?_⟩
    intro i task stream there place ends
    exact (telling.excused i task stream there place ends).imp_right (fun excuse => excuse.imp_right (fun whole => whole.mono (List.subset_append_left _ _)))
  | openStream =>
    cases taken
    refine ⟨telling.current,telling.conversations,fun i task stream there place ends => ?_⟩
    obtain ⟨owner,known,_⟩ := sound.owned i task there
    rw [List.getElem?_append_left (List.getElem?_eq_some_iff.mp known).1] at place
    exact telling.excused i task stream there place ends
  | shutdown id | receive id | endRequests id | close id | retire id | «return» id | abort id | take id =>
    obtain ⟨stream,known,taken⟩ := Option.bind_eq_some_iff.mp taken
    exact telling_stream telling known (streamStep_move taken)
  | answer i | send i | giveUp i | timeOut i | finish i | crash i =>
    obtain ⟨task,known,taken⟩ := Option.bind_eq_some_iff.mp taken
    obtain ⟨stream,place,taken⟩ := Option.bind_eq_some_iff.mp taken
    exact telling_task telling known place (taskStep_move taken)

theorem telling_run {actions : List Action} {w : World} (run : Run (step sha256) initial actions w) : Sound w ∧ Telling sha256 w :=
  run.invariant (I := fun w => Sound w ∧ Telling sha256 w) ⟨sound_initial,telling_initial⟩ (fun _ _ _ held taken => ⟨sound_step held.1 taken,telling_step held.1 held.2 taken⟩)

end Telling

/-! ### Configurations -/

section Configurations
variable {sha256 : Bytes → Bytes} {config : Bytes} {requestId : String} {given : List RemoteControlResponse}

/-- What a panel makes of the responses to a request for the configuration: the chunks in order, checked against the last one. -/
def reassembleFrom (sha256 : Bytes → Bytes) : ℕ → Bytes → List RemoteControlResponse → Option Bytes
  | _, _, [] => none
  | expected, collected, response :: rest =>
    match response.payload with
    | some (.singBoxConfig chunk) =>
      if chunk.sequence ≠ expected then none
      else if chunk.eof then
        if chunk.totalBytes = collected.length ∧ chunk.sha256 = hexEncode (sha256 collected) then some collected else none
      else reassembleFrom sha256 (expected + 1) (collected ++ chunk.data) rest
    | _ => none

def reassemble (sha256 : Bytes → Bytes) (responses : List RemoteControlResponse) : Option Bytes := reassembleFrom sha256 0 [] responses

theorem flatten_pieces {α : Type} (xs : List α) (size count : ℕ) :
    ((List.range count).map (fun i => (xs.drop (i * size)).take size)).flatten = xs.take (count * size) := by
  induction count with
  | zero => simp
  | succ count ih => rw [List.range_succ,List.map_append,List.flatten_append,ih,Nat.succ_mul,List.take_add]; simp

theorem configChunks_flatten (config : Bytes) : (configChunks config).flatten = config := by
  rw [configChunks,flatten_pieces]
  refine List.take_of_length_le ?_
  unfold REMOTE_CONFIG_CHUNK_SIZE
  omega

/-- Chunks alone make no configuration. -/
theorem chunks_unfinished (chunks : List Bytes) (sequence expected : ℕ) (collected : Bytes)
    (start : given <+: (chunkResponses sequence chunks).1.map (withId requestId)) : reassembleFrom sha256 expected collected given = none := by
  induction chunks generalizing sequence expected collected given with
  | nil =>
    rw [List.prefix_nil.mp start]
    rfl
  | cons chunk rest ih =>
    cases given with
    | nil => rfl
    | cons response others =>
      obtain ⟨same,later⟩ := List.cons_prefix_cons.mp start
      subst same
      have unfinished := ih (min (sequence + 1) u32Max) (expected + 1) (collected ++ chunk) later
      simp only [reassembleFrom,withId,response]
      split
      · rfl
      · exact unfinished

theorem chunks_collected (chunks : List Bytes) (sequence : ℕ) (collected : Bytes) (few : sequence + chunks.length ≤ u32Max)
    (rest : List RemoteControlResponse) :
    reassembleFrom sha256 sequence collected ((chunkResponses sequence chunks).1.map (withId requestId) ++ rest) =
      reassembleFrom sha256 (sequence + chunks.length) (collected ++ chunks.flatten) rest ∧
    (chunkResponses sequence chunks).2 = sequence + chunks.length := by
  induction chunks generalizing sequence collected with
  | nil => exact ⟨by simp [chunkResponses],rfl⟩
  | cons chunk others ih =>
    rw [List.length_cons] at few
    have next : min (sequence + 1) u32Max = sequence + 1 := Nat.min_eq_left (by omega)
    obtain ⟨collects,count⟩ := ih (sequence + 1) (collected ++ chunk) (by omega)
    have place : sequence + 1 + others.length = sequence + (others.length + 1) := by omega
    constructor
    · rw [chunkResponses,next,List.map_cons,List.cons_append,reassembleFrom]
      simp only [withId,response,ne_eq,not_true_eq_false,if_false,Bool.false_eq_true]
      rw [List.flatten_cons,List.length_cons,← place,← List.append_assoc]
      exact collects
    · rw [chunkResponses,next,List.length_cons,← place]
      exact count

/-- The responses make the configuration that they are of, once the last of them is there. -/
theorem reassemble_iff (short : config.length ≤ REMOTE_CONFIG_CHUNK_SIZE * u32Max)
    (start : given <+: (handleCurrentConfig sha256 config).map (withId requestId)) (bytes : Bytes) :
    reassemble sha256 given = some bytes ↔ bytes = config ∧ ∃ response ∈ given, response.status = .completed := by
  cases empty : config.isEmpty with
  | true =>
    rw [handleCurrentConfig,empty,if_pos rfl] at start
    rcases List.prefix_cons_iff.mp start with rfl | ⟨rest,rfl,nothing⟩
    · simp [reassemble,reassembleFrom]
    · cases List.prefix_nil.mp nothing
      simp [reassemble,reassembleFrom,withId,failure,response]
  | false =>
    rw [handleCurrentConfig_eq empty,List.map_append,List.map_singleton,List.prefix_concat_iff] at start
    rcases start with whole | part
    · have few : 0 + (configChunks config).length ≤ u32Max := by
        rw [configChunks,List.length_map,List.length_range]
        unfold REMOTE_CONFIG_CHUNK_SIZE at short ⊢
        omega
      obtain ⟨collects,count⟩ := @chunks_collected sha256 requestId (configChunks config) 0 [] few
        [withId requestId (response .completed "sing_box_config" "current sing-box configuration returned"
          (some (.singBoxConfig ⟨(chunkResponses 0 (configChunks config)).2,[],true,config.length,hexEncode (sha256 config)⟩)))]
      have done : reassemble sha256 given = some config := by
        rw [whole,reassemble,collects,configChunks_flatten,count,List.nil_append]
        simp [reassembleFrom,withId,response]
      rw [done,Option.some.injEq]
      constructor
      · rintro rfl
        exact ⟨rfl,_,by rw [whole]; exact List.mem_append_right _ List.mem_cons_self,rfl⟩
      · rintro ⟨rfl,_⟩
        rfl
    · rw [reassemble,chunks_unfinished _ _ _ _ part]
      constructor
      · rintro ⟨⟩
      · rintro ⟨rfl,response,member,completed⟩
        obtain ⟨chunk,among,rfl⟩ := List.mem_map.mp (part.subset member)
        cases (chunkResponses_progress 0 _ chunk among).symm.trans completed

end Configurations

/-! ### Runs -/

section Runs
variable {sha256 : Bytes → Bytes} {actions : List Action} {w : World}

/-- At most sixteen requests are handled at a time, over all streams, and a request is taken on exactly when fewer are. Every request
    that a stream has read is handled by a task of its own, whose responses go out under its identifier, and no others if the identifier
    is used once; or is answered as busy once; or was the last one of a stream that retired. -/
theorem requests_bounded (run : Run (step sha256) initial actions w) :
    w.tasks.countP RequestTask.isRunning ≤ MAX_CONCURRENT_REMOTE_REQUESTS ∧
    (∀ id request w', step sha256 w (.receive id request) = some w' → request.requestId ≠ "" →
      (w'.tasks.length = w.tasks.length + 1 ↔ w.tasks.countP RequestTask.isRunning < MAX_CONCURRENT_REMOTE_REQUESTS)) ∧
    ∀ (id : ℕ) (stream : Stream), w.streams[id]? = some stream → stream.queue.length ≤ REMOTE_RESPONSE_QUEUE_SIZE ∧ Accounts w.tasks id stream := by
  have sound := sound_run run
  have slots := sound.slots
  refine ⟨by omega,fun id request w' taken named => ?_,fun id stream known => ⟨sound.room stream (List.mem_of_getElem? known),sound.accounts id stream known⟩⟩
  obtain ⟨stream,known,taken⟩ := Option.bind_eq_some_iff.mp taken
  rw [streamStep] at taken
  split at taken
  · cases taken
    unfold receive
    rw [if_neg named]
    split
    · next free =>
      rw [List.length_append]
      exact ⟨fun _ => by omega,fun _ => rfl⟩
    · next busy =>
      refine ⟨fun grown => ?_,fun fewer => by omega⟩
      dsimp only at grown
      split at grown
      · exact absurd grown (Nat.ne_of_lt (Nat.lt_succ_self _))
      · exact absurd grown (Nat.ne_of_lt (Nat.lt_succ_self _))
  · cases taken

/-- The panel sends two requests under one identifier and asks for the configuration, which is replaced before all of it is sent. -/
def readConfig : List Action :=
  [.configure [1,2,3],.openStream,.receive 0 ⟨"a",none⟩,.receive 0 ⟨"a",none⟩,.receive 0 ⟨"c",some .singBoxConfig⟩,.answer 1 .nothing,.answer 2 .nothing,
    .send 2,.send 1,.configure [4],.send 2,.take 0,.take 0,.take 0]

theorem read_config_runs : ∃ w stream task, Run (step (fun bytes => bytes)) initial readConfig w ∧ w.streams[0]? = some stream ∧
    stream.admitted = [("a",some 0),("a",some 1),("c",some 2)] ∧ w.tasks[2]? = some task ∧ task.request = ⟨"c",some .singBoxConfig⟩ ∧
    task.phase.isOver = true ∧ task.crashed = false ∧ ¬ stream.Lost ∧ w.configs = [[],[1,2,3],[4]] ∧
    ∃ response ∈ stream.taken, response.requestId = "c" ∧ response.status = .completed :=
  ⟨_,_,_,Run.of_follow rfl,rfl,rfl,rfl,rfl,rfl,rfl,(by rintro (lost | lost) <;> cases lost),rfl,
    _,List.mem_cons_of_mem _ (List.mem_cons_of_mem _ List.mem_cons_self),rfl,rfl⟩

theorem read_config_bounded : ∃ w stream, Run (step (fun bytes => bytes)) initial readConfig w ∧ w.streams[0]? = some stream ∧
    w.tasks.countP RequestTask.isRunning ≤ MAX_CONCURRENT_REMOTE_REQUESTS ∧ ∃ task, w.tasks[2]? = some task ∧ stream.answersTo "c" = task.sent := by
  obtain ⟨w,stream,_,run,known,admitted,_⟩ := read_config_runs
  obtain ⟨few,_,streams⟩ := requests_bounded run
  obtain ⟨task,there,_,_,_,answers⟩ := (streams 0 stream known).2.handled "c" 2 (by rw [admitted]; decide)
  exact ⟨w,stream,run,known,few,task,there,answers (by rw [admitted]; rfl)⟩

/-- The responses of the task that handles a request are on its stream, in their order and under its identifier, and are the beginning of
    one conversation. All of it is there when the task is over, unless it crashed or the stream is lost. -/
theorem requests_answered (run : Run (step sha256) initial actions w) {id t : ℕ} {stream : Stream} {requestId : String}
    (known : w.streams[id]? = some stream) (admitted : (requestId,some t) ∈ stream.admitted) :
    ∃ task, w.tasks[t]? = some task ∧ task.stream = id ∧ task.request.requestId = requestId ∧
      task.sent.Sublist (stream.answersTo requestId) ∧ (UsedOnce stream.admitted requestId → stream.answersTo requestId = task.sent) ∧
      (∃ more, Talk (task.sent ++ more)) ∧ (task.phase.isOver = true → task.crashed = true ∨ stream.Lost ∨ Talk task.sent) := by
  obtain ⟨sound,telling⟩ := telling_run run
  obtain ⟨task,there,own,named,part,answers⟩ := (sound.accounts id stream known).handled requestId t admitted
  refine ⟨task,there,own,named,part,answers,?_,fun ends => ?_⟩
  · obtain ⟨more,whole⟩ := (telling.conversations t task there).beginning telling.current
    exact ⟨more,whole.talk⟩
  · exact (telling.excused t task stream there (by rw [own,known]) ends).imp_right (fun excuse => excuse.imp_right Whole.talk)

theorem read_config_answered : ∃ w stream task, Run (step (fun bytes => bytes)) initial readConfig w ∧ w.streams[0]? = some stream ∧
    w.tasks[2]? = some task ∧ task.sent.Sublist (stream.answersTo "c") ∧ Talk task.sent := by
  obtain ⟨w,stream,task,run,known,admitted,there,_,ended,sane,heard,_⟩ := read_config_runs
  obtain ⟨task',there',_,_,part,_,_,answered⟩ := requests_answered run known (show ("c",some 2) ∈ stream.admitted by rw [admitted]; decide)
  cases there.symm.trans there'
  refine ⟨w,stream,task,run,known,there,part,?_⟩
  rcases answered ended with crashed | lost | talk
  · cases sane.symm.trans crashed
  · exact absurd lost heard
  · exact talk

/-- Under an identifier that is used once, the panel puts together a configuration that the runtime had as a whole, once it has taken
    the last response, and nothing else. -/
theorem config_reassembled (run : Run (step sha256) initial actions w) {id t : ℕ} {stream : Stream} {task : RequestTask} {requestId : String}
    (known : w.streams[id]? = some stream) (once : UsedOnce stream.admitted requestId) (admitted : (requestId,some t) ∈ stream.admitted)
    (there : w.tasks[t]? = some task) (asks : task.request.command = some .singBoxConfig) :
    ∃ config ∈ w.configs, stream.taken.filter (fun response => response.requestId = requestId) <+:
        (handleCurrentConfig sha256 config).map (withId requestId) ∧
      (config.length ≤ REMOTE_CONFIG_CHUNK_SIZE * u32Max → ∀ bytes,
        reassemble sha256 (stream.taken.filter (fun response => response.requestId = requestId)) = some bytes ↔
          bytes = config ∧ ∃ response ∈ stream.taken, response.requestId = requestId ∧ response.status = .completed) := by
  obtain ⟨sound,telling⟩ := telling_run run
  obtain ⟨task',there',own,named,_,answers⟩ := (sound.accounts id stream known).handled requestId t admitted
  cases there.symm.trans there'
  obtain ⟨more,whole⟩ := (telling.conversations t task there).beginning telling.current
  obtain ⟨config,among,spoken⟩ := whole.read asks
  have taken : stream.taken.filter (fun response => response.requestId = requestId) <+: task.sent := by
    rw [← answers once,Stream.answersTo,Stream.responses,List.filter_append]
    exact List.prefix_append _ _
  have start := taken.trans ((List.prefix_append task.sent more).trans (by rw [spoken,named]))
  refine ⟨config,among,start,fun short bytes => (reassemble_iff short start bytes).trans (and_congr_right (fun _ => ?_))⟩
  simp only [List.mem_filter,decide_eq_true_eq,and_assoc]

theorem read_config_reassembled : ∃ w stream, Run (step (fun bytes => bytes)) initial readConfig w ∧ w.streams[0]? = some stream ∧
    ∃ config ∈ w.configs, reassemble (fun bytes => bytes) (stream.taken.filter (fun response => response.requestId = "c")) = some config := by
  obtain ⟨w,stream,task,run,known,admitted,there,asks,_,_,_,configs,completed⟩ := read_config_runs
  obtain ⟨config,among,_,reassembled⟩ := config_reassembled run known (by rw [admitted]; rfl) (show ("c",some 2) ∈ stream.admitted by rw [admitted]; decide)
    there (by rw [asks])
  have short : config.length ≤ REMOTE_CONFIG_CHUNK_SIZE * u32Max := by
    have small : ∀ config ∈ w.configs, config.length ≤ 3 := by rw [configs]; decide
    exact (small config among).trans (by decide)
  exact ⟨w,stream,run,known,config,among,(reassembled short config).mpr ⟨rfl,completed⟩⟩

end Runs

end NodeAgent.RemoteRequests
