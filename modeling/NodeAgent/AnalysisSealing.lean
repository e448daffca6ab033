import NodeAgent.AnalysisCollector
import NodeAgent.WireLengths

/-!
How the rows of a minute are packed into messages. One loop runs over the rows of the users
and then over those of the domains; it keeps an estimate of the length of the open message,
and starts another message when the next row would exceed a limit.
-/
namespace NodeAgent.AnalysisSealing
open NodeAgent.AnalysisRows NodeAgent.AnalysisMinutes NodeAgent.AnalysisBatches NodeAgent.AnalysisCollector NodeAgent.WireLengths NodeAgent.FiniteMap

/-! ### Encoded lengths -/

/-- What the generated code of the messages gives: `encoded_len` of a row and of a batch, and
    the bytes of a row as an element of its field. -/
structure EncodedLen where
  userMinute : TrafficAnalysisUserMinute → Nat
  domainMinute : TrafficAnalysisDomainMinute → Nat
  batch : TrafficAnalysisBatch → Nat
  userField : TrafficAnalysisUserMinute → Nat
  domainField : TrafficAnalysisDomainMinute → Nat

def pushUser (row : TrafficAnalysisUserMinute) (batch : TrafficAnalysisBatch) : TrafficAnalysisBatch :=
  { batch with userMinutes := batch.userMinutes ++ [row] }

def pushDomain (row : TrafficAnalysisDomainMinute) (batch : TrafficAnalysisBatch) : TrafficAnalysisBatch :=
  { batch with domainMinutes := batch.domainMinutes ++ [row] }

/-- The elements of a repeated field are encoded one after the other. -/
structure EncodedLen.Repeated (len : EncodedLen) : Prop where
  user : ∀ row batch, len.batch (pushUser row batch) = len.batch batch + len.userField row
  domain : ∀ row batch, len.batch (pushDomain row batch) = len.batch batch + len.domainField row

section Lengths
variable (len : EncodedLen)

/-! ### The loop -/

/-- What the messages of a collector have in common. -/
structure Source where
  agentInstanceId : String
  epoch : Nat
  generatedAtUnix : Int

/-- `new_message` with the sequence number after the given one. -/
def newMessage (source : Source) (sequence : Nat) : TrafficAnalysisBatch :=
  ⟨source.agentInstanceId,source.epoch,(sequence + 1) % 18446744073709551616,source.generatedAtUnix,[],[]⟩

structure Packing where
  /-- The last sequence number that was given out. -/
  sequence : Nat
  message : TrafficAnalysisBatch
  /-- The estimate of the length of the open message. -/
  size : Nat
  /-- The messages that `enqueue` was called with. -/
  enqueued : List TrafficAnalysisBatch

def Packing.start (source : Source) (sequence : Nat) (enqueued : List TrafficAnalysisBatch) : Packing :=
  let message := newMessage source sequence
  ⟨message.sequence,message,len.batch message,enqueued⟩

/-- One turn of the loop: `push` puts a row of the length into the open message, or into
    another one. -/
def Packing.place (config : TrafficAnalysisConfig) (source : Source) (push : TrafficAnalysisBatch → TrafficAnalysisBatch) (length : Nat)
    (s : Packing) : Packing :=
  let rowSize := length + 8
  let s :=
    if entries s.message ≥ config.batchMaxEntries ∨ s.size + rowSize > config.batchMaxBytes then
      Packing.start len source s.sequence (s.enqueued ++ [s.message])
    else s
  { s with message := push s.message, size := s.size + rowSize }

/-- A domain row with nothing to tell. -/
def idle (row : TrafficAnalysisDomainMinute) : Bool := row.uplinkBytes = 0 && row.downlinkBytes = 0 && row.targetSessions = 0

def Packing.users (config : TrafficAnalysisConfig) (source : Source) (rows : List TrafficAnalysisUserMinute) (s : Packing) : Packing :=
  rows.foldl (fun s row => s.place len config source (pushUser row) (len.userMinute row)) s

def Packing.domains (config : TrafficAnalysisConfig) (source : Source) (rows : List TrafficAnalysisDomainMinute) (s : Packing) : Packing :=
  rows.foldl (fun s row => if idle row then s else s.place len config source (pushDomain row) (len.domainMinute row)) s

/-- The messages that `seal` passes to `enqueue`, the rows being visited in the given orders,
    and the sequence number after them. -/
def pack (config : TrafficAnalysisConfig) (source : Source) (sequence : Nat) (users : List TrafficAnalysisUserMinute)
    (domains : List TrafficAnalysisDomainMinute) : List TrafficAnalysisBatch × Nat :=
  let s := ((Packing.start len source sequence []).users len config source users).domains len config source domains
  (s.enqueued ++ [s.message],s.sequence)

/-- `seal` with the messages that the rows of the bucket are packed into. -/
def sealRows (s : Collector) (source : Source) (sequence : Nat) (users : List TrafficAnalysisUserMinute)
    (domains : List TrafficAnalysisDomainMinute) : Collector :=
  s.seal ((pack len s.gauge.limits source sequence users domains).1.map (fun message => (message,len.batch message)))

/-! ### What a turn keeps -/

/-- The messages so far, the open one last. -/
def Packing.messages (s : Packing) : List TrafficAnalysisBatch := s.enqueued ++ [s.message]

/-- Whether a message respects the limits; a row alone may exceed the length. -/
structure Fits (config : TrafficAnalysisConfig) (message : TrafficAnalysisBatch) : Prop where
  entries : entries message ≤ config.batchMaxEntries
  bytes : 1 < AnalysisRows.entries message → len.batch message ≤ config.batchMaxBytes

structure Packed (config : TrafficAnalysisConfig) (first : Nat) (users : List TrafficAnalysisUserMinute)
    (domains : List TrafficAnalysisDomainMinute) (s : Packing) : Prop where
  users : s.messages.flatMap TrafficAnalysisBatch.userMinutes = users
  domains : s.messages.flatMap TrafficAnalysisBatch.domainMinutes = domains
  fits : ∀ message ∈ s.messages, Fits len config message
  estimate : len.batch s.message ≤ s.size
  room : 1 < entries s.message → s.size ≤ config.batchMaxBytes
  numbered : s.messages.map TrafficAnalysisBatch.sequence =
    (List.range' 1 s.messages.length).map (fun k => (first + k) % 18446744073709551616)
  last : s.sequence = (first + s.messages.length) % 18446744073709551616

theorem packed_start (config : TrafficAnalysisConfig) (source : Source) (sequence : Nat) :
    Packed len config sequence [] [] (Packing.start len source sequence []) := by
  constructor
  · rfl
  · rfl
  · intro message member
    rw [List.mem_singleton.mp member]
    exact ⟨Nat.zero_le _,fun several => absurd several (by simp [Packing.start,newMessage,entries])⟩
  · exact Nat.le_refl _
  · intro several
    exact absurd several (by simp [Packing.start,newMessage,entries])
  · rfl
  · rfl

variable {len}

/-- Another message is opened. -/
theorem Packed.next {config : TrafficAnalysisConfig} {first : Nat} {users : List TrafficAnalysisUserMinute}
    {domains : List TrafficAnalysisDomainMinute} {s : Packing} (packed : Packed len config first users domains s) (source : Source) :
    Packed len config first users domains (Packing.start len source s.sequence (s.enqueued ++ [s.message])) := by
  have messages : (Packing.start len source s.sequence (s.enqueued ++ [s.message])).messages = s.messages ++ [newMessage source s.sequence] := rfl
  have number : (newMessage source s.sequence).sequence = (first + (s.messages.length + 1)) % 18446744073709551616 := by
    rw [newMessage,packed.last]
    simp only
    omega
  constructor
  · rw [messages,List.flatMap_append,packed.users]
    exact List.append_nil users
  · rw [messages,List.flatMap_append,packed.domains]
    exact List.append_nil domains
  · intro message member
    rw [messages] at member
    rcases List.mem_append.mp member with before | new
    · exact packed.fits message before
    · rw [List.mem_singleton.mp new]
      exact ⟨Nat.zero_le _,fun several => absurd several (by simp [newMessage,entries])⟩
  · exact Nat.le_refl _
  · intro several
    exact absurd several (by simp [Packing.start,newMessage,entries])
  · rw [messages,List.map_append,packed.numbered,List.length_append,List.length_singleton,List.range'_1_concat,List.map_append]
    simp only [List.map_cons,List.map_nil,number]
    congr 3
    omega
  · rw [messages,List.length_append,List.length_singleton]
    exact number

variable (len) in
/-- What pushing a row into a message does. -/
structure Pushes (push : TrafficAnalysisBatch → TrafficAnalysisBatch) (users : List TrafficAnalysisUserMinute)
    (domains : List TrafficAnalysisDomainMinute) (length : Nat) : Prop where
  users : ∀ batch, (push batch).userMinutes = batch.userMinutes ++ users
  domains : ∀ batch, (push batch).domainMinutes = batch.domainMinutes ++ domains
  sequence : ∀ batch, (push batch).sequence = batch.sequence
  entries : ∀ batch, AnalysisRows.entries (push batch) = AnalysisRows.entries batch + 1
  bytes : ∀ batch, len.batch (push batch) ≤ len.batch batch + (length + 8)

/-- The row goes into the open message, which has room for it or is empty. -/
theorem Packed.pushed {config : TrafficAnalysisConfig} {first : Nat} {users more : List TrafficAnalysisUserMinute}
    {domains further : List TrafficAnalysisDomainMinute} {s : Packing} (packed : Packed len config first users domains s)
    {push : TrafficAnalysisBatch → TrafficAnalysisBatch} {length : Nat} (pushes : Pushes len push more further length)
    (spare : entries s.message < config.batchMaxEntries) (room : entries s.message ≠ 0 → s.size + (length + 8) ≤ config.batchMaxBytes) :
    Packed len config first (users ++ more) (domains ++ further) { s with message := push s.message, size := s.size + (length + 8) } := by
  have before := packed.estimate
  have longer := pushes.bytes s.message
  have one_more := pushes.entries s.message
  have open_fits : Fits len config (push s.message) := by
    constructor
    · omega
    · intro several
      have := room (by omega)
      omega
  constructor
  · have all := packed.users
    simp only [Packing.messages,List.flatMap_append,List.flatMap_singleton,pushes.users] at all ⊢
    rw [← List.append_assoc,all]
  · have all := packed.domains
    simp only [Packing.messages,List.flatMap_append,List.flatMap_singleton,pushes.domains] at all ⊢
    rw [← List.append_assoc,all]
  · intro message member
    rcases List.mem_append.mp member with closed | now
    · exact packed.fits message (List.mem_append_left _ closed)
    · rw [List.mem_singleton.mp now]
      exact open_fits
  · simp only
    omega
  · intro several
    exact room (by simp only at several; omega)
  · have numbered := packed.numbered
    simp only [Packing.messages,List.map_append,List.map_cons,List.map_nil,pushes.sequence,List.length_append,List.length_singleton] at numbered ⊢
    exact numbered
  · have last := packed.last
    simp only [Packing.messages,List.length_append,List.length_singleton] at last ⊢
    exact last

theorem Packed.place {config : TrafficAnalysisConfig} (some_entries : 1 ≤ config.batchMaxEntries) {first : Nat}
    {users more : List TrafficAnalysisUserMinute} {domains further : List TrafficAnalysisDomainMinute} {s : Packing}
    (packed : Packed len config first users domains s) (source : Source) {push : TrafficAnalysisBatch → TrafficAnalysisBatch} {length : Nat}
    (pushes : Pushes len push more further length) :
    Packed len config first (users ++ more) (domains ++ further) (s.place len config source push length) := by
  unfold Packing.place
  simp only
  by_cases full : entries s.message ≥ config.batchMaxEntries ∨ s.size + (length + 8) > config.batchMaxBytes
  · simp only [full,↓reduceIte]
    have empty : entries (Packing.start len source s.sequence (s.enqueued ++ [s.message])).message = 0 := rfl
    apply (packed.next source).pushed pushes
    · omega
    · exact fun started => absurd empty started
  · simp only [full,↓reduceIte]
    exact packed.pushed pushes (by omega) (fun _ => by omega)

/-! ### The rows of both kinds -/

theorem pushes_user (repeated : len.Repeated) {row : TrafficAnalysisUserMinute} (field : len.userField row ≤ len.userMinute row + 8) :
    Pushes len (pushUser row) [row] [] (len.userMinute row) := by
  constructor
  · exact fun _ => rfl
  · exact fun batch => (List.append_nil _).symm
  · exact fun _ => rfl
  · intro batch
    simp [pushUser,entries]
    omega
  · intro batch
    have longer := repeated.user row batch
    omega

theorem pushes_domain (repeated : len.Repeated) {row : TrafficAnalysisDomainMinute} (field : len.domainField row ≤ len.domainMinute row + 8) :
    Pushes len (pushDomain row) [] [row] (len.domainMinute row) := by
  constructor
  · exact fun batch => (List.append_nil _).symm
  · exact fun _ => rfl
  · exact fun _ => rfl
  · intro batch
    simp [pushDomain,entries]
    omega
  · intro batch
    have longer := repeated.domain row batch
    omega

theorem Packed.users_run (repeated : len.Repeated) {config : TrafficAnalysisConfig} (some_entries : 1 ≤ config.batchMaxEntries) (source : Source) {first : Nat}
    {rows : List TrafficAnalysisUserMinute} (fields : ∀ row ∈ rows, len.userField row ≤ len.userMinute row + 8)
    {users : List TrafficAnalysisUserMinute} {domains : List TrafficAnalysisDomainMinute} {s : Packing}
    (packed : Packed len config first users domains s) : Packed len config first (users ++ rows) domains (s.users len config source rows) := by
  unfold Packing.users
  induction rows generalizing users s with
  | nil => simpa using packed
  | cons row rest ih =>
    obtain ⟨field,rest_fields⟩ := List.forall_mem_cons.mp fields
    have once := packed.place some_entries source (pushes_user repeated field)
    rw [List.append_nil] at once
    have tail := ih rest_fields once
    rwa [List.append_assoc] at tail

theorem Packed.domains_run (repeated : len.Repeated) {config : TrafficAnalysisConfig} (some_entries : 1 ≤ config.batchMaxEntries) (source : Source) {first : Nat}
    {rows : List TrafficAnalysisDomainMinute} (fields : ∀ row ∈ rows, len.domainField row ≤ len.domainMinute row + 8)
    {users : List TrafficAnalysisUserMinute} {domains : List TrafficAnalysisDomainMinute} {s : Packing}
    (packed : Packed len config first users domains s) :
    Packed len config first users (domains ++ rows.filter (fun row => !idle row)) (s.domains len config source rows) := by
  unfold Packing.domains
  induction rows generalizing domains s with
  | nil => simpa using packed
  | cons row rest ih =>
    obtain ⟨field,rest_fields⟩ := List.forall_mem_cons.mp fields
    by_cases nothing : idle row = true
    · simp only [List.foldl_cons,nothing,↓reduceIte,Bool.not_true,Bool.false_eq_true,not_false_eq_true,List.filter_cons_of_neg]
      exact ih rest_fields packed
    · simp only [List.foldl_cons,nothing,Bool.not_false,List.filter_cons_of_pos]
      have once := packed.place some_entries source (pushes_domain repeated field)
      rw [List.append_nil] at once
      have tail := ih rest_fields once
      rwa [List.append_assoc] at tail

theorem batchMaxEntries_pos (config : Option TrafficAnalysisConfig) : 1 ≤ (normalizeConfig config).batchMaxEntries := by
  cases config with
  | none => decide
  | some config =>
    simp only [normalizeConfig,bound,defaultConfig]
    split <;> omega

/-! ### A sealed minute -/

variable (len) in
/-- What `seal` is to do with the rows of a bucket: each user row and each domain row with
    something to tell is in one message, messages respect the limits, one that is too long has
    a single row, and the sequence numbers of the messages with rows go up. -/
structure Lossless (config : TrafficAnalysisConfig) (bucket : MinuteBucket) (first : Nat) (messages : List TrafficAnalysisBatch) (last : Nat) : Prop where
  users : (messages.flatMap TrafficAnalysisBatch.userMinutes).Perm (bucket.users.toList.map Prod.snd)
  domains : (messages.flatMap TrafficAnalysisBatch.domainMinutes).Perm ((bucket.domains.toList.map Prod.snd).filter (fun row => !idle row))
  entries : ∀ message ∈ messages, AnalysisRows.entries message ≤ config.batchMaxEntries
  bytes : ∀ message ∈ messages, 1 < AnalysisRows.entries message → len.batch message ≤ config.batchMaxBytes
  refused : ∀ message ∈ messages, AnalysisRows.entries message ≠ 0 → config.batchMaxBytes < len.batch message → AnalysisRows.entries message = 1
  sequence : ∃ offsets : List Nat, offsets.Pairwise (· < ·) ∧ (∀ k ∈ offsets, 0 < k ∧ k ≤ messages.length) ∧
    (messages.filter (fun message => AnalysisRows.entries message ≠ 0)).map TrafficAnalysisBatch.sequence =
      offsets.map (fun k => (first + k) % 18446744073709551616)
  last : last = (first + messages.length) % 18446744073709551616

/-- For every bucket, normalised configuration and order of the rows, sealing a minute loses no
    row and respects the limits. -/
theorem seal_loses_nothing (repeated : len.Repeated) (config : Option TrafficAnalysisConfig) (source : Source) (sequence : Nat) (bucket : MinuteBucket)
    {users : List TrafficAnalysisUserMinute} {domains : List TrafficAnalysisDomainMinute}
    (user_rows : users.Perm (bucket.users.toList.map Prod.snd)) (domain_rows : domains.Perm (bucket.domains.toList.map Prod.snd))
    (user_fields : ∀ row ∈ users, len.userField row ≤ len.userMinute row + 8)
    (domain_fields : ∀ row ∈ domains, len.domainField row ≤ len.domainMinute row + 8) :
    Lossless len (normalizeConfig config) bucket sequence (pack len (normalizeConfig config) source sequence users domains).1
      (pack len (normalizeConfig config) source sequence users domains).2 := by
  have some_entries := batchMaxEntries_pos config
  have packed := ((packed_start len (normalizeConfig config) source sequence).users_run repeated some_entries source user_fields).domains_run
    repeated some_entries source domain_fields
  rw [List.nil_append,List.nil_append] at packed
  constructor
  · have all := packed.users
    rw [← all] at user_rows
    exact user_rows
  · have all := packed.domains
    have kept := domain_rows.filter (fun row => !idle row)
    rw [← all] at kept
    exact kept
  · exact fun message member => (packed.fits message member).entries
  · exact fun message member => (packed.fits message member).bytes
  · intro message member rows long
    have small := (packed.fits message member).bytes
    by_contra several
    have := small (by omega)
    omega
  · have numbers : (((pack len (normalizeConfig config) source sequence users domains).1.filter (fun message => AnalysisRows.entries message ≠ 0)).map
        TrafficAnalysisBatch.sequence).Sublist ((pack len (normalizeConfig config) source sequence users domains).1.map TrafficAnalysisBatch.sequence) :=
      List.filter_sublist.map _
    have all : (pack len (normalizeConfig config) source sequence users domains).1.map TrafficAnalysisBatch.sequence = _ := packed.numbered
    rw [all] at numbers
    obtain ⟨offsets,below,same⟩ := List.sublist_map_iff.mp numbers
    refine ⟨offsets,(List.pairwise_lt_range' 1).sublist below,?_,same⟩
    intro k member
    obtain ⟨_,small,rfl⟩ := List.mem_range'.mp (below.subset member)
    change _ < (pack len (normalizeConfig config) source sequence users domains).1.length at small
    omega
  · exact packed.last

def userLength (row : TrafficAnalysisUserMinute) : Nat :=
  stringLength 1 row.userId + int64Length 2 row.minuteAtUnix + stringLength 3 row.proxyProtocol + stringLength 4 row.network +
    uint64Length 5 row.uplinkBytes + uint64Length 6 row.downlinkBytes + uint64Length 7 row.identifiedUplinkBytes +
    uint64Length 8 row.identifiedDownlinkBytes + uint64Length 9 row.startedSessions + stringLength 10 row.nodeId

def domainLength (row : TrafficAnalysisDomainMinute) : Nat :=
  stringLength 1 row.userId + int64Length 2 row.minuteAtUnix + stringLength 3 row.proxyProtocol + stringLength 4 row.network +
    stringLength 5 row.domain + stringLength 7 row.appProtocol + uint64Length 9 row.uplinkBytes + uint64Length 10 row.downlinkBytes +
    uint64Length 11 row.targetSessions + stringLength 12 row.nodeId + boolLength 13 row.echPresent + stringLength 14 row.destinationDomain

/-- The fields of a batch before its rows. -/
def headerLength (batch : TrafficAnalysisBatch) : Nat :=
  stringLength 1 batch.agentInstanceId + uint64Length 2 batch.epoch + uint64Length 3 batch.sequence + int64Length 4 batch.generatedAtUnix

def encodedLength (batch : TrafficAnalysisBatch) : Nat :=
  headerLength batch + (batch.userMinutes.map (fun row => messageLength 5 (userLength row))).sum +
    (batch.domainMinutes.map (fun row => messageLength 6 (domainLength row))).sum

/-- The lengths of the protobuf encoding. -/
def wireLengths : EncodedLen where
  userMinute := userLength
  domainMinute := domainLength
  batch := encodedLength
  userField row := messageLength 5 (userLength row)
  domainField row := messageLength 6 (domainLength row)

theorem wireLengths_repeated : wireLengths.Repeated := by
  constructor
  · intro row batch
    have same : headerLength (pushUser row batch) = headerLength batch := rfl
    simp only [wireLengths,encodedLength,same]
    simp only [pushUser,List.map_append,List.map_cons,List.map_nil,List.sum_append,List.sum_cons,List.sum_nil]
    omega
  · intro row batch
    have same : headerLength (pushDomain row batch) = headerLength batch := rfl
    simp only [wireLengths,encodedLength,same]
    simp only [pushDomain,List.map_append,List.map_cons,List.map_nil,List.sum_append,List.sum_cons,List.sum_nil]
    omega

private def alice : UserKey := ⟨"node","alice","vless","tcp"⟩

private def bob : UserKey := ⟨"node","bob","vless","udp"⟩

private def aliceMinute : TrafficAnalysisUserMinute := { userRow 60 alice with uplinkBytes := 900, startedSessions := 2 }

private def bobMinute : TrafficAnalysisUserMinute := { userRow 60 bob with downlinkBytes := 70 }

private def visit (user : UserKey) (domain : String) : DomainKey := ⟨user,domain,"","tls",false⟩

private def exampleMinute : TrafficAnalysisDomainMinute := { domainRow 60 (visit alice "a.example") with uplinkBytes := 900 }

private def idleMinute : TrafficAnalysisDomainMinute := domainRow 60 (visit alice "b.example")

private def sessionMinute : TrafficAnalysisDomainMinute := { domainRow 60 (visit bob "c.example") with downlinkBytes := 70, targetSessions := 1 }

/-- A minute of two users and three domains, one of them with nothing to tell. -/
private def sampleMinute : MinuteBucket :=
  { MinuteBucket.new 60 with
    users := ((∅ : Map UserKey TrafficAnalysisUserMinute).insert alice aliceMinute).insert bob bobMinute
    domains := (((∅ : Map DomainKey TrafficAnalysisDomainMinute).insert (visit alice "a.example") exampleMinute).insert
      (visit alice "b.example") idleMinute).insert (visit bob "c.example") sessionMinute }

/-- Messages of at most three rows. -/
private def threeRows : TrafficAnalysisConfig := ⟨true,3,0,0,0,0,0,0⟩

theorem seal_loses_nothing_three_rows :
    pack wireLengths (normalizeConfig (some threeRows)) ⟨"agent",1,120⟩ 7 [aliceMinute,bobMinute] [exampleMinute,idleMinute,sessionMinute] =
      ([⟨"agent",1,8,120,[aliceMinute,bobMinute],[exampleMinute]⟩,⟨"agent",1,9,120,[],[sessionMinute]⟩],9) ∧
    Lossless wireLengths (normalizeConfig (some threeRows)) sampleMinute 7
      [⟨"agent",1,8,120,[aliceMinute,bobMinute],[exampleMinute]⟩,⟨"agent",1,9,120,[],[sessionMinute]⟩] 9 := by
  have packed : pack wireLengths (normalizeConfig (some threeRows)) ⟨"agent",1,120⟩ 7 [aliceMinute,bobMinute] [exampleMinute,idleMinute,sessionMinute] =
      ([⟨"agent",1,8,120,[aliceMinute,bobMinute],[exampleMinute]⟩,⟨"agent",1,9,120,[],[sessionMinute]⟩],9) := by decide +kernel
  have users : [aliceMinute,bobMinute].Perm (sampleMinute.users.toList.map Prod.snd) := .of_eq (by decide +kernel)
  have domains : [exampleMinute,idleMinute,sessionMinute].Perm (sampleMinute.domains.toList.map Prod.snd) := .of_eq (by decide +kernel)
  have lossless := seal_loses_nothing wireLengths_repeated (some threeRows) ⟨"agent",1,120⟩ 7 sampleMinute
    users domains (by decide +kernel) (by decide +kernel)
  rw [packed] at lossless
  exact ⟨packed,lossless⟩

/-! ### The rows of a sealed minute in the collector -/

/-- The rows that wait in the queue. -/
def queuedEntries (s : Collector) : Nat := (s.queue.map (fun batch => entries batch.message)).sum

/-- Rows that are passed to `enqueue` are in the queue or counted as dropped. -/
theorem enqueue_accounts (s : Collector) (message : TrafficAnalysisBatch) (length : Nat) :
    queuedEntries (s.enqueue message length) + (s.enqueue message length).gauge.droppedEntries =
      queuedEntries s + s.gauge.droppedEntries + entries message := by
  unfold Collector.enqueue
  by_cases empty : entries message = 0
  · simp [empty]
  · simp only [empty,↓reduceIte]
    by_cases long : length > s.gauge.limits.batchMaxBytes
    · simp only [long,↓reduceIte,reason_dropped,queuedEntries]
      omega
    · by_cases full : s.queueBytes + batchCost message length > s.gauge.limits.queueMaxBytes
      · simp only [long,full,↓reduceIte,reason_dropped,queuedEntries]
        omega
      · simp only [long,full,↓reduceIte]
        have kept := reserve_dropped s.gauge (batchCost message length)
        rcases reserved : s.gauge.reserve (batchCost message length) with ⟨granted,g⟩
        rw [reserved] at kept
        simp only at kept
        cases granted with
        | false =>
          simp only [reason_dropped,queuedEntries,kept]
          omega
        | true =>
          simp only [queuedEntries,kept,List.map_append,List.map_cons,List.map_nil,List.sum_append,List.sum_cons,List.sum_nil]
          omega

theorem enqueueAll_accounts (messages : List (TrafficAnalysisBatch × Nat)) (s : Collector) :
    queuedEntries (messages.foldl (fun s message => s.enqueue message.1 message.2) s) +
        (messages.foldl (fun s message => s.enqueue message.1 message.2) s).gauge.droppedEntries =
      queuedEntries s + s.gauge.droppedEntries + (messages.map (fun message => entries message.1)).sum := by
  induction messages generalizing s with
  | nil => rfl
  | cons message rest ih =>
    have once := enqueue_accounts s message.1 message.2
    have tail := ih (s.enqueue message.1 message.2)
    simp only [List.foldl_cons,List.map_cons,List.sum_cons]
    omega

theorem entries_sum (messages : List TrafficAnalysisBatch) : (messages.map entries).sum =
    (messages.flatMap TrafficAnalysisBatch.userMinutes).length + (messages.flatMap TrafficAnalysisBatch.domainMinutes).length := by
  induction messages with
  | nil => rfl
  | cons message rest ih =>
    simp only [List.map_cons,List.sum_cons,List.flatMap_cons,List.length_append,ih,entries]
    omega

/-- After `seal`, every row of the bucket with something to tell waits in the queue or is
    counted as dropped. -/
theorem sealRows_accounts {s : Collector} {bucket : MinuteBucket} (there : s.bucket = some bucket) (source : Source) {first : Nat}
    {users : List TrafficAnalysisUserMinute} {domains : List TrafficAnalysisDomainMinute} {last : Nat}
    (lossless : Lossless len s.gauge.limits bucket first (pack len s.gauge.limits source first users domains).1 last) :
    queuedEntries (sealRows len s source first users domains) + (sealRows len s source first users domains).gauge.droppedEntries =
      queuedEntries s + s.gauge.droppedEntries + bucket.users.size + (bucket.domains.toList.countP (fun entry => !idle entry.2)) := by
  have all := enqueueAll_accounts ((pack len s.gauge.limits source first users domains).1.map (fun message => (message,len.batch message)))
    { s with bucket := none }
  have rows := entries_sum (pack len s.gauge.limits source first users domains).1
  have user_count := lossless.users.length_eq
  have domain_count := lossless.domains.length_eq
  rw [List.length_map] at user_count
  rw [← List.countP_eq_length_filter,List.countP_map] at domain_count
  rw [List.map_map,show (fun message : TrafficAnalysisBatch × Nat => entries message.1) ∘ (fun message => (message,len.batch message)) = entries from rfl,
    rows,user_count,domain_count,Std.ExtTreeMap.length_toList] at all
  simp only [sealRows,Collector.seal,there]
  exact all.trans (Nat.add_assoc _ _ _).symm

end Lengths

end NodeAgent.AnalysisSealing
