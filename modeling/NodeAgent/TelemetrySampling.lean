import NodeAgent.Transition
import Mathlib.Data.List.Basic

/-!
Telemetry of the host. A probe leaves its readings in a cache, the sampler publishes what it
finds there when it is woken or when a heartbeat is due, and every stream sends the latest
sample that it has not yet sent. One clock of nanoseconds runs behind all of them.
-/
namespace NodeAgent.TelemetrySampling
open NodeAgent.Transition

/-- Six seconds. -/
def MAX_SAMPLE_AGE : ℕ := 6000000000
def DYNAMIC_MAX_AGE : ℕ := 6000000000
def MAX_SAMPLE_AGE_MS : ℕ := 6000

def u64Max : ℕ := 18446744073709551615

structure NetworkInterface where
  countersValid : Bool
  rxBytes : ℕ
  txBytes : ℕ
  rxPackets : ℕ
  txPackets : ℕ
deriving DecidableEq

/-- What a probe reads. The last field records which reading it is and is never read. -/
structure HostSnapshot where
  collectedAt : Option ℕ
  cpuValid : Bool
  memoryValid : Bool
  networkInterfacesValid : Bool
  cpuPercent : ℕ
  memoryUsedBytes : ℕ
  memoryTotalBytes : ℕ
  networkInterfaces : List NetworkInterface
  reading : ℕ
deriving DecidableEq

def HostSnapshot.default : HostSnapshot := ⟨none,false,false,false,0,0,0,[],0⟩

/-- Some counter is said to be valid. -/
def HostSnapshot.hasCounters (host : HostSnapshot) : Bool :=
  host.cpuValid || host.memoryValid || host.networkInterfacesValid || host.networkInterfaces.any NetworkInterface.countersValid

/-! ### The sampler -/

/-- A copy of the cache, without its counters if they are old. -/
def collect (now : ℕ) (cache : HostSnapshot) : HostSnapshot :=
  if cache.collectedAt.all (fun collected => now - collected > DYNAMIC_MAX_AGE) then
    { cache with
      cpuValid := false
      memoryValid := false
      networkInterfacesValid := false
      networkInterfaces := cache.networkInterfaces.map (fun interface => { interface with countersValid := false }) }
  else cache

/-- `Option<Instant>` with nothing before every instant. -/
def notAfter : Option ℕ → Option ℕ → Bool
  | none, _ => true
  | some _, none => false
  | some a, some b => a ≤ b

/-- The instant that a sample is of, the host that it tells, and the last instant from now on. -/
def sampleCollection (now : ℕ) (host : HostSnapshot) (lastCollection : Option ℕ) : Option ℕ × HostSnapshot × Option ℕ :=
  if host.collectedAt.all (fun collected => now - collected > MAX_SAMPLE_AGE) then
    (some now,
      { host with
        cpuValid := false
        cpuPercent := 0
        memoryValid := false
        memoryUsedBytes := 0
        memoryTotalBytes := 0
        networkInterfacesValid := false
        networkInterfaces := host.networkInterfaces.map (fun _ => ⟨false,0,0,0,0⟩) },
      some now)
  else if notAfter host.collectedAt lastCollection then (none,host,lastCollection)
  else (host.collectedAt,host,host.collectedAt)

/-- Milliseconds since the start. -/
def elapsedMs (startedAt now : ℕ) : ℕ := min u64Max ((now - startedAt) / 1000000)

/-- The fields of a published sample that the sampler and the streams use. -/
structure TelemetrySnapshot where
  sampleSeq : ℕ
  sampleElapsedMs : ℕ
  host : HostSnapshot
deriving DecidableEq

inductive Sampler
  | waiting
  | awake
  | collected (host : HostSnapshot)
  /-- The instant of the sample, and when the clock was read for it. -/
  | sampled (host : HostSnapshot) (collectedAt checkedAt : ℕ)
deriving DecidableEq

/-! ### Streams -/

def sampleIsFresh (snapshot : TelemetrySnapshot) (baselineMs nowMs : ℕ) : Bool :=
  baselineMs ≤ snapshot.sampleElapsedMs && nowMs - snapshot.sampleElapsedMs ≤ MAX_SAMPLE_AGE_MS

inductive Stage
  /-- The handshake is done, and the baseline is known. -/
  | ready
  | selecting
  | selected (snapshot : TelemetrySnapshot)
  | sending (snapshot : TelemetrySnapshot) (nowMs : ℕ)
  | ended
deriving DecidableEq

/-- A stream, with what it has sent and when that was selected. -/
structure Stream where
  baselineMs : ℕ
  stage : Stage
  lastSequence : ℕ
  sent : List (TelemetrySnapshot × ℕ)
deriving DecidableEq

/-! ### The system -/

/-- A publication, for the record: the instant that the sample is of, when the clock was read
    for it, and when it was published. -/
structure Published where
  snapshot : TelemetrySnapshot
  collectedAt : ℕ
  checkedAt : ℕ
  publishedAt : ℕ
deriving DecidableEq

/-- The probe, the sampler and all streams. The two last fields record the completion times of
    all readings and all publications, and are never read. -/
structure World where
  clock : ℕ
  startedAt : ℕ
  probe : Option HostSnapshot
  cache : HostSnapshot
  changed : Bool
  sampler : Sampler
  lastCollection : Option ℕ
  sequence : ℕ
  latest : Option TelemetrySnapshot
  streams : List Stream
  completed : List ℕ
  published : List Published

def initial (startedAt : ℕ) : World := ⟨startedAt,startedAt,none,HostSnapshot.default,false,.waiting,none,0,none,[],[],[]⟩

inductive Action
  /-- Time passes. -/
  | tick (nanoseconds : ℕ)
  /-- A reading of the probe is complete. -/
  | complete (host : HostSnapshot)
  /-- A reading took too long and is thrown away. -/
  | discard
  /-- The probe leaves its reading in the cache. -/
  | store
  /-- The sampler is woken by the probe, or by its heartbeat. -/
  | notified
  | heartbeat
  | collect
  | sampleCollection
  | publish
  /-- A stream has shaken hands. -/
  | handshake
  | subscribe (id : ℕ)
  | nextSample (id : ℕ)
  | sampleIsFresh (id : ℕ)
  | sent (id : ℕ)
  /-- A stream ends at any point. -/
  | ended (id : ℕ)
deriving DecidableEq

def World.setStream (w : World) (id : ℕ) (stream : Stream) : World := { w with streams := w.streams.set id stream }

def step (w : World) : Action → Option World
  | .tick nanoseconds => some { w with clock := w.clock + nanoseconds }
  | .complete host =>
    match w.probe with
    | some _ => none
    | none => some { w with probe := some { host with collectedAt := some w.clock, reading := w.completed.length }, completed := w.completed ++ [w.clock] }
  | .discard =>
    match w.probe with
    | some _ => none
    | none => some { w with probe := some HostSnapshot.default }
  | .store =>
    match w.probe with
    | none => none
    | some host => some { w with probe := none, cache := host, changed := true }
  | .notified => if w.sampler = .waiting ∧ w.changed then some { w with sampler := .awake, changed := false } else none
  | .heartbeat => if w.sampler = .waiting then some { w with sampler := .awake } else none
  | .collect => if w.sampler = .awake then some { w with sampler := .collected (collect w.clock w.cache) } else none
  | .sampleCollection =>
    match w.sampler with
    | .collected host =>
      match sampleCollection w.clock host w.lastCollection with
      | (none,_,last) => some { w with sampler := .waiting, lastCollection := last }
      | (some collected,host,last) => some { w with sampler := .sampled host collected w.clock, lastCollection := last }
    | _ => none
  | .publish =>
    match w.sampler with
    | .sampled host collected checked =>
      let snapshot : TelemetrySnapshot := ⟨w.sequence + 1,elapsedMs w.startedAt collected,host⟩
      some { w with
        sampler := .waiting
        sequence := w.sequence + 1
        latest := some snapshot
        published := w.published ++ [⟨snapshot,collected,checked,w.clock⟩] }
    | _ => none
  | .handshake => some { w with streams := w.streams ++ [⟨elapsedMs w.startedAt w.clock,.ready,0,[]⟩] }
  | .subscribe id =>
    match w.streams[id]? with
    | some ⟨baselineMs,.ready,_,sent⟩ => some (w.setStream id ⟨baselineMs,.selecting,0,sent⟩)
    | _ => none
  | .nextSample id =>
    match w.streams[id]?,w.latest with
    | some ⟨baselineMs,.selecting,lastSequence,sent⟩,some snapshot =>
      if snapshot.sampleSeq > lastSequence then some (w.setStream id ⟨baselineMs,.selected snapshot,snapshot.sampleSeq,sent⟩) else none
    | _,_ => none
  | .sampleIsFresh id =>
    match w.streams[id]? with
    | some ⟨baselineMs,.selected snapshot,lastSequence,sent⟩ =>
      let nowMs := elapsedMs w.startedAt w.clock
      if sampleIsFresh snapshot baselineMs nowMs then some (w.setStream id ⟨baselineMs,.sending snapshot nowMs,lastSequence,sent⟩)
      else some (w.setStream id ⟨baselineMs,.selecting,lastSequence,sent⟩)
    | _ => none
  | .sent id =>
    match w.streams[id]? with
    | some ⟨baselineMs,.sending snapshot nowMs,lastSequence,sent⟩ => some (w.setStream id ⟨baselineMs,.selecting,lastSequence,sent ++ [(snapshot,nowMs)]⟩)
    | _ => none
  | .ended id =>
    match w.streams[id]? with
    | some stream => some (w.setStream id { stream with stage := .ended })
    | none => none

/-! ### Single samples -/

theorem hasCounters_invalid (host : HostSnapshot) (interfaces : List NetworkInterface) (plain : ∀ interface ∈ interfaces, interface.countersValid = false)
    (percent used total : ℕ) : HostSnapshot.hasCounters { host with
      cpuValid := false, cpuPercent := percent, memoryValid := false, memoryUsedBytes := used, memoryTotalBytes := total,
      networkInterfacesValid := false, networkInterfaces := interfaces } = false := by
  unfold HostSnapshot.hasCounters
  simpa using plain

/-- What the sampler takes: an instant that is not before the last one. Valid counters are of a
    reading that completed at that instant, after the last one, and is not too old. -/
theorem sampleCollection_spec {now : ℕ} {host host' : HostSnapshot} {last last' : Option ℕ} {collected : ℕ}
    (past : ∀ m, last = some m → m ≤ now) (known : ∀ t, host.collectedAt = some t → t ≤ now)
    (took : sampleCollection now host last = (some collected,host',last')) :
    last' = some collected ∧ collected ≤ now ∧ (∀ m, last = some m → m ≤ collected) ∧
      (host'.hasCounters = true → host' = host ∧ host.collectedAt = some collected ∧ now - collected ≤ MAX_SAMPLE_AGE ∧ ∀ m, last = some m → m < collected) := by
  unfold sampleCollection at took
  split at took
  · cases took
    refine ⟨rfl,Nat.le_refl _,past,?_⟩
    intro counters
    rw [hasCounters_invalid host _ (by simp) 0 0 0] at counters
    cases counters
  · next fresh =>
    split at took
    · cases took
    · next after =>
      simp only [Prod.mk.injEq] at took
      obtain ⟨own,rfl,rfl⟩ := took
      rw [own] at fresh after
      have young : now - collected ≤ MAX_SAMPLE_AGE := by simpa using fresh
      have later (m : ℕ) (before : last = some m) : m < collected := by
        rw [before] at after
        simpa [notAfter] using after
      exact ⟨own,known collected own,fun m before => Nat.le_of_lt (later m before),fun _ => ⟨rfl,own,young,later⟩⟩

theorem sampleCollection_skip {now : ℕ} {host host' : HostSnapshot} {last last' : Option ℕ} (took : sampleCollection now host last = (none,host',last')) :
    last' = last := by
  unfold sampleCollection at took
  split at took
  · cases took
  · split at took
    · cases took
      rfl
    · next old =>
      cases known : host.collectedAt with
      | none => simp [known,notAfter] at old
      | some t => simp [known] at took

theorem collect_collectedAt (now : ℕ) (cache : HostSnapshot) : (collect now cache).collectedAt = cache.collectedAt ∧ (collect now cache).reading = cache.reading := by
  unfold collect
  split <;> exact ⟨rfl,rfl⟩

theorem elapsedMs_mono (startedAt : ℕ) {a b : ℕ} (later : a ≤ b) : elapsedMs startedAt a ≤ elapsedMs startedAt b := by
  unfold elapsedMs
  have divided : (a - startedAt) / 1000000 ≤ (b - startedAt) / 1000000 := Nat.div_le_div_right (by omega)
  omega

/-! ### The sampler at every point -/

/-- A host snapshot that is of a reading, or of none. -/
def Known (clock : ℕ) (completed : List ℕ) (host : HostSnapshot) : Prop := ∀ t, host.collectedAt = some t → t ≤ clock ∧ completed[host.reading]? = some t

/-- What holds of a sample with its instant and the time of its check. -/
structure Timed (clock : ℕ) (completed : List ℕ) (host : HostSnapshot) (collected checked : ℕ) : Prop where
  instants : collected ≤ checked ∧ checked ≤ clock
  counters : host.hasCounters = true → host.collectedAt = some collected ∧ completed[host.reading]? = some collected ∧ checked - collected ≤ MAX_SAMPLE_AGE

/-- The invariant of the probe and the sampler. -/
structure Timely (w : World) : Prop where
  cache : Known w.clock w.completed w.cache
  probe : ∀ host, w.probe = some host → Known w.clock w.completed host
  hand : ∀ host, w.sampler = .collected host → Known w.clock w.completed host
  last : ∀ m, w.lastCollection = some m → m ≤ w.clock
  sampled : ∀ host collected checked, w.sampler = .sampled host collected checked → w.lastCollection = some collected ∧ Timed w.clock w.completed host collected checked ∧
    (host.hasCounters = true → ∀ entry ∈ w.published, entry.collectedAt < collected)
  behind : ∀ entry ∈ w.published, ∃ m, w.lastCollection = some m ∧ entry.collectedAt ≤ m
  entries : ∀ entry ∈ w.published, entry.snapshot.sampleElapsedMs = elapsedMs w.startedAt entry.collectedAt ∧ entry.snapshot.sampleSeq ≤ w.sequence ∧
    Timed w.clock w.completed entry.snapshot.host entry.collectedAt entry.checkedAt
  ordered : w.published.Pairwise (fun a b => a.snapshot.sampleSeq < b.snapshot.sampleSeq ∧ a.collectedAt ≤ b.collectedAt ∧
    (b.snapshot.host.hasCounters = true → a.collectedAt < b.collectedAt))
  latest : ∀ snapshot, w.latest = some snapshot → ∃ entry ∈ w.published, entry.snapshot = snapshot

theorem timely_initial (startedAt : ℕ) : Timely (initial startedAt) where
  cache _ impossible := by cases impossible
  probe _ impossible := by cases impossible
  hand _ impossible := by cases impossible
  last _ impossible := by cases impossible
  sampled _ _ _ impossible := by cases impossible
  behind _ member := absurd member List.not_mem_nil
  entries _ member := absurd member List.not_mem_nil
  ordered := List.Pairwise.nil
  latest _ impossible := by cases impossible

section Steps
variable {w w' : World}

/-- More time and more readings change nothing about what is known. -/
theorem Known.more {clock clock' : ℕ} {completed : List ℕ} {host : HostSnapshot} (known : Known clock completed host) (later : clock ≤ clock') (more : List ℕ) :
    Known clock' (completed ++ more) host := by
  intro t own
  obtain ⟨past,place⟩ := known t own
  have before := (List.getElem?_eq_some_iff.mp place).1
  exact ⟨Nat.le_trans past later,by rw [List.getElem?_append_left before,place]⟩

theorem Timed.more {clock clock' : ℕ} {completed : List ℕ} {host : HostSnapshot} {collected checked : ℕ} (timed : Timed clock completed host collected checked)
    (later : clock ≤ clock') (more : List ℕ) : Timed clock' (completed ++ more) host collected checked := by
  refine ⟨⟨timed.instants.1,Nat.le_trans timed.instants.2 later⟩,?_⟩
  intro counters
  obtain ⟨own,place,young⟩ := timed.counters counters
  have before := (List.getElem?_eq_some_iff.mp place).1
  exact ⟨own,by rw [List.getElem?_append_left before,place],young⟩

/-- Time passes, and readings are completed. -/
theorem timely_more (before : Timely w) {clock : ℕ} (later : w.clock ≤ clock) (completed : List ℕ) {probe : Option HostSnapshot}
    (known : ∀ host, probe = some host → Known clock (w.completed ++ completed) host) :
    Timely { w with clock := clock, completed := w.completed ++ completed, probe := probe } where
  cache := before.cache.more later completed
  probe := known
  hand host own := (before.hand host own).more later completed
  last m own := Nat.le_trans (before.last m own) later
  sampled host collected checked own := by
    obtain ⟨last,timed,newer⟩ := before.sampled host collected checked own
    exact ⟨last,timed.more later completed,newer⟩
  behind := before.behind
  entries entry member := by
    obtain ⟨elapsed,number,timed⟩ := before.entries entry member
    exact ⟨elapsed,number,timed.more later completed⟩
  ordered := before.ordered
  latest := before.latest

theorem timely_sampleCollection (before : Timely w) (taken : step w .sampleCollection = some w') : Timely w' := by
  dsimp only [step] at taken
  split at taken
  · next host own =>
    have known := before.hand host own
    split at taken
    · next host' last' took =>
      cases taken
      obtain rfl := sampleCollection_skip took
      exact ⟨before.cache,before.probe,(by intro _ impossible; cases impossible),before.last,(by intro _ _ _ impossible; cases impossible),before.behind,
        before.entries,before.ordered,before.latest⟩
    · next collected host' last' took =>
      cases taken
      obtain ⟨rfl,past,notBefore,counters⟩ := sampleCollection_spec before.last (fun t own => (known t own).1) took
      refine ⟨before.cache,before.probe,(by intro _ impossible; cases impossible),?_,?_,?_,before.entries,before.ordered,before.latest⟩
      · rintro m same
        cases same
        exact past
      · intro _ _ _ same
        cases same
        refine ⟨rfl,⟨⟨past,Nat.le_refl _⟩,?_⟩,?_⟩
        · intro valid
          obtain ⟨rfl,own',young,_⟩ := counters valid
          exact ⟨own',(known _ own').2,young⟩
        · intro valid entry member
          obtain ⟨_,_,_,newer⟩ := counters valid
          obtain ⟨m,isLast,behind⟩ := before.behind entry member
          exact Nat.lt_of_le_of_lt behind (newer m isLast)
      · intro entry member
        obtain ⟨m,isLast,behind⟩ := before.behind entry member
        exact ⟨_,rfl,Nat.le_trans behind (notBefore m isLast)⟩
  · cases taken

theorem timely_publish (before : Timely w) (taken : step w .publish = some w') : Timely w' := by
  dsimp only [step] at taken
  split at taken
  · next host collected checked own =>
    cases taken
    obtain ⟨isLast,timed,newer⟩ := before.sampled host collected checked own
    refine ⟨before.cache,before.probe,(by intro _ impossible; cases impossible),before.last,(by intro _ _ _ impossible; cases impossible),?_,?_,?_,?_⟩
    · intro entry member
      rcases List.mem_append.mp member with old | new
      · exact before.behind entry old
      · rw [List.mem_singleton] at new
        subst new
        exact ⟨collected,isLast,Nat.le_refl _⟩
    · intro entry member
      rcases List.mem_append.mp member with old | new
      · obtain ⟨elapsed,number,timed⟩ := before.entries entry old
        exact ⟨elapsed,Nat.le_succ_of_le number,timed⟩
      · rw [List.mem_singleton] at new
        subst new
        exact ⟨rfl,Nat.le_refl _,timed⟩
    · refine List.pairwise_append.mpr ⟨before.ordered,by simp,?_⟩
      intro entry member next new
      rw [List.mem_singleton] at new
      subst new
      obtain ⟨m,isLast',behind⟩ := before.behind entry member
      obtain rfl := Option.some.inj (isLast.symm.trans isLast')
      exact ⟨Nat.lt_succ_of_le (before.entries entry member).2.1,behind,fun valid => newer valid entry member⟩
    · rintro snapshot same
      cases same
      exact ⟨_,List.mem_append_right _ (List.mem_singleton_self _),rfl⟩
  · cases taken

/-- The probe and the cache change. -/
theorem timely_probe (before : Timely w) {cache : HostSnapshot} (known : Known w.clock w.completed cache) {probe : Option HostSnapshot}
    (left : ∀ host, probe = some host → Known w.clock w.completed host) (changed : Bool) : Timely { w with probe := probe, cache := cache, changed := changed } where
  cache := known
  probe := left
  hand := before.hand
  last := before.last
  sampled := before.sampled
  behind := before.behind
  entries := before.entries
  ordered := before.ordered
  latest := before.latest

/-- The sampler moves on to a point without a sample. -/
theorem timely_sampler (before : Timely w) (changed : Bool) {sampler : Sampler} (hand : ∀ host, sampler = .collected host → Known w.clock w.completed host)
    (idle : ∀ host collected checked, sampler ≠ .sampled host collected checked) : Timely { w with changed := changed, sampler := sampler } where
  cache := before.cache
  probe := before.probe
  hand := hand
  last := before.last
  sampled host collected checked own := absurd own (idle host collected checked)
  behind := before.behind
  entries := before.entries
  ordered := before.ordered
  latest := before.latest

theorem timely_streams (before : Timely w) (streams : List Stream) : Timely { w with streams := streams } where
  cache := before.cache
  probe := before.probe
  hand := before.hand
  last := before.last
  sampled := before.sampled
  behind := before.behind
  entries := before.entries
  ordered := before.ordered
  latest := before.latest

/-! ### Streams at every point -/

def WasPublished (published : List Published) (snapshot : TelemetrySnapshot) : Prop := ∃ entry ∈ published, entry.snapshot = snapshot

/-- A sample that a stream has in its hands: it is newer than what was sent. -/
structure Next (published : List Published) (stream : Stream) (snapshot : TelemetrySnapshot) : Prop where
  number : snapshot.sampleSeq = stream.lastSequence
  newer : ∀ other ∈ stream.sent, other.1.sampleSeq < snapshot.sampleSeq
  published : WasPublished published snapshot

/-- A sample that was fresh when it was selected. -/
def Fresh (stream : Stream) (snapshot : TelemetrySnapshot) (nowMs : ℕ) : Prop :=
  stream.baselineMs ≤ snapshot.sampleElapsedMs ∧ nowMs - snapshot.sampleElapsedMs ≤ MAX_SAMPLE_AGE_MS

/-- The invariant of one stream. -/
structure Orderly (published : List Published) (stream : Stream) : Prop where
  sent : stream.sent.Pairwise (fun a b => a.1.sampleSeq < b.1.sampleSeq)
  past : ∀ other ∈ stream.sent, other.1.sampleSeq ≤ stream.lastSequence
  fresh : ∀ other ∈ stream.sent, Fresh stream other.1 other.2 ∧ WasPublished published other.1
  ready : stream.stage = .ready → stream.sent = []
  selected : ∀ snapshot, stream.stage = .selected snapshot → Next published stream snapshot
  sending : ∀ snapshot nowMs, stream.stage = .sending snapshot nowMs → Next published stream snapshot ∧ Fresh stream snapshot nowMs

section Orders
variable {published : List Published} {stream : Stream}

/-- Later publications change nothing for a stream. -/
theorem Orderly.more (orderly : Orderly published stream) (more : List Published) : Orderly (published ++ more) stream := by
  have still (snapshot : TelemetrySnapshot) (old : WasPublished published snapshot) : WasPublished (published ++ more) snapshot := by
    obtain ⟨entry,member,own⟩ := old
    exact ⟨entry,List.mem_append_left _ member,own⟩
  have next (snapshot : TelemetrySnapshot) (old : Next published stream snapshot) : Next (published ++ more) stream snapshot :=
    ⟨old.number,old.newer,still snapshot old.published⟩
  refine ⟨orderly.sent,orderly.past,?_,orderly.ready,?_,?_⟩
  · intro other member
    exact ⟨(orderly.fresh other member).1,still _ (orderly.fresh other member).2⟩
  · intro snapshot own
    exact next snapshot (orderly.selected snapshot own)
  · intro snapshot nowMs own
    exact ⟨next snapshot (orderly.sending snapshot nowMs own).1,(orderly.sending snapshot nowMs own).2⟩

/-- A stream between two samples. -/
theorem Orderly.idle (orderly : Orderly published stream) {stage : Stage} (notReady : stage ≠ .ready)
    (notSelected : ∀ snapshot, stage ≠ .selected snapshot) (notSending : ∀ snapshot nowMs, stage ≠ .sending snapshot nowMs) :
    Orderly published { stream with stage := stage } where
  sent := orderly.sent
  past := orderly.past
  fresh := orderly.fresh
  ready own := absurd own notReady
  selected snapshot own := absurd own (notSelected snapshot)
  sending snapshot nowMs own := absurd own (notSending snapshot nowMs)

end Orders

theorem orderly_set {id : ℕ} {stream : Stream} (before : ∀ stream ∈ w.streams, Orderly w.published stream) (own : Orderly w.published stream) :
    ∀ other ∈ (w.setStream id stream).streams, Orderly w.published other := by
  intro other member
  rcases List.mem_or_eq_of_mem_set member with old | rfl
  · exact before other old
  · exact own

/-- One step of a stream. -/
theorem orderly_stream (timely : Timely w) (before : ∀ stream ∈ w.streams, Orderly w.published stream) {id : ℕ} {action : Action}
    (kind : action = .subscribe id ∨ action = .nextSample id ∨ action = .sampleIsFresh id ∨ action = .sent id ∨ action = .ended id)
    (taken : step w action = some w') : ∃ stream, w' = w.setStream id stream ∧ Orderly w.published stream := by
  rcases kind with rfl | rfl | rfl | rfl | rfl
  · dsimp only [step] at taken
    split at taken
    · next baselineMs lastSequence sent found =>
      cases taken
      have orderly := before _ (List.mem_of_getElem? found)
      have none : sent = [] := orderly.ready rfl
      subst none
      exact ⟨_,rfl,⟨List.Pairwise.nil,by simp,by simp,by simp,by simp,by simp⟩⟩
    · cases taken
  · dsimp only [step] at taken
    split at taken
    · next baselineMs lastSequence sent snapshot found latest =>
      split at taken
      · next newer =>
        cases taken
        have orderly := before _ (List.mem_of_getElem? found)
        have later (other : TelemetrySnapshot × ℕ) (member : other ∈ sent) : other.1.sampleSeq < snapshot.sampleSeq :=
          Nat.lt_of_le_of_lt (orderly.past other member) newer
        refine ⟨_,rfl,⟨orderly.sent,fun other member => Nat.le_of_lt (later other member),orderly.fresh,by simp,?_,by simp⟩⟩
        rintro _ same
        cases same
        exact ⟨rfl,later,timely.latest snapshot latest⟩
      · cases taken
    · cases taken
  · dsimp only [step] at taken
    split at taken
    · next baselineMs snapshot lastSequence sent found =>
      have orderly := before _ (List.mem_of_getElem? found)
      split at taken
      · next fresh =>
        cases taken
        have own := orderly.selected snapshot rfl
        have young : Fresh ⟨baselineMs,.selected snapshot,lastSequence,sent⟩ snapshot (elapsedMs w.startedAt w.clock) := by
          simpa [sampleIsFresh,Fresh] using fresh
        refine ⟨_,rfl,⟨orderly.sent,orderly.past,orderly.fresh,by simp,by simp,?_⟩⟩
        rintro _ _ same
        cases same
        exact ⟨⟨own.number,own.newer,own.published⟩,young⟩
      · cases taken
        exact ⟨_,rfl,orderly.idle (by simp) (by simp) (by simp)⟩
    · cases taken
  · dsimp only [step] at taken
    split at taken
    · next baselineMs snapshot nowMs lastSequence sent found =>
      cases taken
      have orderly := before _ (List.mem_of_getElem? found)
      obtain ⟨next,fresh⟩ := orderly.sending snapshot nowMs rfl
      have last : snapshot.sampleSeq = lastSequence := next.number
      refine ⟨_,rfl,⟨?_,?_,?_,by simp,by simp,by simp⟩⟩
      · refine List.pairwise_append.mpr ⟨orderly.sent,by simp,?_⟩
        intro other member new own
        rw [List.mem_singleton] at own
        subst own
        exact next.newer other member
      · intro other member
        rcases List.mem_append.mp member with old | new
        · exact orderly.past other old
        · rw [List.mem_singleton] at new
          subst new
          exact Nat.le_of_eq last
      · intro other member
        rcases List.mem_append.mp member with old | new
        · exact orderly.fresh other old
        · rw [List.mem_singleton] at new
          subst new
          exact ⟨fresh,next.published⟩
    · cases taken
  · dsimp only [step] at taken
    split at taken
    · next stream found =>
      cases taken
      have orderly := before _ (List.mem_of_getElem? found)
      exact ⟨_,rfl,orderly.idle (by simp) (by simp) (by simp)⟩
    · cases taken

/-! ### Runs -/

structure Ordered (w : World) : Prop where
  timely : Timely w
  streams : ∀ stream ∈ w.streams, Orderly w.published stream

theorem ordered_stream (before : Ordered w) {id : ℕ} {action : Action}
    (kind : action = .subscribe id ∨ action = .nextSample id ∨ action = .sampleIsFresh id ∨ action = .sent id ∨ action = .ended id)
    (taken : step w action = some w') : Ordered w' := by
  obtain ⟨stream,rfl,orderly⟩ := orderly_stream before.timely before.streams kind taken
  exact ⟨timely_streams before.timely _,orderly_set before.streams orderly⟩

theorem ordered_step (before : Ordered w) {action : Action} (taken : step w action = some w') : Ordered w' := by
  have timely := before.timely
  cases action with
  | tick nanoseconds =>
    cases taken
    have known (host : HostSnapshot) (own : w.probe = some host) : Known (w.clock + nanoseconds) (w.completed ++ []) host :=
      (timely.probe host own).more (Nat.le_add_right ..) []
    have more := timely_more timely (Nat.le_add_right w.clock nanoseconds) [] known
    rw [List.append_nil] at more
    exact ⟨more,before.streams⟩
  | complete host =>
    dsimp only [step] at taken
    split at taken
    · cases taken
    · cases taken
      refine ⟨timely_more timely (Nat.le_refl _) [w.clock] ?_,before.streams⟩
      rintro _ same t own
      cases same
      cases own
      exact ⟨Nat.le_refl _,by simp⟩
  | discard =>
    dsimp only [step] at taken
    split at taken
    · cases taken
    · cases taken
      refine ⟨timely_probe timely timely.cache ?_ w.changed,before.streams⟩
      rintro _ same t own
      cases same
      cases own
  | store =>
    dsimp only [step] at taken
    split at taken
    · cases taken
    · next host own =>
      cases taken
      exact ⟨timely_probe timely (timely.probe host own) (by simp) true,before.streams⟩
  | notified =>
    dsimp only [step] at taken
    split at taken
    · cases taken
      exact ⟨timely_sampler timely false (by simp) (by simp),before.streams⟩
    · cases taken
  | heartbeat =>
    dsimp only [step] at taken
    split at taken
    · cases taken
      exact ⟨timely_sampler timely w.changed (by simp) (by simp),before.streams⟩
    · cases taken
  | collect =>
    dsimp only [step] at taken
    split at taken
    · cases taken
      refine ⟨timely_sampler timely w.changed ?_ (by simp),before.streams⟩
      rintro _ same t own
      cases same
      obtain ⟨time,reading⟩ := collect_collectedAt w.clock w.cache
      rw [time] at own
      rw [reading]
      exact timely.cache t own
    · cases taken
  | sampleCollection =>
    refine ⟨timely_sampleCollection timely taken,?_⟩
    have same : w'.published = w.published ∧ w'.streams = w.streams := by
      dsimp only [step] at taken
      split at taken
      · split at taken
        · cases taken
          exact ⟨rfl,rfl⟩
        · cases taken
          exact ⟨rfl,rfl⟩
      · cases taken
    intro stream member
    rw [same.2] at member
    rw [same.1]
    exact before.streams stream member
  | publish =>
    refine ⟨timely_publish timely taken,?_⟩
    dsimp only [step] at taken
    split at taken
    · cases taken
      exact fun stream member => (before.streams stream member).more _
    · cases taken
  | handshake =>
    cases taken
    refine ⟨timely_streams timely _,?_⟩
    intro stream member
    rcases List.mem_append.mp member with old | new
    · exact before.streams stream old
    · rw [List.mem_singleton] at new
      subst new
      exact ⟨List.Pairwise.nil,by simp,by simp,fun _ => rfl,by simp,by simp⟩
  | subscribe id => exact ordered_stream before (.inl rfl) taken
  | nextSample id => exact ordered_stream before (.inr (.inl rfl)) taken
  | sampleIsFresh id => exact ordered_stream before (.inr (.inr (.inl rfl))) taken
  | sent id => exact ordered_stream before (.inr (.inr (.inr (.inl rfl)))) taken
  | ended id => exact ordered_stream before (.inr (.inr (.inr (.inr rfl)))) taken

theorem ordered_run {startedAt : ℕ} {actions : List Action} (run : Run step (initial startedAt) actions w) : Ordered w := by
  have begins : Ordered (initial startedAt) := ⟨timely_initial startedAt,fun _ member => absurd member List.not_mem_nil⟩
  exact run.invariant begins (fun _ _ _ before taken => ordered_step before taken)

end Steps

/-- Telemetry never goes back in time and never repeats a reading as new. -/
theorem samples_ordered {startedAt : ℕ} {actions : List Action} {w : World} (run : Run step (initial startedAt) actions w) :
    w.published.Pairwise (fun a b => a.snapshot.sampleSeq < b.snapshot.sampleSeq ∧ a.snapshot.sampleElapsedMs ≤ b.snapshot.sampleElapsedMs ∧
      (a.snapshot.host.hasCounters = true → b.snapshot.host.hasCounters = true → a.snapshot.host.reading ≠ b.snapshot.host.reading)) ∧
    (∀ entry ∈ w.published, entry.snapshot.host.hasCounters = true → ∃ t, w.completed[entry.snapshot.host.reading]? = some t ∧
      t ≤ entry.checkedAt ∧ entry.checkedAt - t ≤ MAX_SAMPLE_AGE) ∧
    (∀ stream ∈ w.streams, stream.sent.Pairwise (fun a b => a.1.sampleSeq < b.1.sampleSeq) ∧
      ∀ other ∈ stream.sent, (∃ entry ∈ w.published, entry.snapshot = other.1) ∧ stream.baselineMs ≤ other.1.sampleElapsedMs ∧
        other.2 - other.1.sampleElapsedMs ≤ MAX_SAMPLE_AGE_MS) := by
  obtain ⟨timely,streams⟩ := ordered_run run
  refine ⟨?_,?_,?_⟩
  · refine timely.ordered.imp_of_mem ?_
    rintro a b member member' ⟨number,instant,newer⟩
    obtain ⟨elapsed,_,timed⟩ := timely.entries a member
    obtain ⟨elapsed',_,timed'⟩ := timely.entries b member'
    refine ⟨number,by rw [elapsed,elapsed']; exact elapsedMs_mono _ instant,?_⟩
    intro valid valid' same
    have place := (timed.counters valid).2.1
    have place' := (timed'.counters valid').2.1
    rw [same,place'] at place
    have later := newer valid'
    have equal := Option.some.inj place
    omega
  · intro entry member valid
    obtain ⟨_,_,timed⟩ := timely.entries entry member
    obtain ⟨_,place,young⟩ := timed.counters valid
    exact ⟨entry.collectedAt,place,timed.instants.1,young⟩
  · intro stream member
    have orderly := streams stream member
    refine ⟨orderly.sent,?_⟩
    intro other inside
    obtain ⟨fresh,published⟩ := orderly.fresh other inside
    exact ⟨published,fresh.1,fresh.2⟩

/-- A reading with one valid counter. -/
def oneReading : HostSnapshot := ⟨none,true,false,false,10,0,0,[],0⟩

def wokenTwice : List Action := [.handshake,.complete oneReading,.store,.notified,.collect,.sampleCollection,.publish,
  .subscribe 0,.nextSample 0,.sampleIsFresh 0,.sent 0,.tick 2000000000,.complete oneReading,.store,.notified,.collect,.sampleCollection,.publish,
  .nextSample 0,.sampleIsFresh 0,.sent 0]

/-- Two readings, both published and sent. -/
theorem two_readings_sent : ∃ w, Run step (initial 5) wokenTwice w ∧ w.published.length = 2 ∧ (w.streams.map (fun stream => stream.sent.length)) = [2] ∧
    ∀ stream ∈ w.streams, stream.sent.Pairwise (fun a b => a.1.sampleSeq < b.1.sampleSeq) := by
  have run : ∃ w, Run step (initial 5) wokenTwice w ∧ w.published.length = 2 ∧ (w.streams.map (fun stream => stream.sent.length)) = [2] :=
    ⟨_,Run.of_follow rfl,rfl,rfl⟩
  obtain ⟨w,run,published,sent⟩ := run
  exact ⟨w,run,published,sent,fun stream member => ((samples_ordered run).2.2 stream member).1⟩

/-- The sampler may be held up between its look at the clock and its publication. -/
theorem published_late : ∃ w, Run step (initial 0) [.complete oneReading,.store,.notified,.collect,.tick MAX_SAMPLE_AGE,.sampleCollection,.tick 1,.publish] w ∧
    ∃ entry ∈ w.published, entry.snapshot.host.hasCounters = true ∧ ∃ t, w.completed[entry.snapshot.host.reading]? = some t ∧ MAX_SAMPLE_AGE < entry.publishedAt - t :=
  ⟨_,Run.of_follow rfl,_,List.mem_singleton_self _,rfl,0,rfl,by decide⟩

end NodeAgent.TelemetrySampling
