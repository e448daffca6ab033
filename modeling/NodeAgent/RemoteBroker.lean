import NodeAgent.CharBoundaries
import NodeAgent.Transition
import Mathlib.Data.List.Basic

/-!
Remote log streams. Lines are numbered by one broker and put into a bounded queue for every
subscription. Publishers, subscribers and readers take turns at the lock of the broker and at
those of the subscriptions; the numbers tell a reader how many lines it has lost.
-/
namespace NodeAgent.RemoteBroker
open NodeAgent.CharBoundaries NodeAgent.Transition

def REMOTE_QUEUE_MAX_LINES : ℕ := 1024
def REMOTE_QUEUE_MAX_BYTES : ℕ := 1048576
def REMOTE_LINE_MAX_BYTES : ℕ := 32768

def u64Max : ℕ := 18446744073709551615

structure RemoteLine where
  sequence : ℕ
  capturedAt : ℕ
  text : Text

/-- A subscription. The two last fields record its history and are never read: the number of
    the broker's last line when it joined, and the lines that it has drained. -/
structure SubscriptionState where
  queue : List RemoteLine
  bytes : ℕ
  dropped : ℕ
  closed : Bool
  joined : ℕ
  received : List RemoteLine

/-- Cut at the last boundary that is not behind the limit. -/
def truncateUtf8 (value : Text) (maxBytes : ℕ) : Text :=
  if maxBytes ≠ 0 ∧ size value > maxBytes then (slice value (backToBoundary value maxBytes)).getD value else value

/-! ### Queues -/

/-- The oldest lines leave while there are too many lines or bytes. -/
def evict : List RemoteLine → ℕ → ℕ → List RemoteLine × ℕ × ℕ
  | [], bytes, dropped => ([],bytes,dropped)
  | removed :: rest, bytes, dropped =>
    if (removed :: rest).length > REMOTE_QUEUE_MAX_LINES ∨ bytes > REMOTE_QUEUE_MAX_BYTES then
      evict rest (bytes - size removed.text) (min u64Max (dropped + 1))
    else (removed :: rest,bytes,dropped)

def SubscriptionState.enqueue (state : SubscriptionState) (line : RemoteLine) : SubscriptionState :=
  if state.closed then state
  else
    let (queue,bytes,dropped) := evict (state.queue ++ [line]) (state.bytes + size line.text) state.dropped
    { state with queue := queue, bytes := bytes, dropped := dropped }

/-- The lines of one batch are counted, with their bytes. -/
def batch (maxBytes : ℕ) : List RemoteLine → ℕ → ℕ → ℕ × ℕ
  | [], count, bytesUsed => (count,bytesUsed)
  | line :: rest, count, bytesUsed =>
    if count > 0 ∧ bytesUsed + size line.text > maxBytes then (count,bytesUsed)
    else batch maxBytes rest (count + 1) (bytesUsed + size line.text)

def SubscriptionState.drain (state : SubscriptionState) (maxLines maxBytes : ℕ) : (List RemoteLine × ℕ) × SubscriptionState :=
  if state.queue.isEmpty ∨ maxLines = 0 ∨ maxBytes = 0 then (([],0),state)
  else
    let available := min state.queue.length maxLines
    let (count,bytesUsed) := batch maxBytes (state.queue.take available) 0 0
    let (count,bytesUsed) := if count = 0 then (1,(state.queue.head?.map (fun line => size line.text)).getD 0) else (count,bytesUsed)
    let lines := state.queue.take count
    ((lines,state.dropped),
      { state with queue := state.queue.drop count, bytes := state.bytes - bytesUsed, dropped := 0, received := state.received ++ lines })

def SubscriptionState.close (state : SubscriptionState) : SubscriptionState :=
  if state.closed then state else { state with closed := true, queue := [], bytes := 0 }

/-! ### The broker -/

/-- A publisher in its second section. It holds the lock of the broker, has still to visit some
    subscriptions, keeps one delivery back, and may just be about to make one. -/
structure Delivery where
  line : RemoteLine
  toVisit : List ℕ
  pending : Option ℕ
  due : Option ℕ

/-- The broker and all tasks. `building` counts the publishers between their sections; the last
    field records the texts by their numbers and is never read. -/
structure State where
  sequence : ℕ
  nextSubscription : ℕ
  subscribers : List ℕ
  subscriptions : ℕ → Option SubscriptionState
  building : ℕ
  delivery : Option Delivery
  texts : ℕ → Text

def initial : State := ⟨0,1,[],fun _ => none,0,none,fun _ => []⟩

/-- `fetch_add(1) + 1` of a 64 bit number. -/
def State.nextSequence (s : State) : ℕ := (s.sequence + 1) % (u64Max + 1)

def State.put (s : State) (id : ℕ) (subscription : SubscriptionState) : State :=
  { s with subscriptions := fun k => if k = id then some subscription else s.subscriptions k }

def State.isClosed (s : State) (id : ℕ) : Bool := (s.subscriptions id).any SubscriptionState.closed

/-- The steps of all tasks. The lock of the broker is held from `number` to `release`, and by
    each of the other steps at the broker for that step alone. -/
inductive Action
  | subscribe
  /-- The first section of a publisher. -/
  | announce
  /-- The second section begins, once the text has been built. -/
  | number (capturedAt : ℕ) (text : Text)
  /-- The second section comes to one of the subscribers, in any order. -/
  | visit (id : ℕ)
  /-- The delivery that is due is made. -/
  | enqueue
  /-- After the last visit the delivery that was kept back is due. -/
  | last
  | release
  /-- The two sections of a close. -/
  | remove (id : ℕ)
  | close (id : ℕ)
  | drain (id maxLines maxBytes : ℕ)
deriving DecidableEq

def step (s : State) : Action → Option State
  | .subscribe =>
    if s.delivery.isSome then none
    else
      some { s.put s.nextSubscription ⟨[],0,0,false,s.sequence,[]⟩ with
        nextSubscription := s.nextSubscription + 1, subscribers := s.nextSubscription :: s.subscribers }
  | .announce =>
    if s.delivery.isSome then none
    else
      let subscribers := s.subscribers.filter (fun id => !s.isClosed id)
      if subscribers.isEmpty then some { s with subscribers := subscribers, sequence := s.nextSequence }
      else some { s with subscribers := subscribers, building := s.building + 1 }
  | .number capturedAt text =>
    if s.delivery.isSome ∨ s.building = 0 then none
    else
      let line : RemoteLine := ⟨s.nextSequence,capturedAt,truncateUtf8 text REMOTE_LINE_MAX_BYTES⟩
      some { s with
        sequence := s.nextSequence
        building := s.building - 1
        delivery := some ⟨line,s.subscribers,none,none⟩
        texts := fun k => if k = line.sequence then line.text else s.texts k }
  | .visit id =>
    match s.delivery with
    | none => none
    | some delivery =>
      if id ∈ delivery.toVisit ∧ delivery.due = none then
        let toVisit := delivery.toVisit.filter (fun k => k ≠ id)
        if s.isClosed id then
          some { s with subscribers := s.subscribers.filter (fun k => k ≠ id), delivery := some { delivery with toVisit := toVisit } }
        else some { s with delivery := some { delivery with toVisit := toVisit, due := delivery.pending, pending := some id } }
      else none
  | .enqueue =>
    match s.delivery with
    | none => none
    | some delivery =>
      match delivery.due with
      | none => none
      | some id =>
        match s.subscriptions id with
        | none => none
        | some subscription => some { s.put id (subscription.enqueue delivery.line) with delivery := some { delivery with due := none } }
  | .last =>
    match s.delivery with
    | none => none
    | some delivery =>
      if delivery.toVisit = [] ∧ delivery.due = none then some { s with delivery := some { delivery with pending := none, due := delivery.pending } }
      else none
  | .release =>
    match s.delivery with
    | none => none
    | some delivery =>
      if delivery.toVisit = [] ∧ delivery.due = none ∧ delivery.pending = none then some { s with delivery := none } else none
  | .remove id =>
    if s.delivery.isSome ∨ (s.subscriptions id).isNone then none
    else some { s with subscribers := s.subscribers.filter (fun k => k ≠ id) }
  | .close id =>
    match s.subscriptions id with
    | none => none
    | some subscription => if id ∈ s.subscribers then none else some (s.put id subscription.close)
  | .drain id maxLines maxBytes =>
    match s.subscriptions id with
    | none => none
    | some subscription => some (s.put id (subscription.drain maxLines maxBytes).2)

/-! ### Numbered lines -/

/-- The bytes of all lines. -/
def bytesOf : List RemoteLine → ℕ
  | [] => 0
  | line :: rest => size line.text + bytesOf rest

/-- Lines with consecutive numbers. -/
def Numbered (first : ℕ) (lines : List RemoteLine) : Prop := lines.map RemoteLine.sequence = List.range' first lines.length

theorem numbered_nil (first : ℕ) : Numbered first [] := rfl

theorem numbered_cons {first : ℕ} {line : RemoteLine} {rest : List RemoteLine} :
    Numbered first (line :: rest) ↔ line.sequence = first ∧ Numbered (first + 1) rest := by
  unfold Numbered
  rw [List.map_cons,List.length_cons,List.range'_succ,List.cons.injEq]

theorem numbered_append {first : ℕ} {front back : List RemoteLine} :
    Numbered first (front ++ back) ↔ Numbered first front ∧ Numbered (first + front.length) back := by
  induction front generalizing first with
  | nil => simp [numbered_nil]
  | cons line rest ih =>
    have shift : first + (line :: rest).length = first + 1 + rest.length := by rw [List.length_cons]; omega
    rw [List.cons_append,numbered_cons,numbered_cons,ih,shift,and_assoc]

/-- The number of the last of them. -/
theorem numbered_last {first : ℕ} {front : List RemoteLine} {line : RemoteLine} (numbered : Numbered first (front ++ [line])) :
    line.sequence = first + front.length :=
  (numbered_cons.mp (numbered_append.mp numbered).2).1

theorem bytesOf_cons (line : RemoteLine) (rest : List RemoteLine) : bytesOf (line :: rest) = size line.text + bytesOf rest := rfl

theorem bytesOf_append (front back : List RemoteLine) : bytesOf (front ++ back) = bytesOf front + bytesOf back := by
  induction front with
  | nil => exact (Nat.zero_add _).symm
  | cons line rest ih => rw [List.cons_append,bytesOf_cons,bytesOf_cons,ih,Nat.add_assoc]

theorem size_truncateUtf8 (value : Text) : size (truncateUtf8 value REMOTE_LINE_MAX_BYTES) ≤ REMOTE_LINE_MAX_BYTES := by
  unfold truncateUtf8
  split
  · rw [slice_back]
    exact size_upTo_le value _
  · next within =>
    by_contra long
    exact within ⟨by decide,by omega⟩

/-- Eviction takes lines from the front only, counts them, and leaves the last one. -/
theorem evict_spec {queue : List RemoteLine} {bytes dropped first : ℕ} (numbered : Numbered (first + dropped + 1) queue) (total : bytes = bytesOf queue)
    (small : ∀ line ∈ queue, size line.text ≤ REMOTE_LINE_MAX_BYTES) (room : dropped + queue.length ≤ u64Max) :
    ∃ left removed, queue = removed ++ left ∧ evict queue bytes dropped = (left,bytesOf left,dropped + removed.length) ∧
      Numbered (first + (dropped + removed.length) + 1) left ∧ left.length ≤ REMOTE_QUEUE_MAX_LINES ∧ bytesOf left ≤ REMOTE_QUEUE_MAX_BYTES ∧
      (queue ≠ [] → left ≠ []) := by
  induction queue generalizing bytes dropped with
  | nil =>
    subst total
    exact ⟨[],[],rfl,rfl,numbered,Nat.zero_le _,Nat.zero_le _,id⟩
  | cons line rest ih =>
    rw [List.length_cons] at room
    rw [bytesOf_cons] at total
    unfold evict
    by_cases full : (line :: rest).length > REMOTE_QUEUE_MAX_LINES ∨ bytes > REMOTE_QUEUE_MAX_BYTES
    · rw [if_pos full]
      have counted : min u64Max (dropped + 1) = dropped + 1 := Nat.min_eq_right (by omega)
      have fewer : bytes - size line.text = bytesOf rest := by omega
      rw [counted,fewer]
      have shift : first + (dropped + 1) + 1 = first + dropped + 1 + 1 := by omega
      obtain ⟨left,removed,parts,evicted,numbered',lines,bytes',some⟩ :=
        ih (by rw [shift]; exact (numbered_cons.mp numbered).2) rfl (fun other member => small other (List.mem_cons_of_mem _ member)) (by omega)
      refine ⟨left,line :: removed,by rw [parts]; rfl,?_,?_,lines,bytes',?_⟩
      · rw [evicted,List.length_cons]
        congr 2
        omega
      · rw [List.length_cons]
        have again : first + (dropped + (removed.length + 1)) + 1 = first + (dropped + 1 + removed.length) + 1 := by omega
        rw [again]
        exact numbered'
      · intro _
        refine some ?_
        rintro rfl
        -- One line alone is not too much.
        have short := small line List.mem_cons_self
        have nothing : bytesOf [] = 0 := rfl
        rw [nothing] at total
        rcases full with lines | bytes
        · have limit : REMOTE_QUEUE_MAX_LINES = 1024 := rfl
          rw [List.length_singleton] at lines
          omega
        · have limits : REMOTE_LINE_MAX_BYTES ≤ REMOTE_QUEUE_MAX_BYTES := by decide
          omega
    · rw [if_neg full]
      rw [not_or] at full
      refine ⟨line :: rest,[],rfl,?_,numbered,Nat.le_of_not_gt full.1,?_,fun _ => List.cons_ne_nil _ _⟩
      · rw [bytesOf_cons,← total]
        rfl
      · rw [bytesOf_cons,← total]
        exact Nat.le_of_not_gt full.2

/-- A batch begins with the lines that were asked for, and has more than one only if they fit. -/
theorem batch_spec (maxBytes : ℕ) (lines : List RemoteLine) (count bytesUsed : ℕ) : ∃ front back, lines = front ++ back ∧
    batch maxBytes lines count bytesUsed = (count + front.length,bytesUsed + bytesOf front) ∧
    (lines ≠ [] → count = 0 → front ≠ []) ∧ (count + front.length ≤ 1 ∨ front = [] ∨ bytesUsed + bytesOf front ≤ maxBytes) := by
  induction lines generalizing count bytesUsed with
  | nil => exact ⟨[],[],rfl,rfl,fun none _ => none,.inr (.inl rfl)⟩
  | cons line rest ih =>
    unfold batch
    by_cases full : count > 0 ∧ bytesUsed + size line.text > maxBytes
    · rw [if_pos full]
      exact ⟨[],line :: rest,rfl,rfl,fun _ first => absurd first (by omega),.inr (.inl rfl)⟩
    · rw [if_neg full]
      obtain ⟨front,back,parts,counted,_,fits⟩ := ih (count + 1) (bytesUsed + size line.text)
      refine ⟨line :: front,back,by rw [parts]; rfl,?_,fun _ _ => List.cons_ne_nil _ _,?_⟩
      · rw [counted,List.length_cons,bytesOf_cons]
        congr 1 <;> omega
      · rw [List.length_cons,bytesOf_cons]
        rcases fits with one | nothing | fits
        · exact .inl (by omega)
        · subst nothing
          rw [not_and_or] at full
          rcases full with first | within
          · left
            rw [List.length_nil]
            omega
          · have none : bytesOf [] = 0 := rfl
            exact .inr (.inr (by omega))
        · exact .inr (.inr (by omega))

/-! ### Subscriptions -/

/-- The number of the last line that was drained, or of the last one before the subscription. -/
def SubscriptionState.lastSequence (state : SubscriptionState) : ℕ := ((state.received.getLast?).map RemoteLine.sequence).getD state.joined

/-- The number of the last line that has come to the subscription. -/
def SubscriptionState.reached (state : SubscriptionState) : ℕ := state.lastSequence + state.dropped + state.queue.length

/-- What holds of every subscription, given the texts by their numbers and the last number. -/
structure Sound (texts : ℕ → Text) (sequence : ℕ) (state : SubscriptionState) : Prop where
  numbered : Numbered (state.lastSequence + state.dropped + 1) state.queue
  total : state.bytes = bytesOf state.queue
  lines : state.queue.length ≤ REMOTE_QUEUE_MAX_LINES
  bytes : state.bytes ≤ REMOTE_QUEUE_MAX_BYTES
  small : ∀ line ∈ state.queue, size line.text ≤ REMOTE_LINE_MAX_BYTES
  told : ∀ line ∈ state.queue ++ state.received, line.text = texts line.sequence ∧ line.sequence ≤ sequence
  counted : 0 < state.dropped → state.queue ≠ [] ∨ state.closed = true
  behind : state.closed = false → state.reached ≤ sequence

section Subscriptions
variable {texts : ℕ → Text} {sequence : ℕ} {state : SubscriptionState}

theorem sound_joined (texts : ℕ → Text) (sequence : ℕ) : Sound texts sequence ⟨[],0,0,false,sequence,[]⟩ where
  numbered := numbered_nil _
  total := rfl
  lines := Nat.zero_le _
  bytes := Nat.zero_le _
  small := fun _ member => absurd member List.not_mem_nil
  told := fun _ member => absurd member List.not_mem_nil
  counted := fun positive => absurd positive (Nat.lt_irrefl 0)
  behind := fun _ => Nat.le_refl _

/-- Later lines have later numbers. -/
theorem Sound.later (sound : Sound texts sequence state) {texts' : ℕ → Text} {sequence' : ℕ} (grows : sequence ≤ sequence')
    (same : ∀ k ≤ sequence, texts' k = texts k) : Sound texts' sequence' state where
  numbered := sound.numbered
  total := sound.total
  lines := sound.lines
  bytes := sound.bytes
  small := sound.small
  told := by
    intro line member
    obtain ⟨text,old⟩ := sound.told line member
    exact ⟨by rw [text,same _ old],Nat.le_trans old grows⟩
  counted := sound.counted
  behind := fun opened => Nat.le_trans (sound.behind opened) grows

theorem Sound.close (sound : Sound texts sequence state) : Sound texts sequence state.close := by
  unfold SubscriptionState.close
  split
  · exact sound
  · refine ⟨numbered_nil _,rfl,Nat.zero_le _,Nat.zero_le _,?_,?_,fun _ => .inr rfl,?_⟩
    · exact fun _ member => absurd member List.not_mem_nil
    · exact fun line member => sound.told line (List.mem_append_right _ (by simpa using member))
    · intro opened
      cases opened

/-- A line reaches an open subscription that has come to the line before it. -/
theorem Sound.enqueue (sound : Sound texts sequence state) {line : RemoteLine} (number : line.sequence = sequence) (text : line.text = texts sequence)
    (small : size line.text ≤ REMOTE_LINE_MAX_BYTES) (few : sequence ≤ u64Max) (next : state.closed = false → state.reached + 1 = sequence) :
    Sound texts sequence (state.enqueue line) ∧ (state.enqueue line).closed = state.closed ∧
      (state.closed = false → (state.enqueue line).reached = sequence) := by
  unfold SubscriptionState.enqueue
  by_cases closed : state.closed = true
  · rw [if_pos closed]
    exact ⟨sound,rfl,fun opened => absurd (opened.symm.trans closed) (by decide)⟩
  · rw [if_neg closed]
    have opened : state.closed = false := by simpa using closed
    have reached := next opened
    unfold SubscriptionState.reached at reached
    have numbered : Numbered (state.lastSequence + state.dropped + 1) (state.queue ++ [line]) := by
      rw [numbered_append,numbered_cons]
      exact ⟨sound.numbered,by omega,numbered_nil _⟩
    have total : state.bytes + size line.text = bytesOf (state.queue ++ [line]) := by
      rw [bytesOf_append,sound.total,bytesOf_cons]
      rfl
    have smalls : ∀ other ∈ state.queue ++ [line], size other.text ≤ REMOTE_LINE_MAX_BYTES := by
      rw [List.forall_mem_append,List.forall_mem_singleton]
      exact ⟨sound.small,small⟩
    have length : (state.queue ++ [line]).length = state.queue.length + 1 := by simp
    obtain ⟨left,removed,parts,evicted,numbered',lines,bytes,some⟩ := evict_spec numbered total smalls (by omega)
    have lengths := congrArg List.length parts
    rw [length,List.length_append] at lengths
    simp only [evicted]
    have inside : ∀ other ∈ left, other ∈ state.queue ++ [line] := fun other member => by rw [parts]; exact List.mem_append_right _ member
    refine ⟨⟨numbered',rfl,lines,bytes,fun other member => smalls other (inside other member),?_,fun _ => .inl (some (by simp)),?_⟩,by simp,?_⟩
    · intro other member
      rcases List.mem_append.mp member with queued | received
      · rcases List.mem_append.mp (inside other queued) with old | new
        · exact sound.told other (List.mem_append_left _ old)
        · rw [List.mem_singleton] at new
          rw [new,number]
          exact ⟨text,Nat.le_refl _⟩
      · exact sound.told other (List.mem_append_right _ received)
    · intro _
      unfold SubscriptionState.reached
      change state.lastSequence + (state.dropped + removed.length) + left.length ≤ sequence
      omega
    · intro _
      unfold SubscriptionState.reached
      change state.lastSequence + (state.dropped + removed.length) + left.length = sequence
      omega

/-- What one drain may return. -/
structure Drained (state : SubscriptionState) (maxLines maxBytes : ℕ) (lines : List RemoteLine) (dropped : ℕ) : Prop where
  numbered : Numbered (state.lastSequence + dropped + 1) lines
  count : lines.length ≤ maxLines
  bytes : bytesOf lines ≤ maxBytes ∨ lines.length = 1

/-- A drain takes the front of the queue, and the lines that were dropped before it are told. -/
theorem Sound.drain (sound : Sound texts sequence state) (maxLines maxBytes : ℕ) : ∃ lines dropped state',
    state.drain maxLines maxBytes = ((lines,dropped),state') ∧ Sound texts sequence state' ∧ state'.closed = state.closed ∧
      state'.reached = state.reached ∧ (lines ≠ [] → Drained state maxLines maxBytes lines dropped) := by
  unfold SubscriptionState.drain
  by_cases nothing : state.queue.isEmpty ∨ maxLines = 0 ∨ maxBytes = 0
  · rw [if_pos nothing]
    exact ⟨[],0,state,rfl,sound,rfl,rfl,fun some => absurd rfl some⟩
  · rw [if_neg nothing]
    simp only [not_or,List.isEmpty_iff] at nothing
    obtain ⟨filled,wanted,_⟩ := nothing
    have length := List.length_pos_of_ne_nil filled
    have asked : state.queue.take (min state.queue.length maxLines) ≠ [] := by
      intro empty
      rcases List.take_eq_nil_iff.mp empty with zero | none
      · omega
      · exact filled none
    obtain ⟨front,back,parts,counted,some,fits⟩ := batch_spec maxBytes (state.queue.take (min state.queue.length maxLines)) 0 0
    have filled' := some asked rfl
    have positive := List.length_pos_of_ne_nil filled'
    have whole : state.queue = front ++ (back ++ state.queue.drop (min state.queue.length maxLines)) := by
      rw [← List.append_assoc,← parts,List.take_append_drop]
    have within : front.length ≤ maxLines := by
      have lengths := congrArg List.length parts
      rw [List.length_take,List.length_append] at lengths
      omega
    simp only [counted,Nat.zero_add]
    rw [if_neg (by omega)]
    generalize back ++ state.queue.drop (min state.queue.length maxLines) = rest at whole
    have taken : state.queue.take front.length = front := by rw [whole,List.take_left]
    have left : state.queue.drop front.length = rest := by rw [whole,List.drop_left]
    have numbered := sound.numbered
    have total := sound.total
    rw [whole,numbered_append] at numbered
    rw [whole,bytesOf_append] at total
    have lengths := congrArg List.length whole
    rw [List.length_append] at lengths
    have last : ((state.received ++ front).getLast?.map RemoteLine.sequence).getD state.joined = state.lastSequence + state.dropped + front.length := by
      obtain ⟨others,line,ends⟩ := (List.eq_nil_or_concat front).resolve_left filled'
      rw [List.concat_eq_append] at ends
      have number := numbered_last (ends ▸ numbered.1)
      rw [ends,← List.append_assoc,List.getLast?_append]
      simp only [List.getLast?_singleton,Option.some_or,Option.map_some,Option.getD_some,List.length_append,List.length_singleton]
      omega
    have fewer : state.bytes - bytesOf front = bytesOf rest := by omega
    have inside : ∀ line ∈ rest, line ∈ state.queue := fun line member => by rw [whole]; exact List.mem_append_right _ member
    have bytes := sound.bytes
    have lines := sound.lines
    simp only [taken,left,fewer]
    refine ⟨_,_,_,rfl,⟨?_,rfl,?_,?_,fun line member => sound.small line (inside line member),?_,fun positive => absurd positive (Nat.lt_irrefl 0),?_⟩,rfl,?_,?_⟩
    · unfold SubscriptionState.lastSequence
      dsimp only
      rw [last]
      have shift : state.lastSequence + state.dropped + front.length + 0 + 1 = state.lastSequence + state.dropped + 1 + front.length := by omega
      rw [shift]
      exact numbered.2
    · dsimp only
      omega
    · dsimp only
      omega
    · intro line member
      dsimp only at member
      rw [← List.append_assoc] at member
      refine sound.told line ?_
      rw [whole]
      simp only [List.mem_append] at member ⊢
      rcases member with (queued | received) | drained
      · exact .inl (.inr queued)
      · exact .inr received
      · exact .inl (.inl drained)
    · intro opened
      have behind := sound.behind opened
      unfold SubscriptionState.reached SubscriptionState.lastSequence at *
      dsimp only
      rw [last]
      omega
    · unfold SubscriptionState.reached SubscriptionState.lastSequence at *
      dsimp only
      rw [last]
      omega
    · intro _
      refine ⟨numbered.1,within,?_⟩
      rcases fits with one | none | fits
      · exact .inr (by omega)
      · exact absurd none filled'
      · exact .inl (by omega)

end Subscriptions

/-! ### The broker -/

/-- A subscription that the delivery has still to reach. -/
def Delivery.Awaits (delivery : Delivery) (id : ℕ) : Prop := id ∈ delivery.toVisit ∨ delivery.pending = some id ∨ delivery.due = some id

def State.Awaits (s : State) (id : ℕ) : Prop := ∃ delivery, s.delivery = some delivery ∧ delivery.Awaits id

/-- A delivery of the last line. It visits each subscription once, and none that has left. -/
structure Delivering (s : State) (delivery : Delivery) : Prop where
  number : delivery.line.sequence = s.sequence
  text : delivery.line.text = s.texts s.sequence
  small : size delivery.line.text ≤ REMOTE_LINE_MAX_BYTES
  pending : ∀ id, delivery.pending = some id → id ∉ delivery.toVisit ∧ delivery.due ≠ some id
  due : ∀ id, delivery.due = some id → id ∉ delivery.toVisit
  awaited : ∀ id, delivery.Awaits id → id ∈ s.subscribers

/-- The invariant of all tasks, after so many lines. An open subscription has come to the last
    line, or to the one before it if it is still awaited. -/
structure Accounted (lines : ℕ) (s : State) : Prop where
  published : s.sequence + s.building ≤ lines
  fresh : ∀ id, s.nextSubscription ≤ id → s.subscriptions id = none ∧ id ∉ s.subscribers
  sound : ∀ id subscription, s.subscriptions id = some subscription → Sound s.texts s.sequence subscription
  current : ∀ id ∈ s.subscribers, ∀ subscription, s.subscriptions id = some subscription → subscription.closed = false →
    ¬s.Awaits id → subscription.reached = s.sequence
  waiting : ∀ id ∈ s.subscribers, ∀ subscription, s.subscriptions id = some subscription → subscription.closed = false →
    s.Awaits id → subscription.reached + 1 = s.sequence
  delivering : ∀ delivery, s.delivery = some delivery → Delivering s delivery

theorem accounted_initial : Accounted 0 initial where
  published := Nat.le_refl 0
  fresh := fun _ _ => ⟨rfl,List.not_mem_nil⟩
  sound := fun _ _ known => absurd known (by simp [initial])
  current := fun _ member => absurd member List.not_mem_nil
  waiting := fun _ member => absurd member List.not_mem_nil
  delivering := fun _ going => absurd going (by simp [initial])

section Steps
variable {lines : ℕ} {s s' : State}

theorem put_subscriptions (s : State) (id k : ℕ) (subscription : SubscriptionState) :
    (s.put id subscription).subscriptions k = if k = id then some subscription else s.subscriptions k := rfl

theorem no_delivery (free : ¬s.delivery.isSome) {delivery : Delivery} (going : s.delivery = some delivery) : False := free (by rw [going]; rfl)

theorem not_awaits_of_free (free : ¬s.delivery.isSome) (id : ℕ) : ¬s.Awaits id := by
  rintro ⟨delivery,going,_⟩
  exact no_delivery free going

theorem nextSequence_eq (few : s.sequence + 1 ≤ u64Max) : s.nextSequence = s.sequence + 1 := Nat.mod_eq_of_lt (by omega)

theorem accounted_subscribe (before : Accounted lines s) (taken : step s .subscribe = some s') : Accounted lines s' := by
  dsimp only [step] at taken
  split at taken
  · cases taken
  · next free =>
    cases taken
    have idle := not_awaits_of_free free
    have known (id : ℕ) (subscription : SubscriptionState) (found : (s.put s.nextSubscription ⟨[],0,0,false,s.sequence,[]⟩).subscriptions id = some subscription) :
        (id = s.nextSubscription ∧ subscription = ⟨[],0,0,false,s.sequence,[]⟩) ∨ s.subscriptions id = some subscription := by
      rw [put_subscriptions] at found
      split at found
      · next own => exact .inl ⟨own,(Option.some.inj found).symm⟩
      · exact .inr found
    refine ⟨before.published,?_,?_,?_,?_,?_⟩
    · intro id later
      obtain ⟨absent,outside⟩ := before.fresh id (by dsimp only at later; omega)
      have other : id ≠ s.nextSubscription := by dsimp only at later; omega
      refine ⟨?_,by simp [other,outside]⟩
      change (s.put _ _).subscriptions id = none
      rw [put_subscriptions,if_neg other,absent]
    · intro id subscription found
      rcases known id subscription found with ⟨_,rfl⟩ | old
      · exact sound_joined s.texts s.sequence
      · exact before.sound id subscription old
    · intro id member subscription found opened _
      rcases known id subscription found with ⟨_,rfl⟩ | old
      · rfl
      · rcases List.mem_cons.mp member with rfl | member
        · exact absurd (before.fresh _ (Nat.le_refl _)).1 (by rw [old]; simp)
        · exact before.current id member subscription old opened (idle id)
    · intro id _ subscription _ _ awaits
      exact absurd awaits (idle id)
    · intro delivery going
      exact (no_delivery free going).elim

theorem accounted_announce (before : Accounted lines s) (few : lines + 1 ≤ u64Max) (taken : step s .announce = some s') : Accounted (lines + 1) s' := by
  have published := before.published
  dsimp only [step] at taken
  split at taken
  · cases taken
  · next free =>
    split at taken
    · next empty =>
      cases taken
      have nobody : s.subscribers.filter (fun id => !s.isClosed id) = [] := List.isEmpty_iff.mp empty
      refine ⟨?_,?_,?_,?_,?_,fun delivery going => (no_delivery free going).elim⟩
      · dsimp only
        rw [nextSequence_eq (by omega)]
        omega
      · intro id later
        dsimp only at later ⊢
        exact ⟨(before.fresh id later).1,by rw [nobody]; exact List.not_mem_nil⟩
      · intro id subscription found
        dsimp only
        rw [nextSequence_eq (by omega)]
        exact (before.sound id subscription found).later (Nat.le_succ _) (fun _ _ => rfl)
      · intro id member
        dsimp only at member
        rw [nobody] at member
        exact absurd member List.not_mem_nil
      · intro id member
        dsimp only at member
        rw [nobody] at member
        exact absurd member List.not_mem_nil
    · cases taken
      refine ⟨?_,?_,before.sound,?_,?_,fun delivery going => (no_delivery free going).elim⟩
      · dsimp only
        omega
      · intro id later
        dsimp only at later ⊢
        exact ⟨(before.fresh id later).1,fun member => (before.fresh id later).2 (List.mem_of_mem_filter member)⟩
      · intro id member
        exact before.current id (List.mem_of_mem_filter member)
      · intro id member
        exact before.waiting id (List.mem_of_mem_filter member)

theorem accounted_number (before : Accounted lines s) (few : lines ≤ u64Max) {capturedAt : ℕ} {text : Text}
    (taken : step s (.number capturedAt text) = some s') : Accounted lines s' := by
  have published := before.published
  dsimp only [step] at taken
  split at taken
  · cases taken
  · next ready =>
    rw [not_or] at ready
    obtain ⟨free,building⟩ := ready
    cases taken
    have next := nextSequence_eq (s := s) (by omega)
    have keeps (k : ℕ) (old : k ≤ s.sequence) :
        (if k = s.nextSequence then truncateUtf8 text REMOTE_LINE_MAX_BYTES else s.texts k) = s.texts k := if_neg (by omega)
    refine ⟨?_,before.fresh,?_,?_,?_,?_⟩
    · dsimp only
      omega
    · intro id subscription found
      dsimp only
      exact (before.sound id subscription found).later (by omega) keeps
    · intro id member subscription found opened missed
      exact absurd ⟨_,rfl,.inl member⟩ missed
    · intro id member subscription found opened _
      have reached := before.current id member subscription found opened (not_awaits_of_free free id)
      dsimp only
      omega
    · intro delivery going
      cases going
      refine ⟨rfl,by simp,size_truncateUtf8 text,by simp,by simp,?_⟩
      rintro id (member | impossible | impossible)
      · exact member
      · cases impossible
      · cases impossible

/-- A step of the delivery alone: it awaits the same subscriptions. -/
theorem accounted_same (before : Accounted lines s) {delivery : Delivery} (going : s.delivery = some delivery) {delivery' : Option Delivery}
    (same : ∀ id, (∃ next, delivery' = some next ∧ next.Awaits id) ↔ delivery.Awaits id)
    (still : ∀ next, delivery' = some next → Delivering s next) : Accounted lines { s with delivery := delivery' } := by
  have awaits (id : ℕ) : ({ s with delivery := delivery' } : State).Awaits id ↔ s.Awaits id := by
    unfold State.Awaits
    dsimp only
    rw [same id,going]
    simp
  refine ⟨before.published,before.fresh,before.sound,?_,?_,?_⟩
  · intro id member subscription found opened missed
    exact before.current id member subscription found opened (fun old => missed ((awaits id).mpr old))
  · intro id member subscription found opened wait
    exact before.waiting id member subscription found opened ((awaits id).mp wait)
  · intro next has
    obtain ⟨number,text,small,pending,due,awaited⟩ := still next has
    exact ⟨number,text,small,pending,due,awaited⟩

theorem accounted_last (before : Accounted lines s) (taken : step s .last = some s') : Accounted lines s' := by
  dsimp only [step] at taken
  split at taken
  · cases taken
  · next delivery going =>
    split at taken
    · next ready =>
      cases taken
      obtain ⟨visited,idle⟩ := ready
      have holds := before.delivering delivery going
      have same (id : ℕ) : Delivery.Awaits { delivery with pending := none, due := delivery.pending } id ↔ delivery.Awaits id := by
        simp [Delivery.Awaits,visited,idle]
      refine accounted_same before going ?_ ?_
      · intro id
        simp [same]
      · intro next has
        cases has
        refine ⟨holds.number,holds.text,holds.small,by simp,?_,?_⟩
        · intro id kept
          exact (holds.pending id kept).1
        · intro id awaits
          exact holds.awaited id ((same id).mp awaits)
    · cases taken

theorem accounted_release (before : Accounted lines s) (taken : step s .release = some s') : Accounted lines s' := by
  dsimp only [step] at taken
  split at taken
  · cases taken
  · next delivery going =>
    split at taken
    · next ready =>
      cases taken
      obtain ⟨visited,idle,kept⟩ := ready
      refine accounted_same before going ?_ (by simp)
      intro id
      simp [Delivery.Awaits,visited,idle,kept]
    · cases taken

theorem accounted_visit (before : Accounted lines s) {id : ℕ} (taken : step s (.visit id) = some s') : Accounted lines s' := by
  dsimp only [step] at taken
  split at taken
  · cases taken
  · next delivery going =>
    have holds := before.delivering delivery going
    split at taken
    · next ready =>
      obtain ⟨listed,idle⟩ := ready
      have notPending : delivery.pending ≠ some id := fun kept => (holds.pending id kept).1 listed
      split at taken
      · cases taken
        -- The subscription leaves the broker and the delivery together.
        have awaits (k : ℕ) : Delivery.Awaits { delivery with toVisit := delivery.toVisit.filter (fun k => k ≠ id) } k ↔ k ≠ id ∧ delivery.Awaits k := by
          by_cases own : k = id
          · subst own
            simp [Delivery.Awaits,idle,notPending]
          · simp [Delivery.Awaits,idle,own]
        have others (k : ℕ) (member : k ∈ s.subscribers.filter (fun k => k ≠ id)) : k ∈ s.subscribers ∧ k ≠ id := by
          simpa using member
        refine ⟨before.published,?_,before.sound,?_,?_,?_⟩
        · intro k later
          dsimp only at later ⊢
          exact ⟨(before.fresh k later).1,fun member => (before.fresh k later).2 (others k member).1⟩
        · intro k member subscription found opened missed
          obtain ⟨inside,other⟩ := others k member
          refine before.current k inside subscription found opened ?_
          rintro ⟨delivery',going',wait⟩
          obtain rfl := Option.some.inj (going.symm.trans going')
          exact missed ⟨_,rfl,(awaits k).mpr ⟨other,wait⟩⟩
        · rintro k member subscription found opened ⟨delivery',going',wait⟩
          cases going'
          exact before.waiting k (others k member).1 subscription found opened ⟨delivery,going,((awaits k).mp wait).2⟩
        · intro delivery' going'
          cases going'
          refine ⟨holds.number,holds.text,holds.small,?_,?_,?_⟩
          · intro k kept
            exact ⟨fun member => (holds.pending k kept).1 (List.mem_of_mem_filter member),(holds.pending k kept).2⟩
          · intro k due
            exact fun member => holds.due k due (List.mem_of_mem_filter member)
          · intro k wait
            obtain ⟨other,wait⟩ := (awaits k).mp wait
            simp [holds.awaited k wait,other]
      · cases taken
        have same (k : ℕ) : Delivery.Awaits { delivery with toVisit := delivery.toVisit.filter (fun k => k ≠ id), due := delivery.pending, pending := some id } k ↔
            delivery.Awaits k := by
          by_cases own : k = id
          · subst own
            simp [Delivery.Awaits,listed]
          · have other : id ≠ k := fun same => own same.symm
            simp [Delivery.Awaits,idle,own,other]
        refine accounted_same before going ?_ ?_
        · intro k
          simp only [Option.some.injEq,exists_eq_left',same]
        · intro next has
          cases has
          refine ⟨holds.number,holds.text,holds.small,?_,?_,?_⟩
          · intro k kept
            cases kept
            exact ⟨by simp,notPending⟩
          · intro k kept member
            exact (holds.pending k kept).1 (List.mem_of_mem_filter member)
          · intro k awaits
            exact holds.awaited k ((same k).mp awaits)
    · cases taken

theorem accounted_enqueue (before : Accounted lines s) (few : lines ≤ u64Max) (taken : step s .enqueue = some s') : Accounted lines s' := by
  dsimp only [step] at taken
  split at taken
  · cases taken
  · next delivery going =>
    have holds := before.delivering delivery going
    split at taken
    · cases taken
    · next id due =>
      split at taken
      · cases taken
      · next subscription found =>
        cases taken
        have awaited : s.Awaits id := ⟨delivery,going,.inr (.inr due)⟩
        have inside := holds.awaited id (.inr (.inr due))
        have published := before.published
        obtain ⟨sound,closed,reached⟩ := (before.sound id subscription found).enqueue holds.number (by rw [holds.text]) holds.small (by omega)
          (fun opened => before.waiting id inside subscription found opened awaited)
        have awaits (k : ℕ) : Delivery.Awaits { delivery with due := none } k ↔ k ≠ id ∧ delivery.Awaits k := by
          by_cases own : k = id
          · subst own
            have notPending : delivery.pending ≠ some k := fun kept => (holds.pending k kept).2 due
            simp [Delivery.Awaits,holds.due k due,notPending]
          · have other : id ≠ k := fun same => own same.symm
            simp [Delivery.Awaits,due,own,other]
        refine ⟨before.published,?_,?_,?_,?_,?_⟩
        · intro k later
          obtain ⟨absent,outside⟩ := before.fresh k later
          refine ⟨?_,outside⟩
          have other : k ≠ id := fun same => by rw [same,found] at absent; cases absent
          exact (if_neg other).trans absent
        · intro k other known
          change (s.put id _).subscriptions k = some other at known
          rw [put_subscriptions] at known
          split at known
          · cases known
            exact sound
          · exact before.sound k other known
        · intro k member other known opened missed
          change (s.put id _).subscriptions k = some other at known
          rw [put_subscriptions] at known
          split at known
          · cases known
            exact reached (closed ▸ opened)
          · next differs =>
            refine before.current k member other known opened ?_
            rintro ⟨delivery',going',wait⟩
            obtain rfl := Option.some.inj (going.symm.trans going')
            exact missed ⟨_,rfl,(awaits k).mpr ⟨differs,wait⟩⟩
        · rintro k member other known opened ⟨delivery',going',wait⟩
          cases going'
          obtain ⟨differs,wait⟩ := (awaits k).mp wait
          change (s.put id _).subscriptions k = some other at known
          rw [put_subscriptions,if_neg differs] at known
          exact before.waiting k member other known opened ⟨delivery,going,wait⟩
        · intro delivery' going'
          cases going'
          refine ⟨holds.number,holds.text,holds.small,?_,by simp,?_⟩
          · intro k kept
            exact ⟨(holds.pending k kept).1,by simp⟩
          · intro k wait
            exact holds.awaited k ((awaits k).mp wait).2

/-- A subscription changes by itself, and has come to the same line if it stays open. -/
theorem accounted_put (before : Accounted lines s) {id : ℕ} {subscription subscription' : SubscriptionState} (found : s.subscriptions id = some subscription)
    (sound : Sound s.texts s.sequence subscription')
    (keeps : id ∈ s.subscribers → subscription'.closed = false → subscription.closed = false ∧ subscription'.reached = subscription.reached) :
    Accounted lines (s.put id subscription') := by
  refine ⟨before.published,?_,?_,?_,?_,?_⟩
  · intro k later
    obtain ⟨absent,outside⟩ := before.fresh k later
    have other : k ≠ id := fun same => by rw [same,found] at absent; cases absent
    exact ⟨(if_neg other).trans absent,outside⟩
  · intro k other known
    rw [put_subscriptions] at known
    split at known
    · cases known
      exact sound
    · exact before.sound k other known
  · intro k member other known opened missed
    rw [put_subscriptions] at known
    split at known
    · next own =>
      cases known
      subst own
      obtain ⟨opened',same⟩ := keeps member opened
      rw [same]
      exact before.current k member subscription found opened' missed
    · exact before.current k member other known opened missed
  · intro k member other known opened wait
    rw [put_subscriptions] at known
    split at known
    · next own =>
      cases known
      subst own
      obtain ⟨opened',same⟩ := keeps member opened
      rw [same]
      exact before.waiting k member subscription found opened' wait
    · exact before.waiting k member other known opened wait
  · intro delivery going
    obtain ⟨number,text,small,pending,due,awaited⟩ := before.delivering delivery going
    exact ⟨number,text,small,pending,due,awaited⟩

theorem accounted_remove (before : Accounted lines s) {id : ℕ} (taken : step s (.remove id) = some s') : Accounted lines s' := by
  dsimp only [step] at taken
  split at taken
  · cases taken
  · next ready =>
    rw [not_or] at ready
    cases taken
    refine ⟨before.published,?_,before.sound,?_,?_,fun delivery going => (no_delivery ready.1 going).elim⟩
    · intro k later
      dsimp only at later ⊢
      exact ⟨(before.fresh k later).1,fun member => (before.fresh k later).2 (List.mem_of_mem_filter member)⟩
    · intro k member
      exact before.current k (List.mem_of_mem_filter member)
    · intro k member
      exact before.waiting k (List.mem_of_mem_filter member)

theorem accounted_close (before : Accounted lines s) {id : ℕ} (taken : step s (.close id) = some s') : Accounted lines s' := by
  dsimp only [step] at taken
  split at taken
  · cases taken
  · next subscription found =>
    split at taken
    · cases taken
    · next outside =>
      cases taken
      exact accounted_put before found (before.sound id subscription found).close (fun inside => absurd inside outside)

theorem accounted_drain (before : Accounted lines s) {id maxLines maxBytes : ℕ} (taken : step s (.drain id maxLines maxBytes) = some s') : Accounted lines s' := by
  dsimp only [step] at taken
  split at taken
  · cases taken
  · next subscription found =>
    obtain ⟨drained,dropped,left,own,sound,closed,reached,_⟩ := (before.sound id subscription found).drain maxLines maxBytes
    rw [own] at taken
    cases taken
    exact accounted_put before found sound (fun _ opened => ⟨closed ▸ opened,reached⟩)

end Steps

/-! ### Runs -/

/-- The begin of a publication. -/
def Action.isAnnounce : Action → Bool
  | .announce => true
  | _ => false

/-- One step of any task. -/
theorem accounted_step {lines : ℕ} {s s' : State} {action : Action} (before : Accounted lines s)
    (few : lines + (if action.isAnnounce then 1 else 0) ≤ u64Max) (taken : step s action = some s') :
    Accounted (lines + if action.isAnnounce then 1 else 0) s' := by
  cases action with
  | subscribe => exact accounted_subscribe before taken
  | announce => exact accounted_announce before few taken
  | number capturedAt text => exact accounted_number before few taken
  | visit id => exact accounted_visit before taken
  | enqueue => exact accounted_enqueue before few taken
  | last => exact accounted_last before taken
  | release => exact accounted_release before taken
  | remove id => exact accounted_remove before taken
  | close id => exact accounted_close before taken
  | drain id maxLines maxBytes => exact accounted_drain before taken

theorem accounted_run {actions : List Action} {s : State} (run : Run step initial actions s) (few : actions.countP Action.isAnnounce ≤ u64Max) :
    Accounted (actions.countP Action.isAnnounce) s := by
  have keeps := run.keeps (I := fun actions s => actions.countP Action.isAnnounce ≤ u64Max → Accounted (actions.countP Action.isAnnounce) s)
    (fun _ => True) (fun _ => accounted_initial) ?_ (fun _ _ => trivial)
  · exact keeps few
  · intro events s action s' before _ taken few
    rw [List.countP_append,List.countP_singleton] at few ⊢
    exact accounted_step (before (by omega)) few taken

/-- Remote log streams account for every line, until they are closed. -/
theorem lines_accounted {actions : List Action} {s : State} (run : Run step initial actions s) (few : actions.countP Action.isAnnounce ≤ u64Max) :
    (∀ id subscription, s.subscriptions id = some subscription →
      (∃ first, subscription.queue.map RemoteLine.sequence = List.range' first subscription.queue.length) ∧
      subscription.bytes = bytesOf subscription.queue ∧ subscription.queue.length ≤ REMOTE_QUEUE_MAX_LINES ∧
      subscription.bytes ≤ REMOTE_QUEUE_MAX_BYTES ∧ (0 < subscription.dropped → subscription.queue ≠ [] ∨ subscription.closed = true) ∧
      (subscription.closed = false → ∀ maxLines maxBytes lines dropped left, subscription.drain maxLines maxBytes = ((lines,dropped),left) → lines ≠ [] →
        lines.map RemoteLine.sequence = List.range' (subscription.lastSequence + dropped + 1) lines.length ∧ lines.length ≤ maxLines ∧
          (bytesOf lines ≤ maxBytes ∨ lines.length = 1))) ∧
    (∀ id id' subscription subscription', s.subscriptions id = some subscription → s.subscriptions id' = some subscription' →
      ∀ line ∈ subscription.received, ∀ line' ∈ subscription'.received, line.sequence = line'.sequence → line.text = line'.text) := by
  have accounted := accounted_run run few
  constructor
  · intro id subscription found
    have sound := accounted.sound id subscription found
    refine ⟨⟨_,sound.numbered⟩,sound.total,sound.lines,sound.bytes,sound.counted,?_⟩
    intro _ maxLines maxBytes lines dropped left drained some
    obtain ⟨lines',dropped',left',own,_,_,_,law⟩ := sound.drain maxLines maxBytes
    rw [own] at drained
    cases drained
    exact ⟨(law some).numbered,(law some).count,(law some).bytes⟩
  · intro id id' subscription subscription' found found' line received line' received' same
    have told := (accounted.sound id subscription found).told line (List.mem_append_right _ received)
    have told' := (accounted.sound id' subscription' found').told line' (List.mem_append_right _ received')
    rw [told.1,told'.1,same]

/-! ### A reader that never drains -/

/-- One empty line for the only subscription. -/
def oneLine : List Action := [.announce,.number 0 [],.visit 1,.last,.enqueue,.release]

/-- Between the lines of a broker with one open subscription that has drained nothing. -/
structure Undrained (lines : ℕ) (s : State) : Prop where
  sequence : s.sequence = lines
  subscribers : s.subscribers = [1]
  building : s.building = 0
  delivery : s.delivery = none
  subscription : ∃ subscription, s.subscriptions 1 = some subscription ∧ subscription.closed = false ∧ subscription.received = [] ∧ subscription.joined = 0

theorem undrained_line {lines : ℕ} {s : State} (quiet : Undrained lines s) (few : lines + 1 ≤ u64Max) :
    ∃ s', follow step s oneLine = some s' ∧ Undrained (lines + 1) s' := by
  obtain ⟨number,same,building,delivery,subscription,found,opened,received,joined⟩ := quiet
  obtain ⟨sequence,nextSubscription,subscribers,subscriptions,between,going,texts⟩ := s
  dsimp only at number same building delivery found
  subst number same building delivery
  have kept (line : RemoteLine) : (subscription.enqueue line).closed = false ∧ (subscription.enqueue line).received = [] ∧ (subscription.enqueue line).joined = 0 := by
    unfold SubscriptionState.enqueue
    rw [if_neg (by simp [opened])]
    exact ⟨opened,received,joined⟩
  have next : (sequence + 1) % (u64Max + 1) = sequence + 1 := Nat.mod_eq_of_lt (by omega)
  simp [oneLine,follow,step,State.isClosed,found,opened,State.nextSequence,next]
  exact ⟨rfl,rfl,rfl,rfl,_,rfl,kept _⟩

theorem undrained_lines (count : ℕ) {lines : ℕ} {s : State} (quiet : Undrained lines s) (few : lines + count ≤ u64Max) :
    ∃ s', follow step s (List.replicate count oneLine).flatten = some s' ∧ Undrained (lines + count) s' := by
  induction count generalizing lines s with
  | zero => exact ⟨s,rfl,quiet⟩
  | succ count ih =>
    obtain ⟨middle,first,quiet⟩ := undrained_line quiet (by omega)
    obtain ⟨s',rest,quiet⟩ := ih quiet (by omega)
    refine ⟨s',?_,by rw [show lines + (count + 1) = lines + 1 + count by omega]; exact quiet⟩
    rw [List.replicate_succ,List.flatten_cons,follow_append,first]
    exact rest

theorem countP_oneLine (count : ℕ) : (List.replicate count oneLine).flatten.countP Action.isAnnounce = count := by
  induction count with
  | zero => rfl
  | succ count ih =>
    have one : oneLine.countP Action.isAnnounce = 1 := by decide
    rw [List.replicate_succ,List.flatten_cons,List.countP_append,ih,one,Nat.add_comm]

theorem undrained_run (count : ℕ) (few : count ≤ u64Max) : ∃ s, follow step initial (.subscribe :: (List.replicate count oneLine).flatten) = some s ∧
    Undrained count s := by
  have quiet : Undrained 0 { initial.put 1 ⟨[],0,0,false,0,[]⟩ with nextSubscription := 2, subscribers := [1] } :=
    ⟨rfl,rfl,rfl,rfl,_,rfl,rfl,rfl,rfl⟩
  have begins (rest : List Action) : follow step initial (.subscribe :: rest) =
      follow step { initial.put 1 ⟨[],0,0,false,0,[]⟩ with nextSubscription := 2, subscribers := [1] } rest := rfl
  obtain ⟨s,followed,quiet⟩ := undrained_lines count quiet (by omega)
  rw [Nat.zero_add] at quiet
  exact ⟨s,(begins _).trans followed,quiet⟩

/-- Two lines, both still in the queue. -/
theorem two_lines_accounted : ∃ s subscription, Run step initial (.subscribe :: (List.replicate 2 oneLine).flatten) s ∧ s.subscriptions 1 = some subscription ∧
    subscription.queue.length ≤ REMOTE_QUEUE_MAX_LINES ∧
    ∀ lines dropped left, subscription.drain 1 10 = ((lines,dropped),left) → lines ≠ [] → lines.map RemoteLine.sequence = List.range' (dropped + 1) lines.length := by
  obtain ⟨s,followed,quiet⟩ := undrained_run 2 (by decide)
  obtain ⟨_,_,_,_,subscription,found,opened,received,joined⟩ := quiet
  obtain ⟨each,_⟩ := lines_accounted (Run.of_follow followed) (by decide)
  obtain ⟨_,_,lines,_,_,law⟩ := each 1 subscription found
  refine ⟨s,subscription,Run.of_follow followed,found,lines,?_⟩
  intro lines dropped left drained some
  have numbers := (law opened 1 10 lines dropped left drained some).1
  have last : subscription.lastSequence = 0 := by
    unfold SubscriptionState.lastSequence
    rw [received,joined]
    rfl
  rwa [last,Nat.zero_add] at numbers

/-- A subscription that is closed after 1025 lines, none of which it has drained. -/
def undrainedActions : List Action := .subscribe :: (List.replicate 1025 oneLine).flatten ++ [.remove 1,.close 1]

/-- Closing empties the queue, but does not forget that lines were dropped. -/
theorem closed_with_dropped : ∃ s subscription, Run step initial undrainedActions s ∧ s.subscriptions 1 = some subscription ∧
    0 < subscription.dropped ∧ subscription.queue = [] := by
  obtain ⟨s,before,quiet⟩ := undrained_run 1025 (by decide)
  have accounted := accounted_run (Run.of_follow before) (by
    rw [List.countP_cons,countP_oneLine]
    decide)
  obtain ⟨sequence,subscribers,_,delivery,subscription,found,opened,received,joined⟩ := quiet
  have sound := accounted.sound 1 subscription found
  have idle : ¬s.Awaits 1 := not_awaits_of_free (by rw [delivery]; decide) 1
  have reached := accounted.current 1 (by rw [subscribers]; exact List.mem_singleton_self 1) subscription found opened idle
  have last : subscription.lastSequence = 0 := by
    unfold SubscriptionState.lastSequence
    rw [received,joined]
    rfl
  have lines := sound.lines
  have limit : REMOTE_QUEUE_MAX_LINES = 1024 := rfl
  have dropped : 0 < subscription.dropped := by
    unfold SubscriptionState.reached at reached
    omega
  have closes : follow step s [.remove 1,.close 1] =
      some ({ s with subscribers := s.subscribers.filter (fun k => k ≠ 1) }.put 1 subscription.close) := by
    simp [follow,step,delivery,found]
  refine ⟨_,subscription.close,Run.of_follow (by rw [undrainedActions,follow_append,before]; exact closes),rfl,?_,?_⟩
  · unfold SubscriptionState.close
    rw [if_neg (by simp [opened])]
    exact dropped
  · unfold SubscriptionState.close
    rw [if_neg (by simp [opened])]

end NodeAgent.RemoteBroker
