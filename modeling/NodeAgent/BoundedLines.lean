import NodeAgent.CharBoundaries

/-!
Log lines of bounded length. A line is formatted piece by piece into a buffer; what does not fit
is cut at a character, and a line that was cut gets a suffix that says so. Subtractions are
checked, and the sizes that the buffer asks for are recorded.
-/
namespace NodeAgent.BoundedLines
open NodeAgent.CharBoundaries

def MAX_LINE_BYTES : Nat := 32768

def SUFFIX : Text := " [truncated]".toList

/-- The buffer gets at least what it asks for. -/
structure Allocator where
  grant : Nat → Nat
  enough : ∀ asked, asked ≤ grant asked

/-- The buffer gets just what it asks for. -/
def exactly : Allocator := ⟨id,Nat.le_refl⟩

structure BoundedLine where
  text : Text
  capacity : Nat
  truncated : Bool
  requested : List Nat

def BoundedLine.new : BoundedLine := ⟨[],0,false,[]⟩

def checkedSub (a b : Nat) : Option Nat := if b ≤ a then some (a - b) else none

section Formatting
variable (allocator : Allocator)

/-- The buffer is moved to a place of some capacity if it has less. -/
def BoundedLine.request (line : BoundedLine) (needed capacity : Nat) : BoundedLine :=
  if line.capacity < needed then { line with capacity := allocator.grant capacity, requested := line.requested ++ [capacity] } else line

/-- `text.reserve_exact(additional)`. -/
def reserveExact (line : BoundedLine) (additional : Nat) : BoundedLine :=
  line.request allocator (size line.text + additional) (size line.text + additional)

/-- `text.push_str(more)`, which grows the buffer by itself where it is full. -/
def pushStr (line : BoundedLine) (more : Text) : BoundedLine :=
  let needed := size line.text + size more
  let grown := line.request allocator needed (max (max (line.capacity * 2) needed) 8)
  { grown with text := line.text ++ more }

def reserve (line : BoundedLine) (additional : Nat) : Option BoundedLine := do
  let required := size line.text + additional
  if required > line.capacity then
    let capacity := min (max required (line.capacity * 2)) MAX_LINE_BYTES
    let more ← checkedSub capacity (size line.text)
    return reserveExact allocator line more
  else return line

def writeStr (line : BoundedLine) (text : Text) : Option BoundedLine := do
  let available ← checkedSub (MAX_LINE_BYTES - 1) (size line.text)
  let stop := backToBoundary text (min available (size text))
  let line ← reserve allocator line stop
  let front ← slice text stop
  let written := pushStr allocator line front
  return { written with truncated := line.truncated || stop != size text }

def finish (line : BoundedLine) : Option BoundedLine := do
  let line ← if line.truncated then do
      let limit ← checkedSub (MAX_LINE_BYTES - 1) (size SUFFIX)
      let front ← slice line.text (backToBoundary line.text (min (size line.text) limit))
      let line ← reserve allocator { line with text := front } (size SUFFIX + 1)
      pure (pushStr allocator line SUFFIX)
    else pure line
  let line ← reserve allocator line 1
  return pushStr allocator line ['\n']

/-- A line is formatted from its pieces. -/
def format (pieces : List Text) : Option BoundedLine := do
  let line ← pieces.foldlM (writeStr allocator) BoundedLine.new
  finish allocator line

end Formatting

/-! ### The buffer -/

section Buffer
variable (allocator : Allocator) {line : BoundedLine} {more : Text} {additional : Nat}

/-- The sizes asked for are bounded. -/
def Modest (line : BoundedLine) : Prop := ∀ asked ∈ line.requested, asked ≤ MAX_LINE_BYTES

theorem checkedSub_of_le {a b : Nat} (fits : b ≤ a) : checkedSub a b = some (a - b) := if_pos fits

theorem request_spec {needed capacity : Nat} (covered : needed ≤ capacity) (bounded : capacity ≤ MAX_LINE_BYTES) (modest : Modest line) :
    (line.request allocator needed capacity).text = line.text ∧ (line.request allocator needed capacity).truncated = line.truncated ∧
      needed ≤ (line.request allocator needed capacity).capacity ∧ Modest (line.request allocator needed capacity) := by
  unfold BoundedLine.request
  split
  · refine ⟨rfl,rfl,covered.trans (allocator.enough capacity),?_⟩
    intro asked listed
    rcases List.mem_append.mp listed with earlier | last
    · exact modest asked earlier
    · exact List.mem_singleton.mp last ▸ bounded
  · next room => exact ⟨rfl,rfl,Nat.le_of_not_lt room,modest⟩

/-- There is room after it, and what is asked for is bounded, if there can be. -/
theorem reserve_spec (fits : size line.text + additional ≤ MAX_LINE_BYTES) (modest : Modest line) :
    ∃ reserved, reserve allocator line additional = some reserved ∧ reserved.text = line.text ∧ reserved.truncated = line.truncated ∧
      size line.text + additional ≤ reserved.capacity ∧ Modest reserved := by
  unfold reserve
  dsimp only
  by_cases short : size line.text + additional > line.capacity
  · rw [if_pos short]
    generalize asked : min (max (size line.text + additional) (line.capacity * 2)) MAX_LINE_BYTES = capacity
    have covered : size line.text + additional ≤ capacity := by omega
    have bounded : capacity ≤ MAX_LINE_BYTES := by omega
    have back : size line.text + (capacity - size line.text) = capacity := by omega
    obtain ⟨text,truncated,room,modest'⟩ := request_spec allocator (le_refl capacity) bounded modest
    refine ⟨reserveExact allocator line (capacity - size line.text),?_,?_⟩
    · rw [checkedSub_of_le (by omega)]
      rfl
    · rw [reserveExact,back]
      exact ⟨text,truncated,covered.trans room,modest'⟩
  · rw [if_neg short]
    exact ⟨line,rfl,rfl,rfl,Nat.le_of_not_lt short,modest⟩

/-- Where there is room, nothing more is asked for. -/
theorem pushStr_spec (room : size line.text + size more ≤ line.capacity) (modest : Modest line) :
    (pushStr allocator line more).text = line.text ++ more ∧ Modest (pushStr allocator line more) := by
  unfold pushStr BoundedLine.request
  dsimp only
  rw [if_neg (Nat.not_lt.mpr room)]
  exact ⟨rfl,modest⟩

/-- Reserving room and filling it. -/
theorem reserve_push (line : BoundedLine) (more : Text) (fits : size line.text + additional ≤ MAX_LINE_BYTES) (within : size more ≤ additional) (modest : Modest line) :
    ∃ reserved, reserve allocator line additional = some reserved ∧ (pushStr allocator reserved more).text = line.text ++ more ∧
      reserved.text = line.text ∧ reserved.truncated = line.truncated ∧ Modest (pushStr allocator reserved more) := by
  obtain ⟨reserved,done,text,truncated,room,modest'⟩ := reserve_spec allocator fits modest
  obtain ⟨pushed,modest''⟩ := pushStr_spec allocator (show size reserved.text + size more ≤ reserved.capacity by rw [text]; omega) modest'
  exact ⟨reserved,done,by rw [pushed,text],text,truncated,modest''⟩

end Buffer

/-! ### Lines -/

section Lines
variable (allocator : Allocator) {line : BoundedLine} {whole piece : Text}

/-- The buffer has all of the text, or begins with a long first part of it. -/
structure Holds (line : BoundedLine) (whole : Text) : Prop where
  fits : size line.text ≤ MAX_LINE_BYTES - 1
  modest : Modest line
  exact : line.truncated = false → line.text = whole
  cut : line.truncated = true → MAX_LINE_BYTES - 1 < size whole ∧
    ∃ front rest, line.text = front ++ rest ∧ front <+: whole ∧ MAX_LINE_BYTES - 1 ≤ size front + 3

theorem new_holds : Holds BoundedLine.new [] :=
  ⟨Nat.zero_le _,fun _ listed => absurd listed List.not_mem_nil,fun _ => rfl,fun impossible => by cases impossible⟩

/-- A piece is added up to the last character that fits. -/
theorem writeStr_spec (piece : Text) (fits : size line.text ≤ MAX_LINE_BYTES - 1) (modest : Modest line) :
    ∃ written, writeStr allocator line piece = some written ∧ written.text = line.text ++ upTo piece (MAX_LINE_BYTES - 1 - size line.text) ∧
      (written.truncated = true ↔ line.truncated = true ∨ MAX_LINE_BYTES - 1 - size line.text < size piece) ∧ Modest written := by
  have back := slice_back piece (min (MAX_LINE_BYTES - 1 - size line.text) (size piece))
  have stop := backToBoundary_eq piece (min (MAX_LINE_BYTES - 1 - size line.text) (size piece))
  rw [upTo_min] at back stop
  have within := size_upTo_le piece (MAX_LINE_BYTES - 1 - size line.text)
  have cut : size (upTo piece (MAX_LINE_BYTES - 1 - size line.text)) ≠ size piece ↔ MAX_LINE_BYTES - 1 - size line.text < size piece := by
    constructor
    · exact fun other => Nat.lt_of_not_le (fun room => other (by rw [upTo_of_size_le room]))
    · exact fun past => by omega
  have limit : MAX_LINE_BYTES - 1 + 1 = MAX_LINE_BYTES := rfl
  generalize upTo piece (MAX_LINE_BYTES - 1 - size line.text) = taken at back stop within cut ⊢
  obtain ⟨reserved,done,pushed,-,truncated,modest'⟩ := reserve_push allocator line taken (show size line.text + size taken ≤ MAX_LINE_BYTES by omega)
    le_rfl modest
  refine ⟨{ pushStr allocator reserved taken with truncated := reserved.truncated || size taken != size piece },?_,pushed,?_,modest'⟩
  · unfold writeStr
    rw [checkedSub_of_le fits]
    dsimp only [Option.bind_eq_bind,Option.bind_some]
    rw [stop,done]
    rw [stop] at back
    dsimp only [Option.bind_some]
    rw [back]
    rfl
  · rw [truncated]
    simp [cut]

/-- After a first cut, less than one character is missing before the end of the buffer. -/
theorem writeStr_holds (piece : Text) (holds : Holds line whole) : ∃ line', writeStr allocator line piece = some line' ∧ Holds line' (whole ++ piece) := by
  obtain ⟨written,done,text,truncated,modest⟩ := writeStr_spec allocator piece holds.fits holds.modest
  have fits := holds.fits
  have within := size_upTo_le piece (MAX_LINE_BYTES - 1 - size line.text)
  refine ⟨written,done,?_,modest,?_,?_⟩
  · rw [text,size_append]
    omega
  · intro whole'
    have neither := (not_congr truncated).mp (by simp [whole'])
    obtain ⟨uncut,room⟩ := not_or.mp neither
    rw [text,upTo_of_size_le (Nat.le_of_not_lt room),holds.exact (by simpa using uncut)]
  · intro cut
    cases before : line.truncated with
    | true =>
      obtain ⟨more,front,rest,parts,first,long⟩ := holds.cut before
      refine ⟨by rw [size_append]; omega,front,rest ++ upTo piece (MAX_LINE_BYTES - 1 - size line.text),?_,?_,long⟩
      · rw [text,parts,List.append_assoc]
      · exact first.trans (List.prefix_append whole piece)
    | false =>
      have exact := holds.exact before
      have exceeds : MAX_LINE_BYTES - 1 - size line.text < size piece := by
        rcases truncated.mp cut with earlier | now
        · rw [before] at earlier
          cases earlier
        · exact now
      have rest := lt_size_upTo exceeds
      rw [exact] at fits text exceeds rest
      refine ⟨by rw [size_append]; omega,whole ++ upTo piece (MAX_LINE_BYTES - 1 - size whole),[],?_,?_,?_⟩
      · rw [text,List.append_nil]
      · exact (List.prefix_append_right_inj whole).mpr (upTo_front piece _)
      · rw [size_append]
        omega

theorem pieces_hold (pieces : List Text) (holds : Holds line whole) :
    ∃ line', pieces.foldlM (writeStr allocator) line = some line' ∧ Holds line' (whole ++ pieces.flatten) := by
  induction pieces generalizing line whole with
  | nil => exact ⟨line,rfl,by simpa using holds⟩
  | cons piece rest ih =>
    obtain ⟨written,done,held⟩ := writeStr_holds allocator piece holds
    obtain ⟨line',done',held'⟩ := ih held
    refine ⟨line',?_,by simpa using held'⟩
    rw [List.foldlM_cons,done]
    exact done'

/-- The last cut is where the buffer still begins with the text. -/
theorem finish_spec (holds : Holds line whole) :
    ∃ line', finish allocator line = some line' ∧ Modest line' ∧ size line'.text ≤ MAX_LINE_BYTES ∧
      (line.truncated = false → line'.text = whole ++ ['\n']) ∧
      (line.truncated = true → ∃ front, front <+: whole ∧ line'.text = front ++ SUFFIX ++ ['\n']) := by
  have suffix : size SUFFIX = 12 := by decide
  have newline : size ['\n'] = 1 := by decide
  have limit : MAX_LINE_BYTES = 32768 := rfl
  have ended {line : BoundedLine} (fits : size line.text + 1 ≤ MAX_LINE_BYTES) (modest : Modest line) :
      ∃ reserved, reserve allocator line 1 = some reserved ∧ (pushStr allocator reserved ['\n']).text = line.text ++ ['\n'] ∧
        Modest (pushStr allocator reserved ['\n']) := by
    obtain ⟨reserved,done,pushed,-,-,modest'⟩ := reserve_push allocator line ['\n'] fits (by rw [newline]) modest
    exact ⟨reserved,done,pushed,modest'⟩
  have fits := holds.fits
  cases truncated : line.truncated with
  | false =>
    obtain ⟨reserved,done,pushed,modest⟩ := ended (by omega) holds.modest
    refine ⟨pushStr allocator reserved ['\n'],?_,modest,?_,fun _ => ?_,fun impossible => by cases impossible⟩
    · rw [finish,truncated,if_neg Bool.false_ne_true]
      dsimp only [pure_bind,Option.bind_eq_bind,Option.pure_def,Option.bind_some]
      rw [done]
      rfl
    · rw [pushed,size_append,newline]
      omega
    · rw [pushed,holds.exact truncated]
  | true =>
    obtain ⟨-,front,rest,parts,first,long⟩ := holds.cut truncated
    have back := slice_back line.text (MAX_LINE_BYTES - 1 - size SUFFIX)
    have least : min (size line.text) (MAX_LINE_BYTES - 1 - size SUFFIX) = MAX_LINE_BYTES - 1 - size SUFFIX := by
      rw [parts,size_append]
      omega
    have kept : upTo line.text (MAX_LINE_BYTES - 1 - size SUFFIX) <+: whole := by
      rw [parts,upTo_append (by omega)]
      exact (upTo_front front _).trans first
    have within := size_upTo_le line.text (MAX_LINE_BYTES - 1 - size SUFFIX)
    generalize upTo line.text (MAX_LINE_BYTES - 1 - size SUFFIX) = taken at back kept within
    obtain ⟨reserved,done,pushed,-,-,modest⟩ := reserve_push allocator { line with text := taken } SUFFIX
      (show size taken + (size SUFFIX + 1) ≤ MAX_LINE_BYTES by omega) (by omega) holds.modest
    rw [truncated] at done
    dsimp only at pushed
    obtain ⟨reserved',done',pushed',modest'⟩ := ended (show size (pushStr allocator reserved SUFFIX).text + 1 ≤ MAX_LINE_BYTES by rw [pushed,size_append]; omega) modest
    refine ⟨pushStr allocator reserved' ['\n'],?_,modest',?_,fun impossible => (by cases impossible),fun _ => ⟨taken,kept,by rw [pushed',pushed]⟩⟩
    · rw [finish,truncated,if_pos rfl,checkedSub_of_le (by omega)]
      dsimp only [Option.bind_eq_bind,Option.bind_some]
      rw [least,back]
      dsimp only [Option.bind_some]
      rw [done]
      dsimp only [Option.pure_def,Option.bind_some]
      rw [done']
      rfl
    · rw [pushed',pushed,size_append,size_append,newline]
      omega

end Lines

/-- A line is all of its text, or a first part of it with a suffix; it is never longer than the
    limit, nothing longer is asked for, and no subtraction fails. -/
theorem format_bounded (allocator : Allocator) (pieces : List Text) :
    ∃ line, format allocator pieces = some line ∧ size line.text ≤ MAX_LINE_BYTES ∧ (∀ asked ∈ line.requested, asked ≤ MAX_LINE_BYTES) ∧
      (size pieces.flatten ≤ MAX_LINE_BYTES - 1 → line.text = pieces.flatten ++ ['\n']) ∧
      (MAX_LINE_BYTES - 1 < size pieces.flatten → ∃ front, front <+: pieces.flatten ∧ line.text = front ++ SUFFIX ++ ['\n']) := by
  obtain ⟨written,done,holds⟩ := pieces_hold allocator pieces new_holds
  rw [List.nil_append] at holds
  obtain ⟨line,finished,modest,fits,whole,cut⟩ := finish_spec allocator holds
  refine ⟨line,?_,fits,modest,fun short => whole ?_,fun long => cut ?_⟩
  · unfold format
    rw [done]
    exact finished
  · by_contra truncated
    have exceeds := (holds.cut (by simpa using truncated)).1
    omega
  · by_contra untruncated
    have exact := holds.exact (by simpa using untruncated)
    have room := holds.fits
    rw [exact] at room
    omega

/-- A character does not fit in the line, and a smaller one after it would. -/
theorem later_piece_cut : ∃ line front, format exactly [List.replicate 32766 'a',['é'],['b']] = some line ∧ size line.text ≤ MAX_LINE_BYTES ∧
    front <+: List.replicate 32766 'a' ++ ['é','b'] ∧ line.text = front ++ SUFFIX ++ ['\n'] := by
  obtain ⟨line,formatted,fits,_,_,cut⟩ := format_bounded exactly [List.replicate 32766 'a',['é'],['b']]
  have sized (n : Nat) : size (List.replicate n 'a') = n := by
    induction n with
    | zero => rfl
    | succ n ih =>
      rw [List.replicate_succ,size_cons,ih,Nat.add_comm]
      rfl
  have long : MAX_LINE_BYTES - 1 < size [List.replicate 32766 'a',['é'],['b']].flatten := by
    rw [List.flatten_cons,size_append,sized]
    decide
  obtain ⟨front,first,text⟩ := cut long
  exact ⟨line,front,formatted,fits,first,text⟩

end NodeAgent.BoundedLines
