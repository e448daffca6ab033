import NodeAgent.ForwardingPlans
import NodeAgent.Intervals
import NodeAgent.OutboundGraph
import NodeAgent.TrimmedTexts

/-!
The texts of port ranges: items between commas, each a port or two ports with a dash between
them, and white space around each. Ranges are sorted, and merged where they leave no gap.
-/
namespace NodeAgent.PortRanges
open NodeAgent.Api NodeAgent.RouteRules NodeAgent.Intervals
open NodeAgent.ForwardingPlans (PortRange)
open NodeAgent.Outbounds (bind_ok ok_bind parseDigits parseUnsigned)

/-- `s.split(separator)`. -/
def split (s : String) (separator : Char) : List String := (s.toList.splitOn separator).map String.ofList

def parsePort (value : String) : Except String UInt16 :=
  if value.isEmpty then .error "port is required"
  else if !value.toList.all Char.isDigit then .error "port must contain decimal digits only"
  else
    match parseUnsigned (2 ^ 16) value with
    | .ok port => if port ≠ 0 then .ok (UInt16.ofNat port) else .error "port must be between 1 and 65535"
    | .error _ => .error "port must be between 1 and 65535"

/-- The ranges are sorted; `last` is the last one merged so far. -/
def mergeFrom (last : PortRange) : List PortRange → List PortRange
  | [] => [last]
  | current :: rest =>
    if current.start.toNat ≤ last.stop.toNat + 1 then mergeFrom ⟨last.start,max last.stop current.stop⟩ rest
    else last :: mergeFrom current rest

def mergePortRanges (ranges : List PortRange) : List PortRange :=
  match ranges.mergeSort (fun left right => (left.cmp right).isLE) with
  | [] => []
  | first :: rest => mergeFrom first rest

section Parsing
variable (quote : String → String)

def parseBound (item bound : String) : Except String UInt16 :=
  match parsePort (trim bound) with
  | .ok port => .ok port
  | .error error => .error s!"invalid port range {quote item}: {error}"

def parseItem (item : String) : Except String PortRange :=
  if item.isEmpty then .error "port range contains an empty item"
  else
    match split item '-' with
    | [only] => do
      let start ← parseBound quote item only
      return ⟨start,start⟩
    | [first,last] => do
      let start ← parseBound quote item first
      let stop ← parseBound quote item last
      if stop < start then throw s!"invalid port range {quote item}: end must not be less than start"
      else return ⟨start,stop⟩
    | _ => .error s!"invalid port range {quote item}"

def parseItems : List String → Except String (List PortRange)
  | [] => .ok []
  | raw :: rest => do
    let range ← parseItem quote (trim raw)
    let ranges ← parseItems rest
    return range :: ranges

def parsePortRanges (expression : String) : Except String (List PortRange) :=
  if blank expression then .ok []
  else do
    let ranges ← parseItems quote (split expression ',')
    return mergePortRanges ranges

def normalizePortRanges (expression : String) : Except String String := do
  let ranges ← parsePortRanges quote expression
  return ",".intercalate (ranges.map PortRange.display)

end Parsing

/-! ### The language -/

/-- A text of decimal digits for a port. -/
structure NamesPort (text : String) (port : ℕ) : Prop where
  nonempty : text ≠ ""
  digits : ∀ c ∈ text.toList, c.isDigit
  value : Nat.ofDigitChars 10 text.toList 0 = port
  positive : 1 ≤ port
  bounded : port ≤ 65535

/-- A text for a port or for a range, with white space around it and around its bounds. -/
inductive NamesRange (item : String) : ℕ → ℕ → Prop
  | port {p : ℕ} : NamesPort (trim item) p → NamesRange item p p
  | range {first last : String} {a b : ℕ} : trim item = first ++ "-" ++ last → NamesPort (trim first) a → NamesPort (trim last) b → a ≤ b →
    NamesRange item a b

/-! ### Ports -/

theorem ofDigitChars_ge (digits : List Char) (value : ℕ) : value ≤ Nat.ofDigitChars 10 digits value := by
  induction digits generalizing value with
  | nil => exact le_rfl
  | cons c rest ih =>
    have step := ih (10 * value + (c.toNat - '0'.toNat))
    have same : Nat.ofDigitChars 10 (c :: rest) value = Nat.ofDigitChars 10 rest (10 * value + (c.toNat - '0'.toNat)) := rfl
    omega

theorem parseDigits_spec {bound value n : ℕ} {digits : List Char} (within : value < bound) :
    parseDigits bound value digits = .ok n ↔ (∀ c ∈ digits, c.isDigit) ∧ Nat.ofDigitChars 10 digits value = n ∧ n < bound := by
  induction digits generalizing value with
  | nil =>
    constructor
    · intro done
      cases done
      exact ⟨by simp,rfl,within⟩
    · rintro ⟨_,rfl,_⟩
      rfl
  | cons c rest ih =>
    have same : Nat.ofDigitChars 10 (c :: rest) value = Nat.ofDigitChars 10 rest (10 * value + (c.toNat - '0'.toNat)) := rfl
    rw [parseDigits,same,List.forall_mem_cons]
    by_cases digit : c.isDigit
    · rw [if_pos digit,Nat.mul_comm value 10]
      by_cases small : 10 * value + (c.toNat - '0'.toNat) < bound
      · rw [if_pos small,ih small]
        simp [digit]
      · rw [if_neg small]
        have grows := ofDigitChars_ge rest (10 * value + (c.toNat - '0'.toNat))
        constructor
        · intro impossible
          cases impossible
        · rintro ⟨_,own,less⟩
          omega
    · rw [if_neg digit]
      simp [digit]

/-- A text is parsed to the port that it names. -/
theorem parsePort_spec {text : String} {port : UInt16} : parsePort text = .ok port ↔ NamesPort text port.toNat := by
  unfold parsePort
  by_cases empty : text = ""
  · subst empty
    constructor
    · intro impossible
      cases impossible
    · rintro ⟨impossible,_⟩
      exact absurd rfl impossible
  · rw [if_neg (by simpa using empty)]
    by_cases digits : ∀ c ∈ text.toList, c.isDigit
    · rw [if_neg (by simpa using digits)]
      have unsigned : parseUnsigned (2 ^ 16) text = parseDigits (2 ^ 16) 0 text.toList := by
        unfold parseUnsigned
        split
        · next nothing => exact absurd (by simpa using nothing) empty
        · next plus => exact absurd (digits '+' (by rw [plus]; simp)) (by decide)
        · next plus => exact absurd (digits '+' (by rw [plus]; simp)) (by decide)
        · rfl
      rw [unsigned]
      have spec (n : ℕ) := @parseDigits_spec (2 ^ 16) 0 n text.toList (by decide)
      cases parsed : parseDigits (2 ^ 16) 0 text.toList with
      | error e =>
        constructor
        · intro impossible
          cases impossible
        · intro named
          have small := port.toNat_lt
          rw [(spec port.toNat).mpr ⟨named.digits,named.value,small⟩] at parsed
          cases parsed
      | ok n =>
        obtain ⟨_,value,small⟩ := (spec n).mp parsed
        dsimp only
        split
        · next nonzero =>
          have own : (UInt16.ofNat n).toNat = n := UInt16.toNat_ofNat_of_lt' small
          constructor
          · intro done
            cases done
            rw [own]
            exact ⟨empty,digits,value,by omega,by omega⟩
          · intro named
            have same := value.symm.trans named.value
            exact congrArg Except.ok (UInt16.toNat_inj.mp (own.trans same))
        · next zero =>
          constructor
          · intro impossible
            cases impossible
          · intro named
            have same := value.symm.trans named.value
            have positive := named.positive
            omega
    · rw [if_pos (by simpa using digits)]
      constructor
      · intro impossible
        cases impossible
      · intro named
        exact absurd named.digits digits

theorem NamesPort.ofNat {text : String} {port : ℕ} (named : NamesPort text port) : (UInt16.ofNat port).toNat = port :=
  UInt16.toNat_ofNat_of_lt' (by have bounded := named.bounded; show port < 65536; omega)

/-- Digits are no white space, dashes or commas. -/
theorem NamesPort.plain {text : String} {port : ℕ} (named : NamesPort text port) :
    ∀ c ∈ text.toList, ¬ isWhitespace c ∧ c ≠ '-' ∧ c ≠ ',' := by
  intro c member
  have digit := named.digits c member
  refine ⟨?_,?_,?_⟩
  · simp only [Char.isDigit,Bool.and_eq_true,decide_eq_true_eq,UInt32.le_iff_toNat_le,ge_iff_le] at digit
    simp [isWhitespace,UInt32.le_iff_toNat_le,← UInt32.toNat_inj] at digit ⊢
    omega
  · rintro rfl
    exact absurd digit (by decide)
  · rintro rfl
    exact absurd digit (by decide)

/-! ### Items -/

section Items
variable {quote : String → String} {raw item : String} {range : PortRange}

theorem split_single {s : String} {separator : Char} (plain : separator ∉ s.toList) : split s separator = [s] := by
  have whole := @List.splitOn_intercalate Char [s.toList] _ _ separator (by simpa using plain) (by simp)
  rw [split]
  have own : [separator].intercalate [s.toList] = s.toList := by simp [List.intercalate]
  rw [own] at whole
  rw [whole]
  simp

theorem split_pair {first last : String} {separator : Char} (plain : separator ∉ first.toList) (plain' : separator ∉ last.toList) :
    split (first ++ String.singleton separator ++ last) separator = [first,last] := by
  have whole := @List.splitOn_intercalate Char [first.toList,last.toList] _ _ separator (by simp [plain,plain']) (by simp)
  have own : [separator].intercalate [first.toList,last.toList] = (first ++ String.singleton separator ++ last).toList := by simp [List.intercalate]
  rw [own] at whole
  rw [split,whole]
  simp

/-- The parts of a text, with separators between them, are the text. -/
theorem intercalate_split (s : String) (separator : Char) : [separator].intercalate ((split s separator).map String.toList) = s.toList := by
  have own : (split s separator).map String.toList = s.toList.splitOn separator := by
    rw [split,List.map_map]
    exact (List.map_congr_left (fun part _ => String.toList_ofList)).trans (List.map_id _)
  rw [own]
  exact List.intercalate_splitOn separator

theorem parseBound_spec {bound : String} {port : UInt16} : parseBound quote item bound = .ok port ↔ NamesPort (trim bound) port.toNat := by
  rw [← parsePort_spec,parseBound]
  cases parsePort (trim bound) <;> simp

/-- An item is parsed to the range that it names. -/
theorem parseItem_spec : parseItem quote (trim raw) = .ok range ↔ NamesRange raw range.start.toNat range.stop.toNat := by
  constructor
  · intro done
    unfold parseItem at done
    split at done
    · cases done
    · split at done
      · next only parts =>
        obtain ⟨start,bound,done⟩ := bind_ok done
        cases done
        have whole := intercalate_split (trim raw) '-'
        rw [parts] at whole
        have own : only = trim raw := by
          apply String.toList_inj.mp
          simpa [List.intercalate] using whole
        have named := parseBound_spec.mp bound
        rw [own,trim_trim] at named
        exact .port named
      · next first last parts =>
        obtain ⟨start,bound,done⟩ := bind_ok done
        obtain ⟨stop,bound',done⟩ := bind_ok done
        split at done
        · cases done
        · next ordered =>
          cases done
          have whole := intercalate_split (trim raw) '-'
          rw [parts] at whole
          have own : trim raw = first ++ "-" ++ last := by
            apply String.toList_inj.mp
            simpa [List.intercalate] using whole.symm
          refine .range own (parseBound_spec.mp bound) (parseBound_spec.mp bound') ?_
          simpa [UInt16.lt_iff_toNat_lt] using ordered
      · cases done
  · generalize from_start : range.start.toNat = a
    generalize from_stop : range.stop.toNat = b
    intro named
    cases named with
    | port named =>
      have start : range.stop = range.start := UInt16.toNat_inj.mp (from_stop.trans from_start.symm)
      rw [← from_start] at named
      have plain : '-' ∉ (trim raw).toList := fun member => (named.plain '-' member).2.1 rfl
      have bound : parseBound quote (trim raw) (trim raw) = .ok range.start := parseBound_spec.mpr (by rw [trim_trim]; exact named)
      unfold parseItem
      rw [if_neg (by simpa using named.nonempty),split_single plain]
      dsimp only
      rw [bound,ok_bind]
      exact congrArg Except.ok (by cases range; cases start; rfl)
    | @range first last _ _ own named named' ordered =>
      rw [← from_start] at named ordered
      rw [← from_stop] at named' ordered
      have plain {part : String} {port : ℕ} (named : NamesPort (trim part) port) : '-' ∉ part.toList := by
        intro member
        rcases mem_trim member with kept | white
        · exact (named.plain '-' kept).2.1 rfl
        · exact absurd white (by decide)
      have filled : ¬ (trim raw).isEmpty := by
        rw [own]
        simp
      unfold parseItem
      rw [if_neg filled]
      have parts : split (trim raw) '-' = [first,last] := by
        rw [own]
        exact split_pair (plain named) (plain named')
      rw [parts]
      dsimp only
      rw [parseBound_spec.mpr named,ok_bind,parseBound_spec.mpr named',ok_bind,if_neg]
      · rfl
      · rw [UInt16.lt_iff_toNat_lt]
        omega

/-- Both bounds are named at once. -/
theorem NamesRange.bounded {a b : ℕ} (named : NamesRange raw a b) : 1 ≤ a ∧ a ≤ b ∧ b ≤ 65535 := by
  cases named with
  | port named => exact ⟨named.positive,le_rfl,named.bounded⟩
  | range _ named named' ordered => exact ⟨named.positive,ordered,named'.bounded⟩

theorem NamesRange.parsed {a b : ℕ} (named : NamesRange raw a b) : parseItem quote (trim raw) = .ok ⟨UInt16.ofNat a,UInt16.ofNat b⟩ := by
  obtain ⟨_,ordered,bounded⟩ := named.bounded
  have start : (UInt16.ofNat a).toNat = a := UInt16.toNat_ofNat_of_lt' (by show a < 65536; omega)
  have stop : (UInt16.ofNat b).toNat = b := UInt16.toNat_ofNat_of_lt' (by show b < 65536; omega)
  exact parseItem_spec.mpr (by rw [start,stop]; exact named)

theorem parseItems_spec {items : List String} {ranges : List PortRange} :
    parseItems quote items = .ok ranges ↔ List.Forall₂ (fun raw range => parseItem quote (trim raw) = .ok range) items ranges := by
  induction items generalizing ranges with
  | nil =>
    constructor
    · intro done
      cases done
      exact .nil
    · intro related
      cases related
      rfl
  | cons raw rest ih =>
    constructor
    · intro done
      obtain ⟨range,first,done⟩ := bind_ok done
      obtain ⟨others,later,done⟩ := bind_ok done
      cases done
      exact .cons first (ih.mp later)
    · intro related
      cases related with
      | cons first later =>
        rw [parseItems,first,ok_bind,ih.mpr later]
        rfl

end Items

/-! ### Merging -/

/-- A range as an interval of numbers. -/
def interval (range : PortRange) : Intervals.Interval ℕ := ⟨range.start.toNat,range.stop.toNat⟩

/-- No number is left between the two. -/
def touches (x y : ℕ) : Bool := y ≤ x + 1

theorem touches_gapless (x y : ℕ) : touches x y = true ↔ ¬ ∃ z, x < z ∧ z < y := by
  rw [touches,decide_eq_true_eq]
  constructor
  · rintro near ⟨z,after,before⟩
    omega
  · intro none
    by_contra far
    exact none ⟨x + 1,by omega,by omega⟩

theorem interval_injective : Function.Injective interval := by
  rintro ⟨start,stop⟩ ⟨start',stop'⟩ same
  simp only [interval,Intervals.Interval.mk.injEq] at same
  rw [UInt16.toNat_inj.mp same.1,UInt16.toNat_inj.mp same.2]

theorem toNat_max (a b : UInt16) : (max a b).toNat = max a.toNat b.toNat := by
  change (if a ≤ b then b else a).toNat = max a.toNat b.toNat
  split
  · next less => exact (max_eq_right (UInt16.le_iff_toNat_le.mp less)).symm
  · next less => exact (max_eq_left (Nat.le_of_not_le (fun le => less (UInt16.le_iff_toNat_le.mpr le)))).symm

theorem mergeFrom_intervals (last : PortRange) (ranges : List PortRange) :
    (mergeFrom last ranges).map interval = Intervals.mergeFrom touches (interval last) (ranges.map interval) := by
  induction ranges generalizing last with
  | nil => rfl
  | cons current rest ih =>
    rw [List.map_cons,mergeFrom,Intervals.mergeFrom]
    by_cases near : current.start.toNat ≤ last.stop.toNat + 1
    · have near' : touches (interval last).stop (interval current).start := decide_eq_true near
      rw [if_pos near,if_pos near',ih,interval,toNat_max]
      rfl
    · have far : ¬ touches (interval last).stop (interval current).start := fun touching => near (of_decide_eq_true touching)
      rw [if_neg near,if_neg far,List.map_cons,ih]

/-- The ranges after sorting. -/
def sortedRanges (ranges : List PortRange) : List PortRange := ranges.mergeSort (fun left right => (left.cmp right).isLE)

instance : Std.TransCmp PortRange.cmp := inferInstanceAs (Std.TransCmp (compareLex (compareOn PortRange.start) (compareOn PortRange.stop)))

theorem cmp_start {left right : PortRange} (ordered : (left.cmp right).isLE) : left.start.toNat ≤ right.start.toNat := by
  unfold PortRange.cmp at ordered
  by_contra less
  have greater : compare left.start right.start = .gt := Std.compare_eq_gt.mpr (UInt16.lt_iff_toNat_lt.mpr (Nat.lt_of_not_le less))
  rw [greater] at ordered
  cases ordered

theorem sortedRanges_starts (ranges : List PortRange) : ((sortedRanges ranges).map interval).Pairwise (fun i j => i.start ≤ j.start) := by
  rw [List.pairwise_map]
  have sorted : (sortedRanges ranges).Pairwise (fun left right => (left.cmp right).isLE = true) := by
    refine List.pairwise_mergeSort (fun a b c => Std.TransCmp.isLE_trans) (fun a b => ?_) ranges
    rw [@Std.OrientedCmp.eq_swap _ PortRange.cmp _ b a]
    cases a.cmp b <;> rfl
  exact sorted.imp cmp_start

/-- Merged ranges have gaps between them, and the ports of all ranges. -/
theorem mergePortRanges_spec {ranges : List PortRange} (filled : ∀ range ∈ ranges, range.start.toNat ≤ range.stop.toNat) :
    Gapped ((mergePortRanges ranges).map interval) ∧ denoted ((mergePortRanges ranges).map interval) = denoted (ranges.map interval) := by
  have merged : (mergePortRanges ranges).map interval = Intervals.merge touches ((sortedRanges ranges).map interval) := by
    unfold mergePortRanges
    change (match sortedRanges ranges with
      | [] => []
      | first :: rest => mergeFrom first rest).map interval = _
    cases sortedRanges ranges with
    | nil => rfl
    | cons first rest => exact mergeFrom_intervals first rest
  have same : denoted ((sortedRanges ranges).map interval) = denoted (ranges.map interval) := by
    have members (range : PortRange) : range ∈ sortedRanges ranges ↔ range ∈ ranges := List.mem_mergeSort
    simp only [denoted,List.mem_map,members]
  have filled' : ∀ i ∈ (sortedRanges ranges).map interval, i.start ≤ i.stop := by
    intro i member
    obtain ⟨range,listed,rfl⟩ := List.mem_map.mp member
    exact filled range (List.mem_mergeSort.mp listed)
  rw [merged]
  obtain ⟨gapped,own⟩ := merge_spec touches_gapless filled' (sortedRanges_starts ranges)
  exact ⟨gapped,own.trans same⟩

/-! ### Expressions -/

section Expressions
variable {quote : String → String} {expression : String} {ranges : List PortRange}

/-- The ports that the items of an expression name. -/
def namedPorts (expression : String) : Set ℕ :=
  {p | ¬ blank expression ∧ ∃ item ∈ split expression ',', ∃ a b, NamesRange item a b ∧ a ≤ p ∧ p ≤ b}

theorem parseItems_ok : (∃ ranges, parseItems quote (split expression ',') = .ok ranges) ↔ ∀ item ∈ split expression ',', ∃ a b, NamesRange item a b := by
  generalize split expression ',' = items
  constructor
  · rintro ⟨ranges,done⟩ item member
    have related := parseItems_spec.mp done
    clear done
    induction related with
    | nil => cases member
    | cons first _ ih =>
      rcases List.mem_cons.mp member with rfl | later
      · exact ⟨_,_,parseItem_spec.mp first⟩
      · exact ih later
  · intro named
    suffices related : ∃ ranges, List.Forall₂ (fun raw range => parseItem quote (trim raw) = .ok range) items ranges by
      obtain ⟨ranges,related⟩ := related
      exact ⟨ranges,parseItems_spec.mpr related⟩
    induction items with
    | nil => exact ⟨[],.nil⟩
    | cons item rest ih =>
      obtain ⟨a,b,own⟩ := named item List.mem_cons_self
      obtain ⟨ranges,related⟩ := ih (fun other later => named other (List.mem_cons_of_mem _ later))
      exact ⟨_,.cons own.parsed related⟩

theorem parseItems_denoted {items : List String} (related : List.Forall₂ (fun raw range => parseItem quote (trim raw) = .ok range) items ranges) :
    (∀ range ∈ ranges, range.start.toNat ≤ range.stop.toNat) ∧
      denoted (ranges.map interval) = {p | ∃ item ∈ items, ∃ a b, NamesRange item a b ∧ a ≤ p ∧ p ≤ b} := by
  induction related with
  | nil => exact ⟨by simp,by simp⟩
  | @cons item range rest ranges first _ ih =>
    obtain ⟨ordered,same⟩ := ih
    have named := parseItem_spec.mp first
    refine ⟨List.forall_mem_cons.mpr ⟨named.bounded.2.1,ordered⟩,?_⟩
    rw [List.map_cons,denoted_cons,same]
    ext p
    simp only [Set.mem_union,Set.mem_ofPred_eq,List.exists_mem_cons_iff]
    refine or_congr_left ?_
    constructor
    · intro inside
      exact ⟨_,_,named,inside.1,inside.2⟩
    · rintro ⟨a,b,other,after,before⟩
      cases first.symm.trans other.parsed
      obtain ⟨_,small,bounded⟩ := other.bounded
      refine ⟨?_,?_⟩
      · change (UInt16.ofNat a).toNat ≤ p
        rw [UInt16.toNat_ofNat_of_lt' (by show a < 65536; omega)]
        exact after
      · change p ≤ (UInt16.ofNat b).toNat
        rw [UInt16.toNat_ofNat_of_lt' (by show b < 65536; omega)]
        exact before

/-- What is accepted, and the ranges that it becomes. -/
theorem parsePortRanges_spec : parsePortRanges quote expression = .ok ranges ↔
    (blank expression ∨ ∀ item ∈ split expression ',', ∃ a b, NamesRange item a b) ∧
      Gapped (ranges.map interval) ∧ denoted (ranges.map interval) = namedPorts expression := by
  unfold parsePortRanges
  by_cases empty : blank expression
  · have nothing : namedPorts expression = ∅ := by
      ext p
      simp [namedPorts,empty]
    rw [if_pos empty,nothing]
    constructor
    · intro done
      cases done
      exact ⟨.inl empty,⟨by simp,.nil⟩,denoted_nil⟩
    · rintro ⟨_,gapped,none⟩
      have same := gapped.unique ⟨by simp,.nil⟩ (none.trans denoted_nil.symm)
      rw [List.map_eq_nil_iff.mp same]
  · have named : namedPorts expression = {p | ∃ item ∈ split expression ',', ∃ a b, NamesRange item a b ∧ a ≤ p ∧ p ≤ b} := by
      ext p
      simp [namedPorts,empty]
    have merged {parsed : List PortRange} (done : parseItems quote (split expression ',') = .ok parsed) :
        Gapped ((mergePortRanges parsed).map interval) ∧ denoted ((mergePortRanges parsed).map interval) = namedPorts expression := by
      obtain ⟨filled,same⟩ := parseItems_denoted (parseItems_spec.mp done)
      obtain ⟨gapped,own⟩ := mergePortRanges_spec filled
      exact ⟨gapped,own.trans (same.trans named.symm)⟩
    rw [if_neg empty]
    constructor
    · intro done
      obtain ⟨parsed,first,done⟩ := bind_ok done
      cases done
      exact ⟨.inr (parseItems_ok.mp ⟨parsed,first⟩),merged first⟩
    · rintro ⟨accepted,gapped,same⟩
      obtain ⟨parsed,done⟩ := parseItems_ok.mpr (accepted.resolve_left empty)
      obtain ⟨gapped',same'⟩ := merged done
      have equal := gapped'.unique gapped (same'.trans same.symm)
      rw [done,ok_bind,(List.map_injective_iff.mpr interval_injective) equal]
      rfl

/-! ### Printing -/

theorem toString_names {port : UInt16} (positive : 1 ≤ port.toNat) : NamesPort (toString port.toNat) port.toNat := by
  have bounded := port.toNat_lt
  rw [Nat.toString_eq_ofList_toDigits]
  refine ⟨?_,?_,?_,positive,by omega⟩
  · intro empty
    have none := congrArg String.toList empty
    rw [String.toList_ofList] at none
    exact Nat.toDigits_ne_nil none
  · rw [String.toList_ofList]
    exact fun c member => Nat.isDigit_of_mem_toDigits (by decide) (by decide) member
  · rw [String.toList_ofList,Nat.ofDigitChars_ten_toDigits]

/-- A printed range is one item that names the range. -/
theorem display_named {range : PortRange} (positive : 1 ≤ range.start.toNat) (ordered : range.start.toNat ≤ range.stop.toNat) :
    NamesRange range.display range.start.toNat range.stop.toNat ∧ ',' ∉ range.display.toList ∧ ¬ blank range.display := by
  have start := toString_names positive
  have stop := toString_names (positive.trans ordered)
  have own {text : String} {port : ℕ} (named : NamesPort text port) : trim text = text := trim_of_none (fun c member => (named.plain c member).1)
  -- The first digit of the first port is in both forms.
  obtain ⟨c,rest,chars⟩ := List.exists_cons_of_ne_nil (fun none => start.nonempty (String.toList_inj.mp none))
  have first : c ∈ (toString range.start.toNat).toList := by
    rw [chars]
    exact List.mem_cons_self
  have solid := (start.plain c first).1
  by_cases single : range.start = range.stop
  · have shown : range.display = toString range.start.toNat := if_pos single
    rw [shown,← single]
    refine ⟨.port (by rw [own start]; exact start),fun member => (start.plain _ member).2.2 rfl,?_⟩
    intro white
    exact solid (List.all_eq_true.mp white c first)
  · have shown : range.display = toString range.start.toNat ++ "-" ++ toString range.stop.toNat := by
      rw [PortRange.display,if_neg single]
      rfl
    have chars_shown : range.display.toList = (toString range.start.toNat).toList ++ '-' :: (toString range.stop.toNat).toList := by
      rw [shown]
      simp
    have kept : trim range.display = range.display := by
      refine trim_of_none (fun c member => ?_)
      rw [chars_shown,List.mem_append,List.mem_cons] at member
      rcases member with before | rfl | after
      · exact (start.plain c before).1
      · decide
      · exact (stop.plain c after).1
    refine ⟨.range (kept.trans shown) (by rw [own start]; exact start) (by rw [own stop]; exact stop) ordered,?_,?_⟩
    · rw [chars_shown,List.mem_append,List.mem_cons]
      rintro (before | dash | after)
      · exact (start.plain _ before).2.2 rfl
      · exact absurd dash (by decide)
      · exact (stop.plain _ after).2.2 rfl
    · intro white
      refine solid (List.all_eq_true.mp white c ?_)
      rw [chars_shown]
      exact List.mem_append_left _ first

/-- Printed items are split again where they were joined. -/
theorem split_intercalate {parts : List String} (filled : parts ≠ []) (plain : ∀ part ∈ parts, ',' ∉ part.toList) :
    split (",".intercalate parts) ',' = parts := by
  have whole := @List.splitOn_intercalate Char (parts.map String.toList) _ _ ',' (by simpa using plain) (by simpa using filled)
  rw [split,String.toList_intercalate]
  change (([','].intercalate (parts.map String.toList)).splitOn ',').map String.ofList = parts
  rw [whole,List.map_map]
  exact (List.map_congr_left (fun part _ => String.ofList_toList)).trans (List.map_id _)

theorem mem_intercalate {part : String} {parts : List String} (member : part ∈ parts) {c : Char} (there : c ∈ part.toList) :
    c ∈ (",".intercalate parts).toList := by
  rw [String.toList_intercalate]
  induction parts with
  | nil => cases member
  | cons first rest ih =>
    cases rest with
    | nil =>
      rw [List.mem_singleton.mp member] at there
      simpa [List.intercalate] using there
    | cons second others =>
      have unfolded : ",".toList.intercalate ((first :: second :: others).map String.toList) =
          first.toList ++ ',' :: ",".toList.intercalate ((second :: others).map String.toList) := by
        simp [List.intercalate]
      rw [unfolded,List.mem_append,List.mem_cons]
      rcases List.mem_cons.mp member with rfl | later
      · exact .inl there
      · exact .inr (.inr (ih later))

/-- The printed ranges are parsed to themselves. -/
theorem parse_printed (gapped : Gapped (ranges.map interval)) (positive : ∀ range ∈ ranges, 1 ≤ range.start.toNat) :
    parsePortRanges quote (",".intercalate (ranges.map PortRange.display)) = .ok ranges := by
  have filled : ∀ range ∈ ranges, range.start.toNat ≤ range.stop.toNat := fun range member => gapped.filled _ (List.mem_map_of_mem member)
  have shown (range : PortRange) (member : range ∈ ranges) := display_named (positive range member) (filled range member)
  rw [parsePortRanges_spec]
  cases none : ranges with
  | nil =>
    have empty : ",".intercalate (([] : List PortRange).map PortRange.display) = "" := rfl
    rw [empty]
    refine ⟨.inl (by decide),⟨by simp,.nil⟩,?_⟩
    ext p
    have white : blank "" := by decide
    simp [namedPorts,white]
  | cons first rest =>
    rw [← none]
    have parts : split (",".intercalate (ranges.map PortRange.display)) ',' = ranges.map PortRange.display := by
      refine split_intercalate (by rw [none]; simp) ?_
      intro part member
      obtain ⟨range,listed,rfl⟩ := List.mem_map.mp member
      exact (shown range listed).2.1
    have solid : ¬ blank (",".intercalate (ranges.map PortRange.display)) := by
      have listed : first ∈ ranges := by
        rw [none]
        exact List.mem_cons_self
      intro white
      refine (shown first listed).2.2 (List.all_eq_true.mpr (fun c there => ?_))
      exact List.all_eq_true.mp white c (mem_intercalate (List.mem_map_of_mem listed) there)
    have parsed : List.Forall₂ (fun raw range => parseItem quote (trim raw) = .ok range) (ranges.map PortRange.display) ranges := by
      rw [List.forall₂_map_left_iff,List.forall₂_same]
      exact fun range member => parseItem_spec.mpr (shown range member).1
    refine ⟨.inr ?_,gapped,?_⟩
    · rw [parts]
      intro item member
      obtain ⟨range,listed,rfl⟩ := List.mem_map.mp member
      exact ⟨_,_,(shown range listed).1⟩
    · rw [(parseItems_denoted parsed).2]
      ext p
      simp only [namedPorts,Set.mem_ofPred_eq,parts]
      exact ⟨fun named => ⟨solid,named⟩,fun named => named.2⟩

end Expressions

/-- Every expression is accepted exactly when all its items are, and becomes the one list of ranges with gaps between them
    and the named ports; its normal form is one. -/
theorem port_range_language (quote : String → String) (expression : String) :
    ((∃ ranges, parsePortRanges quote expression = .ok ranges) ↔
      (blank expression ∨ ∀ item ∈ split expression ',', ∃ a b, NamesRange item a b)) ∧
    (∀ ranges, parsePortRanges quote expression = .ok ranges →
      Gapped (ranges.map interval) ∧ denoted (ranges.map interval) = namedPorts expression ∧
        ∀ others : List PortRange, Gapped (others.map interval) → denoted (others.map interval) = namedPorts expression → others = ranges) ∧
    ∀ normal, normalizePortRanges quote expression = .ok normal →
      parsePortRanges quote normal = parsePortRanges quote expression ∧ normalizePortRanges quote normal = .ok normal := by
  refine ⟨⟨?_,?_⟩,?_,?_⟩
  · rintro ⟨ranges,done⟩
    exact (parsePortRanges_spec.mp done).1
  · intro accepted
    by_cases empty : blank expression
    · exact ⟨[],if_pos empty⟩
    · obtain ⟨parsed,done⟩ := (@parseItems_ok quote expression).mpr (accepted.resolve_left empty)
      exact ⟨mergePortRanges parsed,by rw [parsePortRanges,if_neg empty,done]; rfl⟩
  · intro ranges done
    obtain ⟨_,gapped,same⟩ := parsePortRanges_spec.mp done
    refine ⟨gapped,same,fun others gapped' same' => ?_⟩
    exact (List.map_injective_iff.mpr interval_injective) (gapped'.unique gapped (same'.trans same.symm))
  · intro normal done
    obtain ⟨ranges,parsed,done⟩ := bind_ok done
    cases done
    obtain ⟨_,gapped,same⟩ := parsePortRanges_spec.mp parsed
    have positive : ∀ range ∈ ranges, 1 ≤ range.start.toNat := by
      intro range member
      have among : range.start.toNat ∈ denoted (ranges.map interval) :=
        ⟨interval range,List.mem_map_of_mem member,le_rfl,gapped.filled _ (List.mem_map_of_mem member)⟩
      rw [same] at among
      obtain ⟨_,item,_,a,b,named,after,_⟩ := among
      exact named.bounded.1.trans after
    have again := @parse_printed quote ranges gapped positive
    exact ⟨again.trans parsed.symm,by rw [normalizePortRanges,again]; rfl⟩

/-- White space around an item and around its bounds. -/
theorem port_range_language_sample : normalizePortRanges id " 08000 - 9000 " = .ok "8000-9000" ∧ normalizePortRanges id "8000-9000" = .ok "8000-9000" := by
  have normal : normalizePortRanges id " 08000 - 9000 " = .ok "8000-9000" := by decide +kernel
  exact ⟨normal,((port_range_language id _).2.2 _ normal).2⟩

end NodeAgent.PortRanges
