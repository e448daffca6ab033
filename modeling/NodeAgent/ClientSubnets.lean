import NodeAgent.PortRanges
import NodeAgent.Delimiters
import NodeAgent.DnsServers
import Mathlib.Tactic.IntervalCases

/-!
Client subnets. An address or a prefix is brought into the form of a network, and the network
is part of what names a private DNS server. Two spellings of one network therefore share a
server, and two networks never do.
-/
namespace NodeAgent.ClientSubnets
open NodeAgent.OutboundAdapter NodeAgent.Outbounds NodeAgent.DnsServers NodeAgent.Delimiters

/-! ### Decimal prefix lengths -/

theorem digitChar_toNat {c : Char} (digit : c.isDigit) : Nat.digitChar (c.toNat - '0'.toNat) = c := by
  simp only [Char.isDigit,Bool.and_eq_true,decide_eq_true_eq] at digit
  have low : 48 ≤ c.toNat := digit.1
  have high : c.toNat ≤ 57 := digit.2
  have zero : '0'.toNat = 48 := rfl
  have each (code : ℕ) (low : 48 ≤ code) (high : code ≤ 57) : Nat.digitChar (code - 48) = Char.ofNat code := by
    interval_cases code <;> rfl
  rw [zero,each c.toNat low high,Char.ofNat_toNat]

theorem digit_lt {c : Char} (digit : c.isDigit) : c.toNat - '0'.toNat < 10 := by
  simp only [Char.isDigit,Bool.and_eq_true,decide_eq_true_eq] at digit
  have high : c.toNat ≤ 57 := digit.2
  have zero : '0'.toNat = 48 := rfl
  omega

/-- Digits are the decimal form of their value, unless a zero stands before others. -/
theorem decimal_of_digits {digits : List Char} (some : digits ≠ []) (each : ∀ c ∈ digits, c.isDigit)
    (first : 1 < digits.length → digits.head? ≠ .some '0') : (toString (Nat.ofDigitChars 10 digits 0)).toList = digits := by
  rw [toString_digits]
  induction digits using List.reverseRecOn with
  | nil => exact absurd rfl some
  | append_singleton front c ih =>
    rw [List.forall_mem_append] at each
    have digit := each.2 c (List.mem_singleton_self c)
    have value : Nat.ofDigitChars 10 (front ++ [c]) 0 = 10 * Nat.ofDigitChars 10 front 0 + (c.toNat - '0'.toNat) := by
      rw [Nat.ofDigitChars_append]
      rfl
    have last : Nat.toDigits 10 (c.toNat - '0'.toNat) = [c] := by
      rw [Nat.toDigits_of_lt_base (digit_lt digit),digitChar_toNat digit]
    cases front with
    | nil => rw [value,Nat.ofDigitChars_nil,Nat.mul_zero,Nat.zero_add,last,List.nil_append]
    | cons d rest =>
      have leading : d ≠ '0' := by simpa using first
      have own := ih (List.cons_ne_nil d rest) each.1 (fun _ => by simpa using leading)
      have positive : 0 < Nat.ofDigitChars 10 (d :: rest) 0 := by
        by_contra nothing
        rw [Nat.eq_zero_of_not_pos nothing] at own
        exact leading (List.head_eq_of_cons_eq own).symm
      rw [value,← Nat.toDigits_append_toDigits (by decide) positive (digit_lt digit),own,last]

/-! ### The parts of a subnet -/

theorem splitOnce_none {text : String} {c : Char} : splitOnce text c = none ↔ c ∉ text.toList := by
  unfold splitOnce
  rw [List.span_eq_takeWhile_dropWhile]
  by_cases member : c ∈ text.toList
  · have rest : text.toList.dropWhile (· ≠ c) ≠ [] := by
      rw [Ne,List.dropWhile_eq_nil_iff]
      exact fun none => absurd (none c member) (by simp)
    cases after : text.toList.dropWhile (· ≠ c) with
    | nil => exact absurd after rest
    | cons d others => simp [member]
  · have nothing : text.toList.dropWhile (· ≠ c) = [] := by
      rw [List.dropWhile_eq_nil_iff]
      intro d other
      have differs : d ≠ c := fun same => member (same ▸ other)
      simpa using differs
    rw [nothing]
    simp [member]

theorem splitOnce_some {text before after : String} {c : Char} :
    splitOnce text c = some (before,after) ↔ text.toList = before.toList ++ c :: after.toList ∧ c ∉ before.toList := by
  have plain : c ∉ text.toList.takeWhile (· ≠ c) := fun member => by simpa using List.mem_takeWhile_imp member
  have whole := List.takeWhile_append_dropWhile (p := (· ≠ c)) (l := text.toList)
  unfold splitOnce
  rw [List.span_eq_takeWhile_dropWhile]
  cases rest : text.toList.dropWhile (· ≠ c) with
  | nil =>
    rw [rest,List.append_nil] at whole
    rw [whole] at plain
    constructor
    · intro impossible
      cases impossible
    · rintro ⟨joined,_⟩
      exact absurd (by rw [joined]; simp) plain
  | cons d others =>
    have separator : d = c := by
      have head := List.head?_dropWhile_not (· ≠ c) text.toList
      rw [rest] at head
      simpa using head
    subst separator
    rw [rest] at whole
    constructor
    · intro split
      simp only [Option.some.injEq,Prod.mk.injEq] at split
      obtain ⟨rfl,rfl⟩ := split
      exact ⟨by rw [String.toList_ofList,String.toList_ofList,whole],by rwa [String.toList_ofList]⟩
    · rintro ⟨joined,plain'⟩
      obtain ⟨front,back⟩ := first_split plain plain' (whole.trans joined)
      simp only [front,back,String.ofList_toList]

/-- The address and the prefix length that a text spells. Without a length it is the whole
    width of the address. -/
inductive Spells (ext : Externals) : String → IpAddr → ℕ → Prop
  | host {text : String} {address : IpAddr} (parsed : ext.parseIp text = some address) (plain : '/' ∉ text.toList) :
      Spells ext text address address.maxPrefix
  | network {text : String} {address : IpAddr} {prefixLen : ℕ} (parsed : ext.parseIp text = some address) (nonempty : text ≠ "")
      (plain : '/' ∉ text.toList) (byte : prefixLen < 256) : Spells ext (text ++ "/" ++ toString prefixLen) address prefixLen

variable {ext : Externals}

/-- A prefix length is accepted in its decimal form only. -/
theorem parseUnsigned_decimal {bound n : ℕ} {length : String} (some : length ≠ "") (digits : ∀ c ∈ length.toList, c.isDigit)
    (first : 1 < length.toList.length → length.toList.head? ≠ .some '0') (positive : 0 < bound) :
    parseUnsigned bound length = .ok n ↔ length = toString n ∧ n < bound := by
  have nonempty : length.toList ≠ [] := by simpa using some
  have unsigned : parseUnsigned bound length = parseDigits bound 0 length.toList := by
    unfold parseUnsigned
    split
    · next nothing => exact absurd nothing nonempty
    · next plus => exact absurd (digits '+' (by rw [plus]; simp)) (by decide)
    · next plus => exact absurd (digits '+' (by rw [plus]; simp)) (by decide)
    · rfl
  rw [unsigned,PortRanges.parseDigits_spec positive]
  constructor
  · rintro ⟨_,value,small⟩
    have decimal := decimal_of_digits nonempty digits first
    rw [value] at decimal
    exact ⟨(String.toList_injective decimal).symm,small⟩
  · rintro ⟨rfl,small⟩
    refine ⟨digits,?_,small⟩
    rw [toString_digits,Nat.ofDigitChars_ten_toDigits]

theorem toDigits_head (n : ℕ) (positive : 0 < n) : (Nat.toDigits 10 n).head? ≠ some '0' := by
  induction n using Nat.strongRecOn with
  | ind n ih =>
    by_cases small : n < 10
    · rw [Nat.toDigits_of_lt_base small]
      interval_cases n <;> decide
    · have front : 0 < n / 10 := by omega
      have parts : n = 10 * (n / 10) + n % 10 := by omega
      have own := ih (n / 10) (by omega) front
      rw [parts,← Nat.toDigits_append_toDigits (by decide) front (Nat.mod_lt n (by decide))]
      cases digits : Nat.toDigits 10 (n / 10) with
      | nil => exact absurd digits Nat.toDigits_ne_nil
      | cons d rest =>
        rw [digits] at own
        exact own

/-- The decimal form of a number with more digits does not begin with a zero. -/
theorem toString_head {n : ℕ} (more : 1 < (toString n).toList.length) : (toString n).toList.head? ≠ some '0' := by
  rw [toString_digits] at more ⊢
  refine toDigits_head n (Nat.pos_of_ne_zero ?_)
  rintro rfl
  rw [Nat.toDigits_zero] at more
  exact absurd more (by decide)

theorem toString_ne_empty (n : ℕ) : toString n ≠ "" := by
  intro empty
  exact toString_ne_nil n (by rw [empty]; rfl)

theorem slash_notMem_toString (n : ℕ) : '/' ∉ (toString n).toList :=
  fun member => absurd (isDigit_of_mem member) (by decide)

/-- A target is found exactly for the texts that spell it. -/
theorem subnetTarget_ok {value : String} {address : IpAddr} {prefixLen : ℕ} :
    subnetTarget ext value = .ok (address,prefixLen) ↔ Spells ext value address prefixLen := by
  constructor
  · intro found
    unfold subnetTarget at found
    split at found
    · next text length parts =>
      obtain ⟨joined,plain⟩ := splitOnce_some.mp parts
      split at found
      · cases found
      · next filled =>
        simp only [Bool.or_eq_true,not_or,String.isEmpty_iff,decide_eq_true_eq] at filled
        split at found
        · cases found
        · next parsed known =>
          split at found
          · cases found
          · next decimal =>
            simp only [Bool.or_eq_true,not_or,Bool.not_eq_true',Bool.and_eq_true,decide_eq_true_eq,Bool.not_eq_false,List.all_eq_true,not_and] at decimal
            split at found
            · cases found
            · next n number =>
              cases found
              obtain ⟨rfl,byte⟩ := (parseUnsigned_decimal filled.1.2 decimal.1 (by simpa only [String.length_toList] using decimal.2)
                (by decide)).mp number
              have whole : value = text ++ "/" ++ toString prefixLen := by
                apply String.toList_injective
                simp [joined]
              rw [whole]
              exact .network known filled.1.1 plain byte
    · next parts =>
      split at found
      · cases found
      · next parsed known =>
        cases found
        exact .host known (splitOnce_none.mp parts)
  · intro spelled
    cases spelled with
    | host parsed plain =>
      unfold subnetTarget
      rw [splitOnce_none.mpr plain]
      simp only [parsed]
    | @network text address prefixLen parsed nonempty plain byte =>
      have number := (parseUnsigned_decimal (toString_ne_empty prefixLen) (fun c => isDigit_of_mem) toString_head (by decide)).mpr ⟨rfl,byte⟩
      have digits : ∀ c ∈ (toString prefixLen).toList, c.isDigit := fun c => isDigit_of_mem
      have first := toString_head (n := prefixLen)
      have filled := toString_ne_empty prefixLen
      have slash := slash_notMem_toString prefixLen
      generalize toString prefixLen = length at number digits first filled slash ⊢
      have parts : splitOnce (text ++ "/" ++ length) '/' = some (text,length) := by
        rw [splitOnce_some]
        exact ⟨by simp,plain⟩
      have decimal : length.toList.all Char.isDigit = true := List.all_eq_true.mpr digits
      rw [String.length_toList] at first
      unfold subnetTarget
      simp only [parts]
      rw [if_neg (by simp [nonempty,filled,slash])]
      simp only [parsed]
      rw [if_neg (by simpa [decimal] using first)]
      simp only [number]

theorem Spells.unique {value : String} {address address' : IpAddr} {n n' : ℕ} (spelled : Spells ext value address n)
    (spelled' : Spells ext value address' n') : address = address' ∧ n = n' := by
  have same := (subnetTarget_ok.mpr spelled).symm.trans (subnetTarget_ok.mpr spelled')
  simpa using same

/-! ### Bits -/

/-- A bit of an address, counted from the front. -/
def bit : IpAddr → ℕ → Bool
  | .v4 address, i => address.getMsbD i
  | .v6 address, i => address.getMsbD i

/-- The same family, the same prefix length and the same bits in front of it. -/
def SameNetwork (a : IpAddr) (m : ℕ) (b : IpAddr) (n : ℕ) : Prop :=
  a.isIpv4 = b.isIpv4 ∧ m = n ∧ ∀ i < m, bit a i = bit b i

theorem address_ext {a b : IpAddr} (family : a.isIpv4 = b.isIpv4) (bits : ∀ i, bit a i = bit b i) : a = b := by
  cases a with
  | v4 a =>
    cases b with
    | v4 b =>
      congr 1
      exact BitVec.eq_of_getMsbD_eq (fun i _ => bits i)
    | v6 b => cases family
  | v6 a =>
    cases b with
    | v4 b => cases family
    | v6 b =>
      congr 1
      exact BitVec.eq_of_getMsbD_eq (fun i _ => bits i)

/-- A prefix that fits has a mask, of ones in front and zeros after them. -/
theorem prefixMask_bits {w n : ℕ} (fits : n ≤ w) : ∃ mask : BitVec w, prefixMask w n = some mask ∧ ∀ i, mask.getMsbD i = decide (i < n) := by
  unfold prefixMask
  by_cases zero : n = 0
  · rw [if_pos zero]
    refine ⟨0,rfl,?_⟩
    intro i
    simp [zero]
  · rw [if_neg zero,if_neg (by omega),checkedShl,if_pos (by omega)]
    refine ⟨_,rfl,?_⟩
    intro i
    rw [BitVec.getMsbD_shiftLeft,BitVec.getMsbD_allOnes]
    exact decide_eq_decide.mpr (by omega)

/-- The network of a prefix that fits keeps the bits in front of it and no others. -/
theorem networkOf_bits {address : IpAddr} {n : ℕ} (fits : n ≤ address.maxPrefix) :
    ∃ network, networkOf address n = some network ∧ network.isIpv4 = address.isIpv4 ∧ ∀ i, bit network i = (decide (i < n) && bit address i) := by
  cases address with
  | v4 address =>
    obtain ⟨mask,own,bits⟩ := prefixMask_bits (w := 32) fits
    refine ⟨.v4 (address &&& mask),by simp [networkOf,own],rfl,?_⟩
    intro i
    simp [bit,bits,Bool.and_comm]
  | v6 address =>
    obtain ⟨mask,own,bits⟩ := prefixMask_bits (w := 128) fits
    refine ⟨.v6 (address &&& mask),by simp [networkOf,own],rfl,?_⟩
    intro i
    simp [bit,bits,Bool.and_comm]

theorem maxPrefix_congr {a b : IpAddr} (family : a.isIpv4 = b.isIpv4) : a.maxPrefix = b.maxPrefix := by
  unfold IpAddr.maxPrefix
  rw [family]

theorem maxPrefix_byte (address : IpAddr) : address.maxPrefix < 256 := by
  unfold IpAddr.maxPrefix
  split <;> decide

/-! ### The normal form -/

/-- How a network is written. -/
def written (ext : Externals) (network : IpAddr) (prefixLen : ℕ) : String := ext.displayIp network ++ "/" ++ toString prefixLen

theorem written_ne_empty (network : IpAddr) (n : ℕ) : written ext network n ≠ "" := by
  unfold written
  intro empty
  have slash := congrArg String.length empty
  simp at slash

/-- A value is normalized if it spells a prefix that fits. -/
theorem normalize_ok {value text : String} : normalizeDnsClientSubnetValue ext value = .ok (some text) ↔
    value ≠ "" ∧ ∃ address n network, Spells ext value address n ∧ n ≤ address.maxPrefix ∧ networkOf address n = some network ∧ text = written ext network n := by
  unfold normalizeDnsClientSubnetValue
  by_cases empty : value = ""
  · rw [if_pos (by simpa using empty)]
    simp [empty]
  · rw [if_neg (by simpa using empty)]
    cases target : subnetTarget ext value with
    | error reason =>
      refine iff_of_false (by simp) ?_
      rintro ⟨_,address,n,_,spelled,_⟩
      rw [subnetTarget_ok.mpr spelled] at target
      cases target
    | ok found =>
      obtain ⟨address,n⟩ := found
      have spelled := subnetTarget_ok.mp target
      constructor
      · intro normal
        dsimp only at normal
        split at normal
        · cases normal
        · next fits =>
          cases own : networkOf address n with
          | none =>
            rw [own] at normal
            cases normal
          | some network =>
            rw [own] at normal
            cases normal
            exact ⟨empty,address,n,network,spelled,by omega,own,rfl⟩
      · rintro ⟨_,address',n',network,spelled',fits,own,rfl⟩
        obtain ⟨rfl,rfl⟩ := spelled.unique spelled'
        dsimp only
        rw [if_neg (by omega),own]
        rfl

theorem normalize_none {value : String} : normalizeDnsClientSubnetValue ext value = .ok none ↔ value = "" := by
  unfold normalizeDnsClientSubnetValue
  by_cases empty : value = ""
  · rw [if_pos (by simpa using empty)]
    simp [empty]
  · rw [if_neg (by simpa using empty)]
    refine iff_of_false ?_ empty
    cases subnetTarget ext value with
    | error reason => simp
    | ok found =>
      obtain ⟨address,n⟩ := found
      dsimp only
      split
      · simp
      · cases networkOf address n <;> simp

theorem head_append {front back : String} {c : Char} (first : front.toList.head? = some c) : (front ++ back).toList.head? = some c := by
  rw [String.toList_append,List.head?_append,first]
  rfl

/-- The reasons that are given begin with other letters than that of an overflow. -/
theorem subnetTarget_error {value reason : String} (failed : subnetTarget ext value = .error reason) :
    reason.toList.head? = some 'h' ∨ reason.toList.head? = some 'm' := by
  unfold subnetTarget at failed
  split at failed
  · split at failed
    · cases failed
      exact .inr rfl
    · split at failed
      · cases failed
        exact .inl (head_append (head_append rfl))
      · split at failed
        · cases failed
          exact .inl (head_append rfl)
        · split at failed
          · cases failed
            exact .inl (head_append (head_append (head_append rfl)))
          · cases failed
  · split at failed
    · cases failed
      exact .inl rfl
    · cases failed

/-- No shift by the whole width or more is made. -/
theorem shift_fits (value : String) : normalizeDnsClientSubnetValue ext value ≠ .error SHIFT_OVERFLOW := by
  have overflow : SHIFT_OVERFLOW.toList.head? = some 'a' := rfl
  unfold normalizeDnsClientSubnetValue
  split
  · simp
  · split
    · next reason failed =>
      intro same
      cases same
      rcases subnetTarget_error failed with first | first <;> exact absurd (first.symm.trans overflow) (by decide)
    · next address n _ =>
      split
      · intro same
        have first := overflow
        rw [← Except.error.inj same,head_append (head_append (head_append (head_append (head_append (c := 'h') rfl))))] at first
        exact absurd first (by decide)
      · next fits =>
        obtain ⟨network,own,_⟩ := networkOf_bits (show n ≤ address.maxPrefix by omega)
        simp [own]

/-! ### Texts of addresses -/

/-- What is used of the texts of addresses: what is printed is parsed to the same address, and
    only digits, points and colons are parsed. -/
structure AddressTexts (ext : Externals) : Prop where
  printed (address : IpAddr) : ext.parseIp (ext.displayIp address) = some address
  nonempty {text : String} {address : IpAddr} : ext.parseIp text = some address → text ≠ ""
  characters {text : String} {address : IpAddr} : ext.parseIp text = some address → ∀ c ∈ text.toList, c ∈ "0123456789abcdefABCDEF.:".toList

section Texts
variable (texts : AddressTexts ext)
include texts

theorem displayIp_avoids {c : Char} (other : c ∉ "0123456789abcdefABCDEF.:".toList) (address : IpAddr) : c ∉ (ext.displayIp address).toList :=
  fun member => other (texts.characters (texts.printed address) c member)

theorem written_spells (network : IpAddr) {n : ℕ} (byte : n < 256) : Spells ext (written ext network n) network n :=
  .network (texts.printed network) (texts.nonempty (texts.printed network)) (displayIp_avoids texts (by decide) network) byte

/-- What is written is known from the text. -/
theorem written_injective {a b : IpAddr} {m n : ℕ} (small : m < 256) (small' : n < 256) (same : written ext a m = written ext b n) : a = b ∧ m = n := by
  have spelled := written_spells texts a small
  rw [same] at spelled
  exact spelled.unique (written_spells texts b small')

theorem written_avoids_nul (network : IpAddr) (n : ℕ) : '\x00' ∉ (written ext network n).toList := by
  unfold written
  rw [String.toList_append,String.toList_append,List.mem_append,List.mem_append]
  rintro ((address | slash) | digit)
  · exact displayIp_avoids texts (by decide) network address
  · exact absurd slash (by decide)
  · exact absurd (isDigit_of_mem digit) (by decide)

/-- A normal form is that of a network, and it is its own normal form. -/
theorem normalize_normal {value text : String} (normal : normalizeDnsClientSubnetValue ext value = .ok (some text)) :
    ∃ address n network, Spells ext value address n ∧ text = written ext network n ∧ network.isIpv4 = address.isIpv4 ∧ n ≤ network.maxPrefix ∧
      (∀ i, n ≤ i → bit network i = false) ∧ (∀ i < n, bit network i = bit address i) ∧
      normalizeDnsClientSubnetValue ext text = .ok (some text) := by
  obtain ⟨_,address,n,network,spelled,fits,own,rfl⟩ := normalize_ok.mp normal
  obtain ⟨network',own',family,bits⟩ := networkOf_bits fits
  obtain rfl := Option.some.inj (own.symm.trans own')
  have fits' : n ≤ network.maxPrefix := by rw [maxPrefix_congr family]; exact fits
  have behind (i : ℕ) (past : n ≤ i) : bit network i = false := by simp [bits i,Nat.not_lt.mpr past]
  have front (i : ℕ) (before : i < n) : bit network i = bit address i := by simp [bits i,before]
  refine ⟨address,n,network,spelled,rfl,family,fits',behind,front,?_⟩
  obtain ⟨again,own'',family',bits'⟩ := networkOf_bits fits'
  have same : again = network := by
    refine address_ext family' ?_
    intro i
    rw [bits' i]
    by_cases before : i < n
    · simp [before]
    · simp [behind i (Nat.not_lt.mp before)]
  subst same
  have byte := maxPrefix_byte again
  refine normalize_ok.mpr ⟨?_,again,n,again,written_spells texts again (by omega),fits',own'',rfl⟩
  exact written_ne_empty again n

/-- Two texts that spell the same network. -/
def SameSubnet (ext : Externals) (value value' : String) : Prop :=
  ∃ a m b n, Spells ext value a m ∧ Spells ext value' b n ∧ SameNetwork a m b n

/-- Normal forms are the same for the spellings of one network only. -/
theorem normalize_same {value value' text text' : String} (normal : normalizeDnsClientSubnetValue ext value = .ok (some text))
    (normal' : normalizeDnsClientSubnetValue ext value' = .ok (some text')) : text = text' ↔ SameSubnet ext value value' := by
  obtain ⟨a,m,x,spelled,rfl,family,fits,behind,front,_⟩ := normalize_normal texts normal
  obtain ⟨b,n,y,spelled',rfl,family',fits',behind',front',_⟩ := normalize_normal texts normal'
  have byte := maxPrefix_byte x
  have byte' := maxPrefix_byte y
  constructor
  · intro same
    obtain ⟨rfl,rfl⟩ := written_injective texts (by omega) (by omega) same
    refine ⟨a,m,b,m,spelled,spelled',family.symm.trans family',rfl,?_⟩
    intro i before
    rw [← front i before,front' i before]
  · rintro ⟨a',m',b',n',known,known',families,lengths,bits⟩
    obtain ⟨rfl,rfl⟩ := spelled.unique known
    obtain ⟨rfl,rfl⟩ := spelled'.unique known'
    obtain rfl : m = n := lengths
    have same : x = y := by
      refine address_ext (family.trans (families.trans family'.symm)) ?_
      intro i
      by_cases before : i < m
      · rw [front i before,front' i before,bits i before]
      · rw [behind i (Nat.not_lt.mp before),behind' i (Nat.not_lt.mp before)]
    rw [same]

/-- No subnet, or the same one. -/
theorem subnets_same {value value' : String} {subnet subnet' : Option String} (normal : normalizeDnsClientSubnetValue ext value = .ok subnet)
    (normal' : normalizeDnsClientSubnetValue ext value' = .ok subnet') :
    subnet = subnet' ↔ (value = "" ∧ value' = "") ∨ (value ≠ "" ∧ value' ≠ "" ∧ SameSubnet ext value value') := by
  cases subnet with
  | none =>
    have empty := normalize_none.mp normal
    cases subnet' with
    | none => simp [empty,normalize_none.mp normal']
    | some text' =>
      have filled := (normalize_ok.mp normal').1
      simp [empty,filled]
  | some text =>
    have filled := (normalize_ok.mp normal).1
    cases subnet' with
    | none => simp [filled,normalize_none.mp normal']
    | some text' =>
      have filled' := (normalize_ok.mp normal').1
      simp [filled,filled',normalize_same texts normal normal']

end Texts

/-! ### Private servers -/

theorem ipStrategy_name_injective : Function.Injective IpStrategy.name := by
  intro a b same
  cases a <;> cases b <;> first | rfl | exact absurd same (by decide)

theorem ipStrategy_name_avoids_nul (strategy : IpStrategy) : '\x00' ∉ strategy.name.toList := by cases strategy <;> decide

/-- How a flag is written. -/
theorem flag_text (flag : Bool) : '\x00' ∉ (if flag then "true" else "false").toList := by cases flag <;> decide

theorem flag_text_injective {flag flag' : Bool} (same : (if flag then "true" else "false") = if flag' then "true" else "false") : flag = flag' := by
  cases flag <;> cases flag' <;> first | rfl | exact absurd same (by decide)

theorem ttl_text_injective {ttl ttl' : Option ℕ} (same : (ttl.map toString).getD "" = (ttl'.map toString).getD "") : ttl = ttl' := by
  cases ttl with
  | none =>
    cases ttl' with
    | none => rfl
    | some n => exact absurd same.symm (toString_ne_empty n)
  | some n =>
    cases ttl' with
    | none => exact absurd same (toString_ne_empty n)
    | some n' => rw [toString_injective (congrArg String.toList same)]

theorem ttl_text_avoids_nul (ttl : Option ℕ) : '\x00' ∉ ((ttl.map toString).getD "").toList := by
  cases ttl with
  | none => decide
  | some n => exact fun member => absurd (isDigit_of_mem member) (by decide)

/-- A subnet that a profile may ask for: none, or one with a text without the separator. -/
def PlainSubnet (subnet : Option String) : Prop := subnet ≠ some "" ∧ '\x00' ∉ (subnet.getD "").toList

theorem subnet_text_injective {subnet subnet' : Option String} (plain : PlainSubnet subnet) (plain' : PlainSubnet subnet')
    (same : subnet.getD "" = subnet'.getD "") : subnet = subnet' := by
  cases subnet with
  | none =>
    cases subnet' with
    | none => rfl
    | some text => exact absurd (congrArg some same.symm) plain'.1
  | some text =>
    cases subnet' with
    | none => exact absurd (congrArg some same) plain.1
    | some text' => exact congrArg some same

/-- The fields of a profile follow each other with a separator between them. -/
theorem profileText_joined (key : DnsServerVariantKey) : (profileText key).toList =
    joined '\x00' [] key.sourceTag.toList [key.ipStrategy.name.toList,(if key.query.disableCache then "true" else "false").toList,
      ((key.query.rewriteTtl.map toString).getD "").toList,(key.query.clientSubnet.getD "").toList] := by
  have nul : "\x00".toList = ['\x00'] := rfl
  unfold profileText joined
  simp only [String.toList_append,nul,List.flatMap_cons,List.flatMap_nil,List.append_assoc,List.cons_append,List.nil_append,
    List.append_nil]

/-- The source may contain the separator, since it is the only field that may. -/
theorem profileText_injective {key key' : DnsServerVariantKey} (plain : PlainSubnet key.query.clientSubnet) (plain' : PlainSubnet key'.query.clientSubnet)
    (same : profileText key = profileText key') : key = key' := by
  have texts := congrArg String.toList same
  rw [profileText_joined,profileText_joined] at texts
  have fields (key : DnsServerVariantKey) (plain : PlainSubnet key.query.clientSubnet) :
      ∀ field ∈ [] ++ [key.ipStrategy.name.toList,(if key.query.disableCache then "true" else "false").toList,
        ((key.query.rewriteTtl.map toString).getD "").toList,(key.query.clientSubnet.getD "").toList], '\x00' ∉ field := by
    intro field member
    simp only [List.nil_append,List.mem_cons,List.not_mem_nil,or_false] at member
    rcases member with rfl | rfl | rfl | rfl
    · exact ipStrategy_name_avoids_nul _
    · exact flag_text _
    · exact ttl_text_avoids_nul _
    · exact plain.2
  obtain ⟨_,source,rest⟩ := joined_injective (fields key plain) (fields key' plain') rfl rfl texts
  obtain ⟨sourceTag,strategy,disable,ttl,subnet⟩ := key
  obtain ⟨sourceTag',strategy',disable',ttl',subnet'⟩ := key'
  simp only [List.cons.injEq,String.toList_inj,and_true] at rest
  obtain ⟨strategies,flags,ttls,subnets⟩ := rest
  obtain rfl := String.toList_injective source
  obtain rfl := ipStrategy_name_injective strategies
  obtain rfl := ttl_text_injective ttls
  obtain rfl := subnet_text_injective plain plain' subnets
  rw [flag_text_injective flags]

theorem dnsProfileVariantTag_injective (hash : Function.Injective ext.sha256) {key key' : DnsServerVariantKey}
    (plain : PlainSubnet key.query.clientSubnet) (plain' : PlainSubnet key'.query.clientSubnet)
    (same : dnsProfileVariantTag ext key = dnsProfileVariantTag ext key') : key = key' := by
  have texts := congrArg String.toList same
  unfold dnsProfileVariantTag at texts
  rw [String.toList_append,String.toList_append] at texts
  exact profileText_injective plain plain' (hash (String.toList_injective (List.append_cancel_left texts)))

/-- The subnet of a request can stand in a profile. -/
theorem normalize_plain (texts : AddressTexts ext) {value : String} {subnet : Option String}
    (normal : normalizeDnsClientSubnetValue ext value = .ok subnet) : PlainSubnet subnet := by
  cases subnet with
  | none => exact ⟨by simp,by decide⟩
  | some text =>
    obtain ⟨_,address,n,network,_,_,_,rfl⟩ := normalize_ok.mp normal
    refine ⟨?_,written_avoids_nul texts network n⟩
    exact fun empty => written_ne_empty network n (Option.some.inj empty)

/-- Client subnets have one normal form for each network. The normal form is a network with its
    prefix length, no shift overflows on the way, and private servers are shared by exactly
    the requests that ask one source for the same. -/
theorem client_subnets (texts : AddressTexts ext) (hash : Function.Injective ext.sha256) :
    (∀ value text, normalizeDnsClientSubnetValue ext value = .ok (some text) → ∃ address n network,
      Spells ext value address n ∧ text = ext.displayIp network ++ "/" ++ toString n ∧ network.isIpv4 = address.isIpv4 ∧ n ≤ network.maxPrefix ∧
        (∀ i, n ≤ i → bit network i = false) ∧ (∀ i < n, bit network i = bit address i) ∧
        normalizeDnsClientSubnetValue ext text = .ok (some text)) ∧
    (∀ value value' text text', normalizeDnsClientSubnetValue ext value = .ok (some text) →
      normalizeDnsClientSubnetValue ext value' = .ok (some text') → (text = text' ↔ SameSubnet ext value value')) ∧
    (∀ value, normalizeDnsClientSubnetValue ext value ≠ .error SHIFT_OVERFLOW) ∧
    (∀ source source' strategy strategy' disable disable' ttl ttl' value value' subnet subnet',
      normalizeDnsClientSubnetValue ext value = .ok subnet → normalizeDnsClientSubnetValue ext value' = .ok subnet' →
      (dnsProfileVariantTag ext ⟨source,strategy,⟨disable,ttl,subnet⟩⟩ = dnsProfileVariantTag ext ⟨source',strategy',⟨disable',ttl',subnet'⟩⟩ ↔
        source = source' ∧ strategy = strategy' ∧ disable = disable' ∧ ttl = ttl' ∧
          ((value = "" ∧ value' = "") ∨ (value ≠ "" ∧ value' ≠ "" ∧ SameSubnet ext value value')))) := by
  refine ⟨?_,?_,shift_fits,?_⟩
  · intro value text normal
    exact normalize_normal texts normal
  · intro value value' text text' normal normal'
    exact normalize_same texts normal normal'
  · intro source source' strategy strategy' disable disable' ttl ttl' value value' subnet subnet' normal normal'
    rw [← subnets_same texts normal normal']
    constructor
    · intro same
      have keys := dnsProfileVariantTag_injective hash (normalize_plain texts normal) (normalize_plain texts normal') same
      cases keys
      exact ⟨rfl,rfl,rfl,rfl,rfl⟩
    · rintro ⟨rfl,rfl,rfl,rfl,rfl⟩
      rfl

/-! ### An example of address texts -/

/-- The value of digits up to `f`. -/
def digitsValue (base : ℕ) (digits : List Char) : ℕ :=
  digits.foldl (fun value c => base * value + if c.isDigit then c.toNat - 48 else c.toNat - 87) 0

theorem digitsValue_append (base : ℕ) (front : List Char) (c : Char) :
    digitsValue base (front ++ [c]) = base * digitsValue base front + if c.isDigit then c.toNat - 48 else c.toNat - 87 := by
  simp [digitsValue]

theorem digitsValue_toDigits {base : ℕ} (binary : 1 < base) (hex : base ≤ 16) (n : ℕ) :
    digitsValue base (Nat.toDigits base n) = n ∧ ∀ c ∈ Nat.toDigits base n, c ∈ "0123456789abcdefABCDEF".toList := by
  have one (d : ℕ) (small : d < 16) : (if d.digitChar.isDigit then d.digitChar.toNat - 48 else d.digitChar.toNat - 87) = d ∧
      d.digitChar ∈ "0123456789abcdefABCDEF".toList := by
    interval_cases d <;> decide
  induction n using Nat.strongRecOn with
  | ind n ih =>
    by_cases small : n < base
    · have last := one n (by omega)
      rw [Nat.toDigits_of_lt_base small]
      exact ⟨by simpa [digitsValue] using last.1,by simpa using last.2⟩
    · have front : 0 < n / base := Nat.div_pos (by omega) (by omega)
      have rest := Nat.mod_lt n (by omega : 0 < base)
      have parts := Nat.div_add_mod n base
      obtain ⟨value,characters⟩ := ih (n / base) (Nat.div_lt_self (by omega) binary)
      have last := one (n % base) (by omega)
      have digits : Nat.toDigits base n = Nat.toDigits base (n / base) ++ [(n % base).digitChar] := by
        rw [← Nat.toDigits_of_lt_base rest,Nat.toDigits_append_toDigits binary front rest,parts]
      rw [digits,digitsValue_append,value,last.1]
      refine ⟨parts,?_⟩
      rw [List.forall_mem_append]
      exact ⟨characters,by simpa using last.2⟩

/-- The groups of a number, the highest first. -/
def groups (size : ℕ) : ℕ → ℕ → List ℕ
  | 0, _ => []
  | count + 1, n => groups size count (n / size) ++ [n % size]

def ungroup (size : ℕ) (numbers : List ℕ) : ℕ := numbers.foldl (fun value n => size * value + n) 0

theorem ungroup_groups {size : ℕ} (count n : ℕ) (within : n < size ^ count) : ungroup size (groups size count n) = n := by
  induction count generalizing n with
  | zero =>
    have nothing : n = 0 := by simpa using within
    rw [nothing]
    rfl
  | succ count ih =>
    have front := ih (n / size) (Nat.div_lt_of_lt_mul (by rwa [pow_succ,Nat.mul_comm] at within))
    unfold ungroup at front ⊢
    rw [groups,List.foldl_append,front]
    exact Nat.div_add_mod n size

theorem groups_length (size count n : ℕ) : (groups size count n).length = count := by
  induction count generalizing n with
  | zero => rfl
  | succ count ih => rw [groups,List.length_append,ih]; rfl

def groupsText (base : ℕ) (separator : Char) (numbers : List ℕ) : List Char := [separator].intercalate (numbers.map (Nat.toDigits base))

def readGroups (base size : ℕ) (separator : Char) (text : List Char) : ℕ := ungroup size ((text.splitOn separator).map (digitsValue base))

theorem readGroups_text {base size count n : ℕ} {separator : Char} (binary : 1 < base) (hex : base ≤ 16)
    (other : separator ∉ "0123456789abcdefABCDEF".toList) (some : count ≠ 0) (within : n < size ^ count) :
    readGroups base size separator (groupsText base separator (groups size count n)) = n := by
  have nonempty : (groups size count n).map (Nat.toDigits base) ≠ [] := by
    intro none
    have length := congrArg List.length none
    rw [List.length_map,groups_length] at length
    exact some length
  have plain : ∀ field ∈ (groups size count n).map (Nat.toDigits base), separator ∉ field := by
    intro field member own
    obtain ⟨number,_,rfl⟩ := List.mem_map.mp member
    exact other ((digitsValue_toDigits binary hex number).2 separator own)
  have values : digitsValue base ∘ Nat.toDigits base = id := funext (fun number => (digitsValue_toDigits binary hex number).1)
  unfold readGroups groupsText
  rw [List.splitOn_intercalate separator plain nonempty,List.map_map,values,List.map_id,ungroup_groups count n within]

theorem intercalate_characters {separator c : Char} (fields : List (List Char)) (member : c ∈ [separator].intercalate fields) :
    c = separator ∨ ∃ field ∈ fields, c ∈ field := by
  induction fields with
  | nil => cases member
  | cons field rest ih =>
    cases rest with
    | nil => exact .inr ⟨field,List.mem_cons_self,by simpa using member⟩
    | cons next others =>
      rw [List.intercalate_cons_cons,List.mem_append,List.mem_append,List.mem_singleton] at member
      rcases member with (own | own) | later
      · exact .inr ⟨field,List.mem_cons_self,own⟩
      · exact .inl own
      · rcases ih later with own | ⟨field',inside,own⟩
        · exact .inl own
        · exact .inr ⟨field',List.mem_cons_of_mem _ inside,own⟩

theorem groupsText_characters {base : ℕ} {separator c : Char} (binary : 1 < base) (hex : base ≤ 16) {numbers : List ℕ}
    (member : c ∈ groupsText base separator numbers) : c = separator ∨ c ∈ "0123456789abcdefABCDEF".toList := by
  rcases intercalate_characters _ member with own | ⟨field,inside,own⟩
  · exact .inl own
  · obtain ⟨number,_,rfl⟩ := List.mem_map.mp inside
    exact .inr ((digitsValue_toDigits binary hex number).2 c own)

theorem separator_mem {base size n : ℕ} {separator : Char} (count : ℕ) : separator ∈ groupsText base separator (groups size (count + 2) n) := by
  have two := groups_length size (count + 2) n
  unfold groupsText
  match groups size (count + 2) n, two with
  | first :: second :: rest, _ =>
    rw [List.map_cons,List.map_cons,List.intercalate_cons_cons]
    simp

/-- The texts of addresses with all their groups. -/
def groupedIp : IpAddr → List Char
  | .v4 address => groupsText 10 '.' (groups 256 4 address.toNat)
  | .v6 address => groupsText 16 ':' (groups 65536 8 address.toNat)

def readIp (text : List Char) : IpAddr :=
  if ':' ∈ text then .v6 (BitVec.ofNat 128 (readGroups 16 65536 ':' text)) else .v4 (BitVec.ofNat 32 (readGroups 10 256 '.' text))

def groupedTexts : Externals :=
  ⟨id,fun text => if groupedIp (readIp text.toList) = text.toList then some (readIp text.toList) else none,fun address => String.ofList (groupedIp address),
    fun _ => .error "",fun _ => "",id⟩

theorem readIp_groupedIp (address : IpAddr) : readIp (groupedIp address) = address := by
  unfold readIp
  cases address with
  | v4 address =>
    have plain : ':' ∉ groupedIp (.v4 address) := by
      intro member
      rcases groupsText_characters (by decide) (by decide) member with own | own
      · exact absurd own (by decide)
      · exact absurd own (by decide)
    have read : readGroups 10 256 '.' (groupsText 10 '.' (groups 256 4 address.toNat)) = address.toNat :=
      readGroups_text (by decide) (by decide) (by decide) (by decide) address.isLt
    rw [if_neg plain,groupedIp,read,BitVec.ofNat_toNat,BitVec.setWidth_eq]
  | v6 address =>
    have colon : ':' ∈ groupedIp (.v6 address) := separator_mem 6
    have read : readGroups 16 65536 ':' (groupsText 16 ':' (groups 65536 8 address.toNat)) = address.toNat :=
      readGroups_text (by decide) (by decide) (by decide) (by decide) address.isLt
    rw [if_pos colon,groupedIp,read,BitVec.ofNat_toNat,BitVec.setWidth_eq]

theorem groupedTexts_parsed {text : String} {address : IpAddr} (parsed : groupedTexts.parseIp text = some address) : text.toList = groupedIp address := by
  unfold groupedTexts at parsed
  dsimp only at parsed
  split at parsed
  · next own =>
    cases parsed
    exact own.symm
  · cases parsed

theorem groupedTexts_addresses : AddressTexts groupedTexts where
  printed address := by
    unfold groupedTexts
    simp only [String.toList_ofList,readIp_groupedIp,if_pos]
  nonempty := by
    rintro text address parsed rfl
    have own := groupedTexts_parsed parsed
    cases address with
    | v4 address =>
      have member : '.' ∈ groupedIp (.v4 address) := separator_mem 2
      rw [← own] at member
      cases member
    | v6 address =>
      have member : ':' ∈ groupedIp (.v6 address) := separator_mem 6
      rw [← own] at member
      cases member
  characters := by
    intro text address parsed c member
    rw [groupedTexts_parsed parsed] at member
    have listed : "0123456789abcdefABCDEF.:".toList = "0123456789abcdefABCDEF".toList ++ ['.',':'] := rfl
    rw [listed,List.mem_append]
    cases address with
    | v4 address =>
      rcases groupsText_characters (by decide) (by decide) member with rfl | own
      · exact .inr (by decide)
      · exact .inl own
    | v6 address =>
      rcases groupsText_characters (by decide) (by decide) member with rfl | own
      · exact .inr (by decide)
      · exact .inl own

theorem eight_bits : normalizeDnsClientSubnetValue groupedTexts "10.1.2.3/8" = .ok (some "10.0.0.0/8") := by
  decide

/-- A subnet in its normal form, and sources with separators in their names. -/
theorem eight_bits_subnet : normalizeDnsClientSubnetValue groupedTexts "10.0.0.0/8" = .ok (some "10.0.0.0/8") ∧
    dnsProfileVariantTag groupedTexts ⟨"a\x00ipv4_only",.ipv6Only,⟨false,none,some "10.0.0.0/8"⟩⟩ ≠
      dnsProfileVariantTag groupedTexts ⟨"a",.ipv4Only,⟨false,none,some "10.0.0.0/8"⟩⟩ := by
  obtain ⟨normal,_,_,tags⟩ := client_subnets groupedTexts_addresses Function.injective_id
  obtain ⟨_,_,_,_,_,_,_,_,_,again⟩ := normal _ _ eight_bits
  refine ⟨again,?_⟩
  intro same
  have strategies := ((tags _ _ _ _ _ _ _ _ _ _ _ _ eight_bits eight_bits).mp same).2.1
  cases strategies

end NodeAgent.ClientSubnets
