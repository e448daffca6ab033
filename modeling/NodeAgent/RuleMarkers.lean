import NodeAgent.NftTables
import NodeAgent.Utf8Bytes

/-!
The markers of rules and the expressions of redirections are read back as they were written.
The reader of markers goes through its bytes by offsets; no offset is out of bounds, and what it
accepts is what the writer writes for the record that it returns.
-/
namespace NodeAgent.NftRules
open NodeAgent.TopologyDigest NodeAgent.ForwardingPlans NodeAgent.NftTables
open NodeAgent.Credential (Bytes)

/-! ### Reading by offsets -/

/-- `data[start..stop]`, which panics out of bounds. -/
def sliced (data : Bytes) (start stop : Nat) : Option Bytes :=
  if start ≤ stop ∧ stop ≤ data.length then some ((data.drop start).take (stop - start)) else none

/-- `u16::from_be_bytes([data[offset],data[offset + 1]])`. -/
def port16 (data : Bytes) (offset : Nat) : Option UInt16 := do
  return fromBeBytes16 (← data[offset]?) (← data[offset + 1]?)

/-- The reader from the protocol on. -/
def readFieldsAt (data : Bytes) (offset : Nat) (owner : Bytes) (digest : String) : Option (Except String RuleMarker) := do
  let protocol ← data[offset]?
  if protocol ≠ MARKER_PROTOCOL then return .error "unknown protocol marker"
  else
    let listenPort ← port16 data (offset + 1)
    let start ← port16 data (offset + 3)
    let stop ← port16 data (offset + 5)
    let nodeLen ← data[offset + 7]?
    if nodeLen.toNat = 0 ∨ nodeLen.toNat > MAX_NODE_ID_BYTES ∨ data.length ≠ offset + 8 + nodeLen.toNat then
      return .error "invalid node_id length in ownership marker"
    else
      let node ← sliced data (offset + 8) data.length
      match String.fromUTF8? ⟨node.toArray⟩ with
      | none => return .error "invalid UTF-8 node_id in ownership marker"
      | some nodeId =>
        if listenPort = 0 ∨ start = 0 ∨ start > stop then return .error "invalid redirect values in ownership marker"
        else return .ok ⟨owner,digest,nodeId,listenPort,⟨start,stop⟩⟩

/-- The reader of markers, with its offsets; nothing is returned where it would panic. -/
def readRuleMarker (data : Bytes) : Option (Except String RuleMarker) := do
  let fixed := RULE_MARKER_MAGIC.length + 6 + 32 + 1 + 2 + 2 + 2 + 1
  if data.length < fixed || !RULE_MARKER_MAGIC.isPrefixOf data then return .error "ownership marker is missing or invalid"
  else
    let offset := RULE_MARKER_MAGIC.length
    let owner ← sliced data offset (offset + 6)
    let digest ← sliced data (offset + 6) (offset + 38)
    readFieldsAt data (offset + 38) owner (hexEncode digest)

/-! ### Hexadecimal digests -/

theorem hexNibble_digit {nibble : UInt8} (small : nibble.toNat < 16) : hexNibble (digit nibble) = some nibble := by
  have digits : ∀ i < 16, hexNibble (digit (UInt8.ofNat i)) = some (UInt8.ofNat i) := by decide
  have back := digits nibble.toNat small
  rwa [UInt8.ofNat_toNat] at back

theorem high_lt (byte : UInt8) : (byte >>> 4).toNat < 16 := by
  have shifted : (byte >>> 4).toNat = byte.toNat / 16 := by
    rw [UInt8.toNat_shiftRight]
    exact Nat.shiftRight_eq_div_pow _ 4
  have within := byte.toNat_lt
  omega

theorem low_lt (byte : UInt8) : (byte &&& 0x0f).toNat < 16 := by
  have masked : (byte &&& 0x0f).toNat = byte.toNat % 16 := by
    rw [UInt8.toNat_and]
    exact Nat.and_two_pow_sub_one_eq_mod _ 4
  omega

/-- A byte from its halves. -/
theorem join_nibbles (byte : UInt8) : (byte >>> 4) <<< 4 ||| (byte &&& 0x0f) = byte := by
  have all : ∀ i < 256, (UInt8.ofNat i >>> 4) <<< 4 ||| (UInt8.ofNat i &&& 0x0f) = UInt8.ofNat i := by decide +kernel
  have back := all byte.toNat byte.toNat_lt
  rwa [UInt8.ofNat_toNat] at back

/-- Digits are pairs of characters, a pair for each byte. -/
theorem decodePairs_digits (digest : String) (bytes : Bytes) :
    decodePairs digest (bytes.flatMap (fun byte : UInt8 => [digit (byte >>> 4),digit (byte &&& 0x0f)])) = .ok bytes := by
  induction bytes with
  | nil => rfl
  | cons byte rest ih =>
    rw [List.flatMap_cons,List.cons_append,List.cons_append,List.nil_append,decodePairs,hexNibble_digit (high_lt byte),hexNibble_digit (low_lt byte),ih]
    change Except.ok (((byte >>> 4) <<< 4 ||| (byte &&& 0x0f)) :: rest) = _
    rw [join_nibbles]

theorem hexEncode_size (bytes : Bytes) : (hexEncode bytes).utf8ByteSize = 2 * bytes.length := by
  have one : ∀ i < 16, (String.utf8EncodeChar (digit (UInt8.ofNat i))).length = 1 := by decide
  have single {nibble : UInt8} (small : nibble.toNat < 16) : (String.utf8EncodeChar (digit nibble)).length = 1 := by
    have back := one nibble.toNat small
    rwa [UInt8.ofNat_toNat] at back
  have measured : (hexEncode bytes).utf8ByteSize = (hexEncode bytes).toUTF8.toList.length := by
    rw [Utf8Bytes.toList_data]
    rfl
  rw [measured,Utf8Bytes.bytes_chars,hexEncode,String.toList_ofList]
  clear measured
  induction bytes with
  | nil => rfl
  | cons byte rest ih =>
    rw [List.flatMap_cons,List.flatMap_append,List.length_append,ih]
    simp only [List.flatMap_cons,List.flatMap_nil,List.length_append,single (high_lt byte),single (low_lt byte),List.length_cons,List.length_nil]
    omega

theorem decodeDigest_hexEncode {bytes : Bytes} (whole : bytes.length = 32) : decodeDigest (hexEncode bytes) = .ok bytes := by
  rw [decodeDigest,if_neg (by rw [hexEncode_size,whole]; decide)]
  rw [hexEncode,String.toList_ofList,decodePairs_digits]

/-- Sixty-four lower-case digits. -/
def IsDigest (digest : String) : Prop := digest.toList.length = 64 ∧ ∀ c ∈ digest.toList, c ∈ DIGITS

theorem digit_of_mem {c : Char} (member : c ∈ DIGITS) : ∃ i < 16, digit (UInt8.ofNat i) = c := by
  have each : ∀ c ∈ DIGITS, ∃ i < 16, digit (UInt8.ofNat i) = c := by
    have listed : (List.range 16).map (fun i => digit (UInt8.ofNat i)) = DIGITS := by decide
    intro c member
    rw [← listed] at member
    obtain ⟨i,small,same⟩ := List.mem_map.mp member
    exact ⟨i,List.mem_range.mp small,same⟩
  exact each c member

/-- A byte for each pair of digits. -/
theorem bytes_of_digits (count : Nat) (chars : List Char) (even : chars.length = 2 * count) (digits : ∀ c ∈ chars, c ∈ DIGITS) :
    ∃ bytes : Bytes, bytes.length = count ∧ bytes.flatMap (fun byte : UInt8 => [digit (byte >>> 4),digit (byte &&& 0x0f)]) = chars := by
  have halves : ∀ i < 16, ∀ j < 16, (UInt8.ofNat i <<< 4 ||| UInt8.ofNat j) >>> 4 = UInt8.ofNat i ∧
      (UInt8.ofNat i <<< 4 ||| UInt8.ofNat j) &&& 0x0f = UInt8.ofNat j := by decide
  induction count generalizing chars with
  | zero => exact ⟨[],rfl,(List.eq_nil_of_length_eq_zero even).symm⟩
  | succ count ih =>
    match chars,even,digits with
    | high :: low :: rest,even,digits =>
      obtain ⟨i,small,rfl⟩ := digit_of_mem (digits high (by simp))
      obtain ⟨j,small',rfl⟩ := digit_of_mem (digits low (by simp))
      obtain ⟨bytes,length,same⟩ := ih rest (by simp at even; omega) (fun c member => digits c (by simp [member]))
      obtain ⟨first,second⟩ := halves i small j small'
      refine ⟨(UInt8.ofNat i <<< 4 ||| UInt8.ofNat j) :: bytes,by rw [List.length_cons,length],?_⟩
      rw [List.flatMap_cons,same,first,second]
      rfl

theorem IsDigest.encoded {digest : String} (valid : IsDigest digest) : ∃ bytes : Bytes, bytes.length = 32 ∧ hexEncode bytes = digest := by
  obtain ⟨bytes,length,same⟩ := bytes_of_digits 32 digest.toList valid.1 valid.2
  exact ⟨bytes,length,by rw [hexEncode,same,String.ofList_toList]⟩

/-! ### Fields -/

theorem toNat_fromBeBytes16 (high low : UInt8) : (fromBeBytes16 high low).toNat = 256 * high.toNat + low.toNat := by
  have high_lt := high.toNat_lt
  have low_lt := low.toNat_lt
  have shifted : (high.toUInt16 <<< 8).toNat = high.toNat <<< 8 := by
    rw [UInt16.toNat_shiftLeft,UInt8.toNat_toUInt16]
    have moved : high.toNat <<< 8 = high.toNat * 2 ^ 8 := Nat.shiftLeft_eq _ _
    change high.toNat <<< 8 % 2 ^ 16 = high.toNat <<< 8
    omega
  rw [fromBeBytes16,UInt16.toNat_or,shifted,UInt8.toNat_toUInt16,← Nat.shiftLeft_add_eq_or_of_lt (by omega : low.toNat < 2 ^ 8),Nat.shiftLeft_eq]
  omega

theorem port_bytes (port : UInt16) : fromBeBytes16 (port >>> 8).toUInt8 port.toUInt8 = port := by
  have within := port.toNat_lt
  have high : (port >>> 8).toNat = port.toNat / 256 := by
    rw [UInt16.toNat_shiftRight]
    exact Nat.shiftRight_eq_div_pow _ 8
  refine UInt16.toNat_inj.mp ?_
  rw [toNat_fromBeBytes16,UInt16.toNat_toUInt8,UInt16.toNat_toUInt8,high]
  omega

theorem bytes_port (high low : UInt8) : beBytes16 (fromBeBytes16 high low) = [high,low] := by
  have high_lt := high.toNat_lt
  have low_lt := low.toNat_lt
  have shifted : (fromBeBytes16 high low >>> 8).toNat = (fromBeBytes16 high low).toNat / 256 := by
    rw [UInt16.toNat_shiftRight]
    exact Nat.shiftRight_eq_div_pow _ 8
  have first : (fromBeBytes16 high low >>> 8).toUInt8 = high := by
    refine UInt8.toNat_inj.mp ?_
    rw [UInt16.toNat_toUInt8,shifted,toNat_fromBeBytes16]
    omega
  have second : (fromBeBytes16 high low).toUInt8 = low := by
    refine UInt8.toNat_inj.mp ?_
    rw [UInt16.toNat_toUInt8,toNat_fromBeBytes16]
    omega
  rw [beBytes16,first,second]

theorem toArray_toList (bytes : ByteArray) : (⟨bytes.toList.toArray⟩ : ByteArray) = bytes := by
  rw [Utf8Bytes.toList_data]

theorem text_bytes (text : String) : String.fromUTF8? ⟨(asBytes text).toArray⟩ = some text := by
  rw [asBytes,toArray_toList,String.fromUTF8?,String.toUTF8_eq_toByteArray,dif_pos text.isValidUTF8]
  rfl

theorem bytes_text {bytes : Bytes} {text : String} (valid : String.fromUTF8? ⟨bytes.toArray⟩ = some text) : asBytes text = bytes := by
  rw [String.fromUTF8?] at valid
  split at valid
  · cases valid
    rw [asBytes,Utf8Bytes.toList_data]
    rfl
  · cases valid

/-! ### Markers -/

/-- The bytes of a marker. -/
def markerBytes (owner digest : Bytes) (listenPort start stop : UInt16) (node : Bytes) : Bytes :=
  RULE_MARKER_MAGIC ++ (owner ++ (digest ++ MARKER_PROTOCOL :: (listenPort >>> 8).toUInt8 :: listenPort.toUInt8 :: (start >>> 8).toUInt8 ::
    start.toUInt8 :: (stop >>> 8).toUInt8 :: stop.toUInt8 :: UInt8.ofNat node.length :: node))

section Markers
variable {owner digestBytes data : Bytes} {digest : String} {redirect : Redirect} {ports : PortRange} {marker : RuleMarker}

theorem magic_length : RULE_MARKER_MAGIC.length = 7 := by decide +kernel

/-- What is written, if anything is. -/
theorem encodeRuleMarker_of (decoded : decodeDigest digest = .ok digestBytes) (named : asBytes redirect.nodeId ≠ [])
    (short : (asBytes redirect.nodeId).length ≤ MAX_NODE_ID_BYTES) (listens : redirect.listenPort ≠ 0) (begins : ports.start ≠ 0)
    (ordered : ports.start ≤ ports.stop) : encodeRuleMarker owner digest redirect ports =
      .ok (markerBytes owner digestBytes redirect.listenPort ports.start ports.stop (asBytes redirect.nodeId)) := by
  unfold encodeRuleMarker
  dsimp only
  rw [if_neg (by simpa using named),if_neg (by omega),if_neg (by simp [listens,begins,ordered]),decoded]
  simp [markerBytes,beBytes16,pure,Except.pure,bind,Except.bind]

theorem decodeRuleMarker_bytes {fields : Bytes} (owned : owner.length = 6) (whole : digestBytes.length = 32) (enough : 8 ≤ fields.length) :
    decodeRuleMarker (RULE_MARKER_MAGIC ++ (owner ++ (digestBytes ++ fields))) = decodeRuleFields owner (hexEncode digestBytes) fields := by
  have magic := magic_length
  have begins : RULE_MARKER_MAGIC.isPrefixOf (RULE_MARKER_MAGIC ++ (owner ++ (digestBytes ++ fields))) = true :=
    List.isPrefixOf_iff_prefix.mpr (List.prefix_append ..)
  have long : ¬ (RULE_MARKER_MAGIC ++ (owner ++ (digestBytes ++ fields))).length < RULE_MARKER_MAGIC.length + 6 + 32 + 1 + 2 + 2 + 2 + 1 := by
    simp only [List.length_append]
    omega
  have behind : (owner ++ (digestBytes ++ fields)).drop 38 = fields := by
    rw [← List.append_assoc]
    exact List.drop_left' (by rw [List.length_append]; omega)
  unfold decodeRuleMarker
  dsimp only
  rw [if_neg (by simp only [Bool.or_eq_true,decide_eq_true_iff,not_or]; exact ⟨long,by simp [begins]⟩),List.drop_left,List.take_left' owned,
    List.drop_left' owned,List.take_left' whole,behind]

/-- Everything that is accepted consists of these parts. -/
theorem accepted_parts (long : ¬ data.length < RULE_MARKER_MAGIC.length + 6 + 32 + 1 + 2 + 2 + 2 + 1) (begins : RULE_MARKER_MAGIC.isPrefixOf data = true) :
    ∃ owner digestBytes fields, owner.length = 6 ∧ digestBytes.length = 32 ∧ 8 ≤ fields.length ∧
      data = RULE_MARKER_MAGIC ++ (owner ++ (digestBytes ++ fields)) := by
  have magic := magic_length
  obtain ⟨rest,same⟩ := List.isPrefixOf_iff_prefix.mp begins
  subst same
  rw [List.length_append] at long
  refine ⟨rest.take 6,(rest.drop 6).take 32,rest.drop 38,?_,?_,?_,?_⟩
  · rw [List.length_take]
    omega
  · rw [List.length_take,List.length_drop]
    omega
  · rw [List.length_drop]
    omega
  · have last : (rest.drop 6).drop 32 = rest.drop 38 := by rw [List.drop_drop]
    rw [← last,List.take_append_drop,List.take_append_drop]

/-- What is written is read back. -/
theorem decode_encodeRuleMarker (owned : owner.length = 6) (valid : IsDigest digest) (named : asBytes redirect.nodeId ≠ [])
    (short : (asBytes redirect.nodeId).length ≤ MAX_NODE_ID_BYTES) (listens : redirect.listenPort ≠ 0) (begins : ports.start ≠ 0)
    (ordered : ports.start ≤ ports.stop) : ∃ data, encodeRuleMarker owner digest redirect ports = .ok data ∧
      decodeRuleMarker data = .ok ⟨owner,digest,redirect.nodeId,redirect.listenPort,ports⟩ := by
  obtain ⟨digestBytes,whole,rfl⟩ := valid.encoded
  refine ⟨_,encodeRuleMarker_of (decodeDigest_hexEncode whole) named short listens begins ordered,?_⟩
  have limit : MAX_NODE_ID_BYTES = 128 := rfl
  have counted : (UInt8.ofNat (asBytes redirect.nodeId).length).toNat = (asBytes redirect.nodeId).length :=
    UInt8.toNat_ofNat_of_lt' (Nat.lt_of_le_of_lt short (by decide))
  have positive : 0 < (asBytes redirect.nodeId).length := List.length_pos_iff.mpr named
  have some_ : UInt8.ofNat (asBytes redirect.nodeId).length ≠ 0 := by
    intro zero
    rw [zero] at counted
    have none : (0 : UInt8).toNat = 0 := rfl
    omega
  rw [markerBytes,decodeRuleMarker_bytes owned whole (by simp),decodeRuleFields,if_neg (by simp),if_neg (by rw [counted]; simp [some_,short]),text_bytes]
  dsimp only
  rw [port_bytes,port_bytes,port_bytes,if_neg (by simp [listens,begins,ordered])]

/-- What is accepted is what is written for it. -/
theorem encode_decodeRuleMarker (ranges : List PortRange) (accepted : decodeRuleMarker data = .ok marker) :
    encodeRuleMarker marker.owner marker.digest ⟨marker.nodeId,marker.listenPort,ranges⟩ marker.ports = .ok data := by
  have parts : ∃ owner digestBytes fields, owner.length = 6 ∧ digestBytes.length = 32 ∧ 8 ≤ fields.length ∧
      data = RULE_MARKER_MAGIC ++ (owner ++ (digestBytes ++ fields)) := by
    unfold decodeRuleMarker at accepted
    dsimp only at accepted
    split at accepted
    · cases accepted
    · next fine =>
      simp only [Bool.or_eq_true,decide_eq_true_iff,not_or,Bool.not_eq_true',Bool.not_eq_false] at fine
      exact accepted_parts fine.1 fine.2
  obtain ⟨owner,digestBytes,fields,owned,whole,enough,rfl⟩ := parts
  rw [decodeRuleMarker_bytes owned whole enough] at accepted
  match fields,enough,accepted with
  | protocol :: a :: b :: c :: d :: e :: f :: nodeLen :: node,_,accepted =>
    rw [decodeRuleFields] at accepted
    split at accepted
    · cases accepted
    · next known =>
      split at accepted
      · cases accepted
      · next length =>
        split at accepted
        · cases accepted
        · next nodeId text =>
          dsimp only at accepted
          split at accepted
          · cases accepted
          · next values =>
            cases accepted
            simp only [not_or,not_not] at known length values
            obtain ⟨filled,short,counted⟩ := length
            obtain ⟨listens,begins,ordered⟩ := values
            have bytes := bytes_text text
            have named : node ≠ [] := by
              rintro rfl
              exact filled (UInt8.toNat_inj.mp counted.symm)
            dsimp only
            rw [encodeRuleMarker_of (decodeDigest_hexEncode whole) (by rw [bytes]; exact named) (by rw [bytes,counted]; omega) listens begins
              (UInt16.not_lt.mp ordered),markerBytes,bytes,counted,UInt8.ofNat_toNat,known]
            have first := bytes_port a b
            have second := bytes_port c d
            have third := bytes_port e f
            simp only [beBytes16,List.cons.injEq,and_true] at first second third
            rw [first.1,first.2,second.1,second.2,third.1,third.2]

/-! ### Offsets -/

theorem sliced_part (front part rest : Bytes) : sliced (front ++ (part ++ rest)) front.length (front.length + part.length) = some part := by
  rw [sliced,if_pos (by simp only [List.length_append]; omega),List.drop_left,Nat.add_sub_cancel_left,List.take_left]

theorem behind_front (front fields : Bytes) (index : Nat) : (front ++ fields)[front.length + index]? = fields[index]? := by
  rw [List.getElem?_append_right (Nat.le_add_right ..),Nat.add_sub_cancel_left]

theorem port16_at (front fields : Bytes) (index : Nat) : port16 (front ++ fields) (front.length + index) = port16 fields index := by
  rw [port16,port16,Nat.add_assoc,behind_front,behind_front]

/-- From the protocol on, all offsets are within the bytes. -/
theorem readFieldsAt_eq (front : Bytes) {fields : Bytes} (enough : 8 ≤ fields.length) (owner : Bytes) (digest : String) :
    readFieldsAt (front ++ fields) front.length owner digest = some (decodeRuleFields owner digest fields) := by
  match fields,enough with
  | protocol :: a :: b :: c :: d :: e :: f :: nodeLen :: node,_ =>
    have whole : sliced (front ++ protocol :: a :: b :: c :: d :: e :: f :: nodeLen :: node) (front.length + 8)
        (front ++ protocol :: a :: b :: c :: d :: e :: f :: nodeLen :: node).length = some node := by
      have parts := sliced_part (front ++ [protocol,a,b,c,d,e,f,nodeLen]) node []
      rw [List.append_nil,List.append_assoc,List.length_append] at parts
      have total : (front ++ protocol :: a :: b :: c :: d :: e :: f :: nodeLen :: node).length = front.length + [protocol,a,b,c,d,e,f,nodeLen].length + node.length := by
        simp only [List.length_append,List.length_cons,List.length_nil]
        omega
      rw [total]
      exact parts
    have first : (front ++ protocol :: a :: b :: c :: d :: e :: f :: nodeLen :: node)[front.length]? = some protocol := behind_front front _ 0
    have empty : nodeLen.toNat = 0 ↔ nodeLen = 0 := ⟨fun zero => UInt8.toNat_inj.mp zero,fun zero => by rw [zero]; rfl⟩
    have total : (front ++ protocol :: a :: b :: c :: d :: e :: f :: nodeLen :: node).length ≠ front.length + 8 + nodeLen.toNat ↔
        node.length ≠ nodeLen.toNat := by
      simp only [List.length_append,List.length_cons]
      omega
    unfold readFieldsAt decodeRuleFields
    rw [whole,port16_at,port16_at,port16_at,behind_front,first]
    simp only [port16,List.getElem?_cons_succ,List.getElem?_cons_zero,Option.bind_eq_bind,Option.bind_some,Option.pure_def,empty,total]
    by_cases known : protocol ≠ MARKER_PROTOCOL
    · rw [if_pos known,if_pos known]
    · rw [if_neg known,if_neg known]
      by_cases length : nodeLen = 0 ∨ nodeLen.toNat > MAX_NODE_ID_BYTES ∨ node.length ≠ nodeLen.toNat
      · rw [if_pos length,if_pos length]
      · rw [if_neg length,if_neg length]
        cases String.fromUTF8? ⟨node.toArray⟩ with
        | none => rfl
        | some nodeId =>
          dsimp only
          split <;> rfl

/-- No offset is out of bounds, and the reader with offsets is the other one. -/
theorem readRuleMarker_eq (data : Bytes) : readRuleMarker data = some (decodeRuleMarker data) := by
  by_cases refused : (data.length < RULE_MARKER_MAGIC.length + 6 + 32 + 1 + 2 + 2 + 2 + 1 || !RULE_MARKER_MAGIC.isPrefixOf data) = true
  · unfold readRuleMarker decodeRuleMarker
    dsimp only
    rw [if_pos refused,if_pos refused]
    rfl
  · have fine := refused
    simp only [Bool.or_eq_true,decide_eq_true_iff,not_or,Bool.not_eq_true',Bool.not_eq_false] at fine
    obtain ⟨owner,digestBytes,fields,owned,whole,enough,rfl⟩ := accepted_parts fine.1 fine.2
    rw [decodeRuleMarker_bytes owned whole enough]
    have first := sliced_part RULE_MARKER_MAGIC owner (digestBytes ++ fields)
    have second := sliced_part (RULE_MARKER_MAGIC ++ owner) digestBytes fields
    have third := readFieldsAt_eq (RULE_MARKER_MAGIC ++ (owner ++ digestBytes)) enough owner (hexEncode digestBytes)
    rw [owned] at first
    rw [List.append_assoc,List.length_append,owned,whole,Nat.add_assoc] at second
    rw [List.append_assoc,List.append_assoc,List.length_append,List.length_append,owned,whole] at third
    unfold readRuleMarker
    dsimp only
    rw [if_neg refused,first,second]
    exact third

end Markers

/-! ### Redirections -/

/-- What the library writes for a value that fits into an attribute is one attribute of the
    kind of values. -/
def Netlink.ReadsBack (netlink : Netlink) : Prop :=
  ∀ value : Bytes, value.length + 4 < 65536 → netlink.nlas (netlink.emitValue value) = [some (1,value)]

section Redirections
variable {netlink : Netlink} {ports : PortRange} {target : UInt16}

theorem portMatch_single {port : UInt16} (begins : port ≠ 0) :
    portMatch netlink (.cmp [.sourceRegister .reg1,.op .equal,.data (.value (beBytes16 port))]) .reg1 = some ⟨port,port⟩ := by
  have read : cmpEqualData (.cmp [.sourceRegister .reg1,.op .equal,.data (.value (beBytes16 port))]) .reg1 = some (beBytes16 port) := rfl
  rw [portMatch,read,beBytes16]
  dsimp only
  rw [port_bytes,if_pos begins]

theorem nestedDataValue_emitted (readsBack : netlink.ReadsBack) (port : UInt16) :
    nestedDataValue netlink (netlink.emitValue (beBytes16 port)) = some (beBytes16 port) := by
  rw [nestedDataValue,readsBack _ (by simp [beBytes16])]
  rfl

theorem portMatch_range (readsBack : netlink.ReadsBack) (begins : ports.start ≠ 0) (ordered : ports.start ≤ ports.stop) :
    portMatch netlink (.other "range" [beU32Attr 1 Register.reg1.number,beU32Attr 2 Operator.equal.number,nestedDataAttr netlink 3 (beBytes16 ports.start),
      nestedDataAttr netlink 4 (beBytes16 ports.stop)]) .reg1 = some ports := by
  have read : parseRangeAttributes netlink [beU32Attr 1 Register.reg1.number,beU32Attr 2 Operator.equal.number,nestedDataAttr netlink 3 (beBytes16 ports.start),
      nestedDataAttr netlink 4 (beBytes16 ports.stop)] = some (.reg1,.equal,beBytes16 ports.start,beBytes16 ports.stop) := by
    have register : readBeU32 (beBytes32 Register.reg1.number) = some Register.reg1.number := by decide
    have operator : readBeU32 (beBytes32 Operator.equal.number) = some Operator.equal.number := by decide
    have third : (3 ||| NLA_F_NESTED) &&& NLA_TYPE_MASK = 3 := by decide
    have fourth : (4 ||| NLA_F_NESTED) &&& NLA_TYPE_MASK = 4 := by decide
    have first : (1 : UInt16) &&& NLA_TYPE_MASK = 1 := by decide
    have second : (2 : UInt16) &&& NLA_TYPE_MASK = 2 := by decide
    simp [parseRangeAttributes,readAttributes,nlaKind,beU32Attr,nestedDataAttr,nestedDataValue_emitted readsBack,register,operator,first,second,third,fourth]
  rw [portMatch,if_pos rfl,read,beBytes16,beBytes16]
  dsimp only
  rw [if_neg (by simp),port_bytes,port_bytes,if_pos ⟨begins,ordered⟩]

/-- A redirection is recognised with its ports and its target. -/
theorem managed_redirect (readsBack : netlink.ReadsBack) (begins : ports.start ≠ 0) (ordered : ports.start ≤ ports.stop) (aimed : target ≠ 0) :
    managedRedirectRule netlink (redirectExpressions netlink ports target) = some (ports,target) := by
  have loads : metaLoadsL4proto (.metaLoad [.key .l4Proto,.destinationRegister .reg1]) .reg1 = true := by decide
  have compares : cmpEquals (.cmp [.sourceRegister .reg1,.op .equal,.data (.value [IPPROTO_UDP])]) .reg1 [IPPROTO_UDP] = true := by decide
  have reads : payloadLoadsDport (.payload [.destinationRegister .reg1,.base PAYLOAD_BASE_TRANSPORT_HEADER,.offset 2,.len 2]) .reg1 = true := by decide
  have uses : redirUses (.other "redir" [beU32Attr 1 Register.reg2.number]) .reg2 = true := by decide
  have sends : immediatePort (.immediate [.destinationRegister .reg2,.data (.value (beBytes16 target))]) .reg2 = some target := by
    have read : immediatePort (.immediate [.destinationRegister .reg2,.data (.value [(target >>> 8).toUInt8,target.toUInt8])]) .reg2 =
        some (fromBeBytes16 (target >>> 8).toUInt8 target.toUInt8) := rfl
    rw [beBytes16,read,port_bytes]
  by_cases single : ports.start = ports.stop
  · obtain ⟨start,stop⟩ := ports
    dsimp only at single begins
    subst single
    unfold redirectExpressions
    rw [if_pos rfl]
    simp [managedRedirectRule,expressionData,Expressions.element,rawExpression,loads,compares,reads,uses,sends,portMatch_single begins,aimed]
  · unfold redirectExpressions
    rw [if_neg single]
    simp [managedRedirectRule,expressionData,Expressions.element,rawExpression,loads,compares,reads,uses,sends,portMatch_range readsBack begins ordered,aimed]

end Redirections

/-- Markers and redirections are read back as they were written, and only these are accepted. -/
theorem markers_read_back {netlink : Netlink} (readsBack : netlink.ReadsBack) :
    (∀ (owner : Bytes) (digest : String) (redirect : Redirect) (ports : PortRange), owner.length = 6 → IsDigest digest →
      asBytes redirect.nodeId ≠ [] → (asBytes redirect.nodeId).length ≤ MAX_NODE_ID_BYTES → redirect.listenPort ≠ 0 → 1 ≤ ports.start →
      ports.start ≤ ports.stop → ∃ data, encodeRuleMarker owner digest redirect ports = .ok data ∧
        decodeRuleMarker data = .ok ⟨owner,digest,redirect.nodeId,redirect.listenPort,ports⟩) ∧
    (∀ data marker ranges, decodeRuleMarker data = .ok marker →
      encodeRuleMarker marker.owner marker.digest ⟨marker.nodeId,marker.listenPort,ranges⟩ marker.ports = .ok data) ∧
    (∀ data, readRuleMarker data = some (decodeRuleMarker data)) ∧
    ∀ (ports : PortRange) (target : UInt16), 1 ≤ ports.start → ports.start ≤ ports.stop → 0 < target →
      managedRedirectRule netlink (redirectExpressions netlink ports target) = some (ports,target) := by
  have positive {port : UInt16} (one : 1 ≤ port) : port ≠ 0 := by
    rintro rfl
    exact absurd one (by decide)
  refine ⟨?_,fun data marker ranges accepted => encode_decodeRuleMarker ranges accepted,readRuleMarker_eq,?_⟩
  · intro owner digest redirect ports owned valid named short listens begins ordered
    exact decode_encodeRuleMarker owned valid named short listens (positive begins) ordered
  · intro ports target begins ordered aimed
    exact managed_redirect readsBack (positive begins) ordered (fun zero => by rw [zero] at aimed; exact absurd aimed (by decide))

theorem packetCore_readsBack : packetCore.ReadsBack := by
  intro value short
  generalize padded : List.replicate ((4 - (4 + value.length) % 4) % 4) (0 : UInt8) = padding
  have aligned : (4 + value.length + 3) / 4 * 4 = 4 + (value.length + padding.length) := by
    rw [← padded,List.length_replicate]
    omega
  have emitted : emitNla 1 value = (UInt16.ofNat (4 + value.length)).toUInt8 :: (UInt16.ofNat (4 + value.length) >>> 8).toUInt8 ::
      1 :: 0 :: (value ++ padding) := by
    rw [← padded]
    rfl
  have length : ((UInt16.ofNat (4 + value.length) >>> 8).toUInt8.toUInt16 <<< 8 ||| (UInt16.ofNat (4 + value.length)).toUInt8.toUInt16).toNat =
      4 + value.length := by
    have whole := port_bytes (UInt16.ofNat (4 + value.length))
    unfold fromBeBytes16 at whole
    rw [whole,UInt16.toNat_ofNat']
    omega
  have kind : ((0 : UInt8).toUInt16 <<< 8 ||| (1 : UInt8).toUInt16) &&& NLA_TYPE_MASK = 1 := by decide
  show parseNlas (emitNla 1 value).length (emitNla 1 value) = _
  rw [emitted,List.length_cons,parseNlas]
  rw [length,kind,if_neg (by simp only [List.length_cons,List.length_append]; omega),aligned]
  have rest : List.drop (4 + (value.length + padding.length)) ((UInt16.ofNat (4 + value.length)).toUInt8 ::
      (UInt16.ofNat (4 + value.length) >>> 8).toUInt8 :: 1 :: 0 :: (value ++ padding)) = [] := by
    apply List.drop_eq_nil_of_le
    simp only [List.length_cons,List.length_append]
    omega
  rw [rest,Nat.add_sub_cancel_left,List.take_left]
  rfl

theorem port_range_read_back : (∃ data, encodeRuleMarker [1,2,3,4,5,6] (String.ofList (List.replicate 64 '0')) ⟨"n",443,[]⟩ ⟨20000,20010⟩ = .ok data ∧
      decodeRuleMarker data = .ok ⟨[1,2,3,4,5,6],String.ofList (List.replicate 64 '0'),"n",443,⟨20000,20010⟩⟩) ∧
    managedRedirectRule packetCore (redirectExpressions packetCore ⟨20000,20010⟩ 443) = some (⟨20000,20010⟩,443) := by
  have zeros : IsDigest (String.ofList (List.replicate 64 '0')) := by
    rw [IsDigest,String.toList_ofList]
    refine ⟨List.length_replicate ..,fun c member => ?_⟩
    rw [List.eq_of_mem_replicate member]
    decide
  have named : asBytes "n" = [110] := by decide +kernel
  obtain ⟨markers,_,_,redirects⟩ := markers_read_back packetCore_readsBack
  constructor
  · exact markers [1,2,3,4,5,6] _ ⟨"n",443,[]⟩ ⟨20000,20010⟩ rfl zeros (by rw [named]; decide) (by rw [named]; decide) (by decide) (by decide)
      (by decide)
  · exact redirects ⟨20000,20010⟩ 443 (by decide) (by decide) (by decide)

end NodeAgent.NftRules
