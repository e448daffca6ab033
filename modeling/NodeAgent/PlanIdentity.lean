import Mathlib.Tactic.IntervalCases
import NodeAgent.Delimiters
import NodeAgent.NftTables
import NodeAgent.PlanBuilding
import NodeAgent.Utf8Bytes

/-!
The identity of plans. The digest is taken of fields between separators, and the identifiers of
nodes may contain the separators; so two plans may have one digest. They cannot where the
identifiers are written without one of the characters that every redirect needs.
-/
namespace NodeAgent.PlanIdentity
open NodeAgent.Api NodeAgent.ForwardingPlans NodeAgent.PlanBuilding NodeAgent.PortRanges NodeAgent.Intervals NodeAgent.Delimiters
open NodeAgent.Inbounds (NodeInstance HYSTERIA2_SALAMANDER_ID)
open NodeAgent.Credential (Bytes)

/-! ### The text of a plan -/

def nul : Char := Char.ofNat 0

def portText (port : UInt16) : List Char := (toString port.toNat).toList

def rangeText (range : PortRange) : List Char := portText range.start ++ '-' :: (portText range.stop ++ [','])

def rangesText (ranges : List PortRange) : List Char := ranges.flatMap rangeText

def redirectText (redirect : Redirect) : List Char :=
  redirect.nodeId.toList ++ nul :: (portText redirect.listenPort ++ nul :: (rangesText redirect.ports ++ [nul]))

def planText (redirects : List Redirect) : List Char := redirects.flatMap redirectText

theorem asBytes_chars (text : String) : asBytes text = text.toList.flatMap String.utf8EncodeChar := Utf8Bytes.bytes_chars text

/-- What the digest is taken of is a text. -/
theorem planBytes_text (plan : Plan) : planBytes plan = asBytes (String.ofList (planText plan.redirects)) := by
  have encoded (c : Char) (byte : UInt8) (one : String.utf8EncodeChar c = [byte]) (rest : List Char) :
      (c :: rest).flatMap String.utf8EncodeChar = byte :: rest.flatMap String.utf8EncodeChar := by
    rw [List.flatMap_cons,one,List.singleton_append]
  have dash : asBytes "-" = [45] := by decide +kernel
  have comma : asBytes "," = [44] := by decide +kernel
  have range (r : PortRange) : asBytes (toString r.start.toNat) ++ asBytes "-" ++ asBytes (toString r.stop.toNat) ++ asBytes "," =
      (rangeText r).flatMap String.utf8EncodeChar := by
    rw [dash,comma,asBytes_chars,asBytes_chars,rangeText,portText,portText,List.flatMap_append,encoded '-' 45 (by decide),
      List.flatMap_append,encoded ',' 44 (by decide)]
    simp
  have redirect (r : Redirect) : asBytes r.nodeId ++ [0] ++ asBytes (toString r.listenPort.toNat) ++ [0] ++
      r.ports.flatMap (fun range => asBytes (toString range.start.toNat) ++ asBytes "-" ++ asBytes (toString range.stop.toNat) ++ asBytes ",") ++ [0] =
      (redirectText r).flatMap String.utf8EncodeChar := by
    have ranges : r.ports.flatMap (fun range => asBytes (toString range.start.toNat) ++ asBytes "-" ++ asBytes (toString range.stop.toNat) ++ asBytes ",") =
        (rangesText r.ports).flatMap String.utf8EncodeChar := by
      rw [rangesText,List.flatMap_assoc]
      exact congrArg (fun f => List.flatMap f r.ports) (funext range)
    rw [ranges,asBytes_chars,asBytes_chars,redirectText,portText,List.flatMap_append,encoded nul 0 (by decide),
      List.flatMap_append,encoded nul 0 (by decide),List.flatMap_append,encoded nul 0 (by decide)]
    simp
  rw [asBytes_chars,String.toList_ofList,planText,List.flatMap_assoc,planBytes]
  exact congrArg (fun f => List.flatMap f plan.redirects) (funext redirect)

theorem digest_eq_iff {sha256 : Bytes → Bytes} (hashes : Function.Injective sha256) {p q : Plan} :
    p.digest sha256 = q.digest sha256 ↔ planText p.redirects = planText q.redirects := by
  constructor
  · intro same
    have bytes := hashes (TopologyDigest.hexEncode_injective same)
    rw [planBytes_text,planBytes_text] at bytes
    have texts := congrArg String.toList (Utf8Bytes.bytes_injective bytes)
    rwa [String.toList_ofList,String.toList_ofList] at texts
  · intro same
    rw [Plan.digest,Plan.digest,planBytes_text,planBytes_text,same]

/-! ### The fields of a redirect -/

theorem portText_digit {port : UInt16} {c : Char} (member : c ∈ portText port) : c.isDigit := isDigit_of_mem member

theorem portText_plain {port : UInt16} {c : Char} (other : c.isDigit = false) : c ∉ portText port := by
  intro member
  rw [portText_digit member] at other
  cases other

theorem portText_injective {port port' : UInt16} (same : portText port = portText port') : port = port' :=
  UInt16.toNat_inj.mp (toString_injective same)

theorem nul_not_digit : nul.isDigit = false := by decide

theorem rangesText_plain (ranges : List PortRange) : nul ∉ rangesText ranges := by
  intro member
  obtain ⟨range,_,here⟩ := List.mem_flatMap.mp member
  rcases List.mem_append.mp here with start | rest
  · exact portText_plain nul_not_digit start
  rcases List.mem_cons.mp rest with dash | rest
  · exact absurd dash (by decide)
  rcases List.mem_append.mp rest with stop | comma
  · exact portText_plain nul_not_digit stop
  · exact absurd (List.mem_singleton.mp comma) (by decide)

theorem rangesText_cons (range : PortRange) (rest : List PortRange) :
    rangesText (range :: rest) = portText range.start ++ '-' :: (portText range.stop ++ ',' :: rangesText rest) := by
  simp [rangesText,rangeText]

theorem rangesText_injective {ranges ranges' : List PortRange} (same : rangesText ranges = rangesText ranges') : ranges = ranges' := by
  have filled (range : PortRange) (rest : List PortRange) : rangesText (range :: rest) ≠ [] := by
    rw [rangesText_cons]
    simp
  induction ranges generalizing ranges' with
  | nil =>
    cases ranges' with
    | nil => rfl
    | cons range rest => exact absurd same.symm (filled range rest)
  | cons range rest ih =>
    cases ranges' with
    | nil => exact absurd same (filled range rest)
    | cons range' rest' =>
      rw [rangesText_cons,rangesText_cons] at same
      obtain ⟨start,same⟩ := first_split (portText_plain (by decide)) (portText_plain (by decide)) same
      obtain ⟨stop,same⟩ := first_split (portText_plain (by decide)) (portText_plain (by decide)) same
      have ports : range = range' := by
        cases range
        cases range'
        exact congrArg₂ PortRange.mk (portText_injective start) (portText_injective stop)
      rw [ports,ih same]

/-- The last redirect of a text, but for its node, is known. -/
theorem last_fields {before before' : List Char} {port port' : UInt16} {ranges ranges' : List PortRange}
    (same : before ++ nul :: (portText port ++ nul :: (rangesText ranges ++ [nul])) =
      before' ++ nul :: (portText port' ++ nul :: (rangesText ranges' ++ [nul]))) :
    before = before' ∧ port = port' ∧ ranges = ranges' := by
  have regroup (text : List Char) (own : UInt16) (listed : List PortRange) :
      text ++ nul :: (portText own ++ nul :: (rangesText listed ++ [nul])) = ((text ++ nul :: portText own) ++ nul :: rangesText listed) ++ [nul] := by
    simp
  rw [regroup,regroup] at same
  obtain ⟨same,listed⟩ := last_split (rangesText_plain _) (rangesText_plain _) (List.append_cancel_right same)
  obtain ⟨same,own⟩ := last_split (portText_plain nul_not_digit) (portText_plain nul_not_digit) same
  exact ⟨same,portText_injective own,rangesText_injective listed⟩

/-! ### Characters that every redirect needs -/

/-- A redirect that a plan may have: it listens, and redirects something. -/
structure Filled (redirect : Redirect) : Prop where
  listens : redirect.listenPort ≠ 0
  ports : redirect.ports ≠ []

/-- The characters of every redirect: the separators, and a digit that is not zero. -/
def Separators (alphabet : Set Char) : Prop := nul ∈ alphabet ∧ '-' ∈ alphabet ∧ ',' ∈ alphabet ∧ ∃ c ∈ alphabet, c.isDigit ∧ c ≠ '0'

theorem separators_of_fields {redirect : Redirect} {alphabet : Set Char} (filled : Filled redirect) (zero : nul ∈ alphabet)
    (port : ∀ c ∈ portText redirect.listenPort, c ∈ alphabet) (ranges : ∀ c ∈ rangesText redirect.ports, c ∈ alphabet) : Separators alphabet := by
  obtain ⟨c,member,digit,other⟩ := exists_nonzero (n := redirect.listenPort.toNat) (fun none => filled.listens (UInt16.toNat_inj.mp none))
  cases listed : redirect.ports with
  | nil => exact absurd listed filled.ports
  | cons range rest =>
    rw [listed,rangesText_cons] at ranges
    exact ⟨zero,ranges '-' (by simp),ranges ',' (by simp),c,port c member,digit,other⟩

theorem planText_concat (redirects : List Redirect) (redirect : Redirect) :
    planText (redirects ++ [redirect]) = planText redirects ++ redirect.nodeId.toList ++
      nul :: (portText redirect.listenPort ++ nul :: (rangesText redirect.ports ++ [nul])) := by
  simp [planText,redirectText]

/-- A text of redirects is empty or ends with a separator of ranges and one of fields. -/
theorem planText_ends {redirects : List Redirect} (filled : ∀ redirect ∈ redirects, Filled redirect) :
    planText redirects = [] ∨ ∃ text, planText redirects = text ++ [',',nul] := by
  rcases List.eq_nil_or_concat redirects with none | ⟨first,last,rfl⟩
  · left
    rw [none]
    rfl
  · right
    rw [List.concat_eq_append,planText_concat]
    have own := filled last (by simp)
    rcases List.eq_nil_or_concat last.ports with none | ⟨ranges,range,listed⟩
    · exact absurd none own.ports
    · rw [listed]
      exact ⟨planText first ++ last.nodeId.toList ++ nul :: (portText last.listenPort ++ nul :: (rangesText ranges ++ (portText range.start ++
        '-' :: portText range.stop))),by simp [rangesText,rangeText]⟩

/-- What follows one text of redirects in another ends with all fields of a redirect. -/
theorem separators_of_append {left right : List Redirect} {more : List Char} {alphabet : Set Char} (filled : ∀ redirect ∈ left, Filled redirect)
    (filled' : ∀ redirect ∈ right, Filled redirect) (same : planText right = planText left ++ more) (some : more ≠ [])
    (written : ∀ c ∈ more, c ∈ alphabet) : Separators alphabet := by
  rcases List.eq_nil_or_concat right with none | ⟨first,last,rfl⟩
  · rw [none] at same
    exact absurd (List.append_eq_nil_iff.mp same.symm).2 some
  rw [List.concat_eq_append] at filled' same
  have own : Filled last := filled' last (by simp)
  rw [planText_concat] at same
  rcases planText_ends filled with nothing | ⟨text,ends⟩
  · rw [nothing,List.nil_append] at same
    rw [← same] at written
    exact separators_of_fields own (written nul (by simp)) (fun c member => written c (by simp [member])) (fun c member => written c (by simp [member]))
  generalize planText first ++ last.nodeId.toList = before at same
  have regroup : before ++ nul :: (portText last.listenPort ++ nul :: (rangesText last.ports ++ [nul])) =
      ((before ++ nul :: portText last.listenPort) ++ nul :: rangesText last.ports) ++ nul :: [] := by
    simp
  have ending : text ++ [',',nul] ++ more = (text ++ [',']) ++ nul :: more := by simp
  rw [regroup,ends,ending] at same
  rcases peel List.not_mem_nil same.symm with ⟨_,none⟩ | ⟨more,rfl,shorter⟩
  · exact absurd none some
  rcases peel (rangesText_plain _) shorter with ⟨ported,_⟩ | ⟨more,rfl,shortest⟩
  · -- `left` would end with a port.
    rcases List.eq_nil_or_concat (portText last.listenPort) with none | ⟨digits,digit,listed⟩
    · exact absurd none (toString_ne_nil _)
    · rw [listed,List.concat_eq_append,← List.cons_append,← List.append_assoc] at ported
      have comma := List.append_inj_right' ported rfl
      have isDigit := @portText_digit last.listenPort digit (by rw [listed]; simp)
      rw [← List.head_eq_of_cons_eq comma] at isDigit
      exact absurd isDigit (by decide)
  have ported : ∀ c ∈ portText last.listenPort, c ∈ more := by
    intro c member
    rcases peel (portText_plain nul_not_digit) shortest with ⟨_,rfl⟩ | ⟨rest,rfl,_⟩
    · exact member
    · simp [member]
  refine separators_of_fields own (written nul (by simp)) (fun c member => written c ?_) (fun c member => written c (by simp [member]))
  exact List.mem_append_left _ (List.mem_append_left _ (ported c member))

theorem redirect_eq {left right : Redirect} (nodeId : left.nodeId = right.nodeId) (listenPort : left.listenPort = right.listenPort)
    (ports : left.ports = right.ports) : left = right := by
  cases left
  cases right
  simp_all

/-- Where the separators cannot be written, redirects are known from their text. -/
theorem planText_injective {left right : List Redirect} {alphabet : Set Char} (plain : ¬ Separators alphabet)
    (filled : ∀ redirect ∈ left, Filled redirect) (filled' : ∀ redirect ∈ right, Filled redirect)
    (written : ∀ redirect ∈ left, ∀ c ∈ redirect.nodeId.toList, c ∈ alphabet)
    (written' : ∀ redirect ∈ right, ∀ c ∈ redirect.nodeId.toList, c ∈ alphabet) (same : planText left = planText right) : left = right := by
  induction left using List.reverseRecOn generalizing right with
  | nil =>
    rcases List.eq_nil_or_concat right with none | ⟨first,last,rfl⟩
    · exact none.symm
    · rw [List.concat_eq_append,planText_concat] at same
      simp [planText] at same
  | append_singleton first last ih =>
    rcases List.eq_nil_or_concat right with none | ⟨first',last',rfl⟩
    · rw [none,planText_concat] at same
      simp [planText] at same
    · rw [List.concat_eq_append] at filled' written' same ⊢
      rw [List.forall_mem_append] at filled filled' written written'
      have own := written.2 last (List.mem_singleton_self last)
      have own' := written'.2 last' (List.mem_singleton_self last')
      rw [planText_concat,planText_concat] at same
      obtain ⟨texts,port,ranges⟩ := last_fields same
      rcases List.append_eq_append_iff.mp texts with ⟨more,longer,ids⟩ | ⟨more,longer,ids⟩
      · rcases eq_or_ne more [] with rfl | some
        · have redirects := redirect_eq (String.toList_inj.mp ids) port ranges
          rw [List.append_nil] at longer
          rw [redirects,ih filled.1 filled'.1 written.1 written'.1 longer.symm]
        · exact absurd (separators_of_append filled.1 filled'.1 longer some (fun c member => own c (by simp [ids,member]))) plain
      · rcases eq_or_ne more [] with rfl | some
        · have redirects := redirect_eq (String.toList_inj.mp ids.symm) port ranges
          rw [List.append_nil] at longer
          rw [redirects,ih filled.1 filled'.1 written.1 written'.1 longer]
        · exact absurd (separators_of_append filled'.1 filled.1 longer some (fun c member => own' c (by simp [ids,member]))) plain

section Plans
variable {parse : Bytes → Except String HoppingConfig} {quote : String → String}

/-- A redirect of a plan listens, and redirects something. -/
theorem planned_filled {nodes : List NodeInstance} {plan : Plan} (done : buildPlan parse quote nodes = .ok plan) :
    ∀ redirect ∈ plan.redirects, Filled redirect := by
  intro redirect member
  obtain ⟨node,listed,config,own,some,redirects⟩ := (buildPlan_describes done).sound redirect member
  refine ⟨?_,?_⟩
  · rw [redirects.listenPort]
    exact (buildPlan_spec.mp done).1.listens node listed config own some
  · intro none
    rw [← redirects.exact_,none] at some
    simp at some

/-! ### Plans of two nodes -/

/-- The configuration of a node that one port is redirected to. -/
def oneHop (listenPort port : UInt16) : HoppingConfig := ⟨listenPort,toString port.toNat⟩

/-- The text that the configuration is read from. -/
def oneHopJson (listenPort port : UInt16) : Bytes :=
  asBytes ("\x7b\"listen_port\":" ++ toString listenPort.toNat ++ ",\"port_hopping\":\"" ++ toString port.toNat ++ "\"\x7d")

theorem oneHopJson_decoded {listenPort port : UInt16} (reads : parse (oneHopJson listenPort port) = .ok (oneHop listenPort port)) :
    decodeHysteriaConfig parse (oneHopJson listenPort port) = .ok (oneHop listenPort port) := by
  rw [decodeHysteriaConfig,if_neg,reads]
  have brace : oneHopJson listenPort port = 123 :: (oneHopJson listenPort port).tail := by
    simp [oneHopJson,asBytes_chars,String.utf8EncodeChar]
  have null : asBytes "null" = [110,117,108,108] := by decide +kernel
  rw [brace,null,List.filter_cons_of_pos (by decide)]
  intro same
  exact absurd (List.head_eq_of_cons_eq same) (by decide)

theorem gapped_singleton (port : UInt16) : Gapped ([PortRange.mk port port].map interval) :=
  ⟨by simp [interval],List.pairwise_singleton _ _⟩

theorem oneHop_parsed (quote : String → String) (listenPort : UInt16) {port : UInt16} (positive : 0 < port.toNat) :
    parsePortRanges quote (oneHop listenPort port).portHopping = .ok [⟨port,port⟩] := by
  have printed : (oneHop listenPort port).portHopping = ",".intercalate ([PortRange.mk port port].map PortRange.display) := by
    rw [List.map_singleton,PortRange.display,if_pos rfl]
    rfl
  rw [printed]
  refine parse_printed (gapped_singleton port) ?_
  intro range member
  rw [List.mem_singleton.mp member]
  exact positive

theorem oneHop_named (listenPort : UInt16) {port : UInt16} (positive : 0 < port.toNat) :
    namedPorts (oneHop listenPort port).portHopping = {port.toNat} := by
  rw [← (parsePortRanges_spec.mp (oneHop_parsed id listenPort positive)).2.2]
  simp [Intervals.Interval.set,interval]

theorem oneHop_redirect {node : NodeInstance} {listenPort port : UInt16} (own : Configures parse node (oneHop listenPort port))
    (positive : 0 < port.toNat) (other : port ≠ listenPort) : redirectOf parse quote node = some ⟨node.nodeId,listenPort,[⟨port,port⟩]⟩ := by
  have kept : removeSelfRedirects [⟨port,port⟩] listenPort = [⟨port,port⟩] := by
    have outside : PortRange.contains ⟨port,port⟩ listenPort = false := by
      rw [← Bool.not_eq_true,contains_iff]
      simpa [Intervals.Interval.set,interval,← UInt16.toNat_inj,eq_comm] using other
    simp [removeSelfRedirects,outside]
  rw [redirectOf,configured_iff.mpr ⟨own,oneHop_parsed quote listenPort positive⟩,Option.bind_some]
  have listens : (oneHop listenPort port).listenPort = listenPort := rfl
  dsimp only
  rw [listens,kept]
  rfl

/-- Two nodes with ports of their own, each with one port redirected to it, in the order of their identifiers. -/
theorem pair_planned {node other : NodeInstance} {k l m n : UInt16} (own : Configures parse node (oneHop k m)) (own' : Configures parse other (oneHop l n))
    (ordered : compare node.nodeId other.nodeId = .lt) (positive : 0 < m.toNat ∧ 0 < n.toNat) (listens : k ≠ 0 ∧ l ≠ 0)
    (apart : m ≠ k ∧ n ≠ l ∧ m ≠ l ∧ n ≠ k ∧ m ≠ n) :
    buildPlan parse quote [node,other] = .ok ⟨[⟨node.nodeId,k,[⟨m,m⟩]⟩,⟨other.nodeId,l,[⟨n,n⟩]⟩]⟩ := by
  have different : node.nodeId ≠ other.nodeId := by
    intro same
    rw [same,Std.compare_eq_iff_eq.mpr rfl] at ordered
    cases ordered
  obtain ⟨km,ln,lm,kn,mn⟩ := apart
  have ports {a b : UInt16} (distinct : a ≠ b) : a.toNat ≠ b.toNat := fun same => distinct (UInt16.toNat_inj.mp same)
  rw [buildPlan_spec]
  refine ⟨⟨by simpa using different,?_,?_,?_,?_⟩,?_⟩
  · intro x member _
    rcases List.mem_pair.mp member with rfl | rfl
    · exact ⟨_,own,_,oneHop_parsed quote k positive.1⟩
    · exact ⟨_,own',_,oneHop_parsed quote l positive.2⟩
  · intro x member config given _
    rcases List.mem_pair.mp member with rfl | rfl
    · rw [given.unique own]
      exact listens.1
    · rw [given.unique own']
      exact listens.2
  · intro x member y member' distinct config config' given given'
    rcases List.mem_pair.mp member with rfl | rfl <;> rcases List.mem_pair.mp member' with rfl | rfl
    · exact absurd rfl distinct
    · rw [given.unique own,given'.unique own',oneHop_named k positive.1]
      exact fun same => ports lm same.symm
    · rw [given.unique own',given'.unique own,oneHop_named l positive.2]
      exact fun same => ports kn same.symm
    · exact absurd rfl distinct
  · intro x member y member' distinct config config' given given'
    have redirected_le (c : HoppingConfig) : redirected c ⊆ namedPorts c.portHopping := Set.sdiff_subset
    have disjoint : Disjoint (namedPorts (oneHop k m).portHopping) (namedPorts (oneHop l n).portHopping) := by
      rw [oneHop_named k positive.1,oneHop_named l positive.2]
      exact Set.disjoint_singleton.mpr (ports mn)
    rcases List.mem_pair.mp member with rfl | rfl <;> rcases List.mem_pair.mp member' with rfl | rfl
    · exact absurd rfl distinct
    · rw [given.unique own,given'.unique own']
      exact disjoint.mono (redirected_le _) (redirected_le _)
    · rw [given.unique own',given'.unique own]
      exact disjoint.symm.mono (redirected_le _) (redirected_le _)
    · exact absurd rfl distinct
  · have made : [node,other].filterMap (redirectOf parse quote) = [⟨node.nodeId,k,[⟨m,m⟩]⟩,⟨other.nodeId,l,[⟨n,n⟩]⟩] := by
      simp [oneHop_redirect own positive.1 km,oneHop_redirect own' positive.2 ln]
    rw [made,sortedRedirects,KeyedLists.sortByKey,List.mergeSort_of_pairwise]
    refine List.pairwise_pair.mpr ?_
    rw [KeyedLists.byKey,ordered]
    rfl

end Plans

/-! ### Identity -/

/-- Digest and rule count tell plans apart, if the node identifiers of their redirects are written in the alphabet. -/
def Identified (parse : Bytes → Except String HoppingConfig) (quote : String → String) (sha256 : Bytes → Bytes) (alphabet : Set Char) : Prop :=
  ∀ nodes nodes' : List NodeInstance, ∀ p q : Plan, buildPlan parse quote nodes = .ok p → buildPlan parse quote nodes' = .ok q →
    (∀ redirect ∈ p.redirects, ∀ c ∈ redirect.nodeId.toList, c ∈ alphabet) → (∀ redirect ∈ q.redirects, ∀ c ∈ redirect.nodeId.toList, c ∈ alphabet) →
    p.digest sha256 = q.digest sha256 → p.ruleCount = q.ruleCount → p = q

theorem digit_bounds {c : Char} (digit : c.isDigit) : 48 ≤ c.toNat ∧ c.toNat ≤ 57 := by
  simp only [Char.isDigit,Bool.and_eq_true,decide_eq_true_eq] at digit
  exact digit

/-- A digit that is not zero is a port, and twice it is another one. -/
theorem repeated_digit {c : Char} (digit : c.isDigit) (other : c ≠ '0') : ∃ k m : UInt16, portText k = [c] ∧ portText m = [c,c] ∧
    0 < k.toNat ∧ k.toNat < m.toNat ∧ m.toNat < 100 := by
  obtain ⟨low,high⟩ := digit_bounds digit
  have named := Char.ofNat_toNat c
  generalize c.toNat = code at low high named
  refine ⟨UInt16.ofNat (code - 48),UInt16.ofNat (11 * (code - 48)),?_⟩
  subst named
  interval_cases code
  · exact absurd rfl other
  all_goals decide

/-- A name that contains the fields of a redirect. -/
def borrowed (first c : Char) : String := String.ofList [first,nul,c,nul,c,c,'-',c,c,',',nul,'-']

/-- Two plans with one text: each has one name that contains the fields of the first redirect. -/
def lending (c : Char) (k m : UInt16) : Plan := ⟨[⟨",",k,[⟨m,m⟩]⟩,⟨borrowed '-' c,20000,[⟨30000,30000⟩]⟩]⟩

def borrowing (c : Char) (k m : UInt16) : Plan := ⟨[⟨borrowed ',' c,k,[⟨m,m⟩]⟩,⟨"-",20000,[⟨30000,30000⟩]⟩]⟩

section Borrowing
variable (c : Char) (k m : UInt16)

theorem borrowing_text (listens : portText k = [c]) (port : portText m = [c,c]) : planText (lending c k m).redirects = planText (borrowing c k m).redirects := by
  simp [planText,redirectText,rangesText,rangeText,lending,borrowing,borrowed,listens,port]

theorem borrowing_other : lending c k m ≠ borrowing c k m := by
  intro same
  have names := congrArg (fun plan : Plan => (plan.redirects.map (fun redirect => redirect.nodeId.toList.length)).head?) same
  simp [lending,borrowing,borrowed] at names

theorem borrowing_written {c : Char} {alphabet : Set Char} (separators : nul ∈ alphabet ∧ '-' ∈ alphabet ∧ ',' ∈ alphabet) (digit : c ∈ alphabet) :
    (∀ redirect ∈ (lending c k m).redirects, ∀ c ∈ redirect.nodeId.toList, c ∈ alphabet) ∧
      ∀ redirect ∈ (borrowing c k m).redirects, ∀ c ∈ redirect.nodeId.toList, c ∈ alphabet := by
  simp [lending,borrowing,borrowed,separators,digit]

theorem lending_ordered : compare "," (borrowed '-' c) = .lt := by
  refine compareOfLessAndEq_eq_lt.mpr (String.lt_iff.mpr ?_)
  have less : ',' < '-' := by decide
  simp only [borrowed,String.toList_ofList]
  exact List.cons_lt_cons_iff.mpr (.inl less)

theorem borrowing_ordered : compare (borrowed ',' c) "-" = .lt := by
  refine compareOfLessAndEq_eq_lt.mpr (String.lt_iff.mpr ?_)
  have less : ',' < '-' := by decide
  simp only [borrowed,String.toList_ofList]
  exact List.cons_lt_cons_iff.mpr (.inl less)

end Borrowing

section Planned
variable {parse : Bytes → Except String HoppingConfig} {quote : String → String} {c : Char} {k m : UInt16}

/-- Both plans are made, of nodes with the same two configurations. -/
theorem borrowing_planned {one two : Bytes} (first : decodeHysteriaConfig parse one = .ok (oneHop k m))
    (second : decodeHysteriaConfig parse two = .ok (oneHop 20000 30000)) (positive : 0 < k.toNat) (more : k.toNat < m.toNat) (small : m.toNat < 100) :
    buildPlan parse quote [⟨",",HYSTERIA2_SALAMANDER_ID,1,one,[]⟩,⟨borrowed '-' c,HYSTERIA2_SALAMANDER_ID,1,two,[]⟩] = .ok (lending c k m) ∧
    buildPlan parse quote [⟨borrowed ',' c,HYSTERIA2_SALAMANDER_ID,1,one,[]⟩,⟨"-",HYSTERIA2_SALAMANDER_ID,1,two,[]⟩] = .ok (borrowing c k m) := by
  have ports {a b : UInt16} (distinct : a.toNat ≠ b.toNat) : a ≠ b := fun same => distinct (congrArg UInt16.toNat same)
  have twenty : (20000 : UInt16).toNat = 20000 := rfl
  have thirty : (30000 : UInt16).toNat = 30000 := rfl
  have zero : (0 : UInt16).toNat = 0 := rfl
  have apart : m ≠ k ∧ (30000 : UInt16) ≠ 20000 ∧ m ≠ 20000 ∧ 30000 ≠ k ∧ m ≠ 30000 :=
    ⟨ports (by omega),by decide,ports (by omega),ports (by omega),ports (by omega)⟩
  exact ⟨pair_planned ⟨rfl,first⟩ ⟨rfl,second⟩ (lending_ordered c) ⟨by omega,by omega⟩ ⟨ports (by omega),by decide⟩ apart,
    pair_planned ⟨rfl,first⟩ ⟨rfl,second⟩ (borrowing_ordered c) ⟨by omega,by omega⟩ ⟨ports (by omega),by decide⟩ apart⟩

end Planned

/-- Digest and rule count tell plans apart exactly if the identifiers of the nodes cannot contain all separators of a redirect. -/
theorem plan_identified_iff {parse : Bytes → Except String HoppingConfig} {quote : String → String} {sha256 : Bytes → Bytes}
    (hashes : Function.Injective sha256) (reads : ∀ listenPort port, parse (oneHopJson listenPort port) = .ok (oneHop listenPort port)) (alphabet : Set Char) :
    Identified parse quote sha256 alphabet ↔ ¬ Separators alphabet := by
  constructor
  · rintro identified ⟨zero,dash,comma,c,member,digit,other⟩
    obtain ⟨k,m,listens,port,positive,more,small⟩ := repeated_digit digit other
    obtain ⟨lent,borrows⟩ := @borrowing_planned parse quote c k m _ _ (oneHopJson_decoded (reads k m)) (oneHopJson_decoded (reads 20000 30000)) positive more small
    obtain ⟨written,written'⟩ := borrowing_written k m ⟨zero,dash,comma⟩ member
    exact borrowing_other c k m (identified _ _ _ _ lent borrows written written'
      ((digest_eq_iff hashes).mpr (borrowing_text c k m listens port)) rfl)
  · intro plain nodes nodes' p q done done' written written' same _
    have redirects := planText_injective plain (planned_filled done) (planned_filled done') written written' ((digest_eq_iff hashes).mp same)
    cases p
    exact congrArg Plan.mk redirects

/-- A reader of configurations with two fields, of which each is of digits. -/
def hopReader (bytes : Bytes) : Except String HoppingConfig :=
  let text := (bytes.map (fun byte => Char.ofNat byte.toNat)).drop "\x7b\"listen_port\":".length
  let rest := (text.dropWhile Char.isDigit).drop ",\"port_hopping\":\"".length
  if text.head?.any Char.isDigit && rest.head?.any Char.isDigit then
    .ok ⟨UInt16.ofNat (Nat.ofDigitChars 10 (text.takeWhile Char.isDigit) 0),String.ofList (rest.takeWhile Char.isDigit)⟩
  else .error "expected digits"

/-- The bytes of ASCII characters are read as the characters. -/
theorem ascii_read {chars : List Char} (ascii : ∀ c ∈ chars, c.toNat < 128) :
    (chars.flatMap String.utf8EncodeChar).map (fun byte => Char.ofNat byte.toNat) = chars := by
  induction chars with
  | nil => rfl
  | cons c rest ih =>
    obtain ⟨small,later⟩ := List.forall_mem_cons.mp ascii
    have one : String.utf8EncodeChar c = [UInt8.ofNat c.toNat] := by
      rw [String.utf8EncodeChar,if_pos (by change c.toNat ≤ 127; omega)]
      rfl
    have code : (UInt8.ofNat c.toNat).toNat = c.toNat := UInt8.toNat_ofNat_of_lt' (by show c.toNat < 256; omega)
    rw [List.flatMap_cons,one,List.map_append,ih later,List.map_singleton,code,Char.ofNat_toNat,List.singleton_append]

/-- The digits at the start of a text. -/
theorem leading_digits (port : UInt16) {c : Char} (other : c.isDigit = false) (rest : List Char) :
    (portText port ++ c :: rest).takeWhile Char.isDigit = portText port ∧ (portText port ++ c :: rest).dropWhile Char.isDigit = c :: rest ∧
      (portText port ++ c :: rest).head?.any Char.isDigit = true := by
  have digits : ∀ d ∈ portText port, d.isDigit = true := fun d => portText_digit
  refine ⟨?_,?_,?_⟩
  · rw [List.takeWhile_append_of_pos digits]
    simp [other]
  · rw [List.dropWhile_append_of_pos digits]
    simp [other]
  · cases listed : portText port with
    | nil => exact absurd listed (toString_ne_nil _)
    | cons d more => exact digits d (by simp [listed])

theorem hopReader_reads (listenPort port : UInt16) : hopReader (oneHopJson listenPort port) = .ok (oneHop listenPort port) := by
  have chars : (oneHopJson listenPort port).map (fun byte => Char.ofNat byte.toNat) = "\x7b\"listen_port\":".toList ++
      (portText listenPort ++ ',' :: ("\"port_hopping\":\"".toList ++ (portText port ++ '"' :: ['}']))) := by
    rw [oneHopJson,asBytes_chars,ascii_read]
    · simp [portText]
    · intro c member
      simp only [String.toList_append,List.mem_append] at member
      have digit {n : ℕ} (member : c ∈ (toString n).toList) : c.toNat < 128 := by
        have bounds := digit_bounds (isDigit_of_mem member)
        omega
      have literal {text : List Char} (ascii : text.all (fun c => c.toNat < 128) = true) (member : c ∈ text) : c.toNat < 128 :=
        of_decide_eq_true (List.all_eq_true.mp ascii c member)
      rcases member with (((start | listens) | middle) | hops) | stop
      · exact literal (by decide) start
      · exact digit listens
      · exact literal (by decide) middle
      · exact digit hops
      · exact literal (by decide) stop
  obtain ⟨listens,rest,starts⟩ := leading_digits listenPort (c := ',') (by decide) ("\"port_hopping\":\"".toList ++ (portText port ++ '"' :: ['}']))
  obtain ⟨hops,_,starts'⟩ := leading_digits port (c := '"') (by decide) ['}']
  have first (text : List Char) : ("\x7b\"listen_port\":".toList ++ text).drop "\x7b\"listen_port\":".length = text := by
    exact List.drop_left
  have second (text : List Char) : (',' :: ("\"port_hopping\":\"".toList ++ text)).drop ",\"port_hopping\":\"".length = text := by
    exact @List.drop_left Char (',' :: "\"port_hopping\":\"".toList) text
  unfold hopReader
  dsimp only
  rw [chars,first,listens,rest,second,starts,hops,starts']
  have number : UInt16.ofNat (Nat.ofDigitChars 10 (portText listenPort) 0) = listenPort := by
    rw [portText,toString_digits,Nat.ofDigitChars_ten_toDigits,UInt16.ofNat_toNat]
  rw [number,portText,String.ofList_toList]
  rfl

/-- Identifiers of digits tell plans apart. -/
theorem plan_identified_sample : Identified hopReader id id {c | c.isDigit} :=
  (plan_identified_iff Function.injective_id hopReader_reads {c | c.isDigit}).mpr (fun separators => absurd separators.1 (by decide))

/-- Two nodes whose plan has the digest and the rule count of the plan of two others; so the rules of the one pass for those of the other. -/
theorem borrowing_collides : ∃ p q : Plan,
    buildPlan hopReader id [⟨",",HYSTERIA2_SALAMANDER_ID,1,oneHopJson 1 11,[]⟩,⟨borrowed '-' '1',HYSTERIA2_SALAMANDER_ID,1,oneHopJson 20000 30000,[]⟩] = .ok p ∧
    buildPlan hopReader id [⟨borrowed ',' '1',HYSTERIA2_SALAMANDER_ID,1,oneHopJson 1 11,[]⟩,⟨"-",HYSTERIA2_SALAMANDER_ID,1,oneHopJson 20000 30000,[]⟩] = .ok q ∧
    p ≠ q ∧ p.ruleCount = q.ruleCount ∧ ∀ sha256 : Bytes → Bytes, p.digest sha256 = q.digest sha256 ∧
      ∀ (current : NftTables.InspectedState), current.exists_ = true → current.complete = true → current.digest = p.digest sha256 →
        current.ruleCount = p.ruleCount → current.matches current.mode (q.digest sha256) q.ruleCount = true := by
  have texts : planText (lending '1' 1 11).redirects = planText (borrowing '1' 1 11).redirects :=
    borrowing_text '1' 1 11 (by decide) (by decide)
  have digests (sha256 : Bytes → Bytes) : (lending '1' 1 11).digest sha256 = (borrowing '1' 1 11).digest sha256 := by
    rw [Plan.digest,Plan.digest,planBytes_text,planBytes_text,texts]
  obtain ⟨lent,borrows⟩ := @borrowing_planned hopReader id '1' 1 11 _ _ (oneHopJson_decoded (hopReader_reads 1 11))
    (oneHopJson_decoded (hopReader_reads 20000 30000)) (by decide) (by decide) (by decide)
  refine ⟨_,_,lent,borrows,borrowing_other _ _ _,rfl,fun sha256 => ⟨digests sha256,?_⟩⟩
  intro current there complete digest count
  rw [NftTables.InspectedState.matches,there,complete,digest,count,digests]
  simp [borrowing,lending,Plan.ruleCount]

end NodeAgent.PlanIdentity
