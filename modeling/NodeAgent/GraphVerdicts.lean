import NodeAgent.ReferenceGraphs
import NodeAgent.ChainImages

/-!
The checks of the reference graph accept the well-formed catalogs and no others, in
whatever order the outbounds are visited.
-/
namespace NodeAgent.Outbounds
open NodeAgent.Api NodeAgent.Json NodeAgent.FiniteMap NodeAgent.OutboundAdapter NodeAgent.ReferenceGraphs

variable {ext : Externals} {catalog : Catalog}

/-! ### The graph of a catalog -/

variable (ext catalog) in
def Refers (tag target : String) : Prop :=
  ∃ o references, catalog[tag]? = some o ∧ outboundReferences ext o = .ok references ∧ target ∈ references

variable (ext catalog) in
/-- The member that a selector stands for. -/
def Selects (tag target : String) : Prop :=
  ∃ o d, catalog[tag]? = some o ∧ o.kind = .selector ∧ parseSelectorDefinition ext o = .ok d ∧ target = d.selected

variable (ext catalog) in
/-- A member of a URLTest or a detour, which must be fixed. -/
def Embeds (tag target : String) : Prop := ∃ o, catalog[tag]? = some o ∧ o.kind ≠ .selector ∧ Refers ext catalog tag target

variable (ext catalog) in
def referenceGraph : ReferenceGraph String where
  known tag := tag ∈ catalog
  refers := Refers ext catalog
  selects := Selects ext catalog
  embeds := Embeds ext catalog
  choice tag := ∃ o, catalog[tag]? = some o ∧ o.kind = .urltest

variable (ext catalog) in
/-- The references of every outbound can be read. -/
def Readable : Prop := ∀ (tag : String) (o : ValidatedOutbound), catalog[tag]? = some o → ∃ references, outboundReferences ext o = .ok references

variable (ext catalog) in
/-- Both passes over the graph succeed, for tags in this order. -/
def Validates (tags : List String) : Prop :=
  (∃ states, validateReferences ext catalog ∅ tags = .ok states) ∧ ∃ completed, validateShapes ext catalog ∅ tags = .ok completed

/-! ### What is accepted -/

theorem HasDepth.acc {tag : String} {d : Nat} (deep : HasDepth ext catalog tag d) : Acc (fun b a => Refers ext catalog a b) tag := by
  induction deep with
  | @intro tag d o references depths there refers positive less deep ih =>
    refine .intro tag ?_
    rintro target ⟨o',references',there',refers',member⟩
    rw [there] at there'
    cases there'
    rw [refers] at refers'
    cases refers'
    exact ih target member

/-- No walk is longer than the depth. -/
theorem HasDepth.walk_le {tag : String} {d : Nat} (deep : HasDepth ext catalog tag d) {n : Nat}
    (walk : Walk (referenceGraph ext catalog) tag n) : n ≤ d := by
  induction deep generalizing n with
  | @intro tag d o references depths there refers positive less deep ih =>
    obtain ⟨rest,chain,length⟩ := walk
    cases rest with
    | nil =>
      rw [List.length_nil] at length
      omega
    | cons target rest =>
      obtain ⟨⟨o',references',there',refers',member⟩,later⟩ := List.isChain_cons_cons.mp chain
      rw [there] at there'
      cases there'
      rw [refers] at refers'
      cases refers'
      have shorter := ih target member ⟨rest,later,rfl⟩
      have below := less target member
      rw [List.length_cons] at length
      omega

theorem HasDepth.known {tag : String} {d : Nat} (deep : HasDepth ext catalog tag d) : tag ∈ catalog := by
  cases deep with
  | intro _ there _ _ _ _ => exact Std.ExtTreeMap.mem_iff_isSome_getElem?.mpr (by rw [there]; rfl)

theorem HasDepth.target {tag target : String} {d : Nat} (deep : HasDepth ext catalog tag d) (refers : Refers ext catalog tag target) :
    ∃ d', HasDepth ext catalog target d' := by
  obtain ⟨o,references,there,read,member⟩ := refers
  cases deep with
  | @intro _ _ o' references' depths there' read' _ _ deep =>
    rw [there] at there'
    cases there'
    rw [read] at read'
    cases read'
    exact ⟨depths target,deep target member⟩

/-- A chain that is fixed leaves no choice open. -/
theorem fixed_not_chooses {tag : String} {o : ValidatedOutbound} (there : catalog[tag]? = some o) (fixed : o.kind ≠ .selector ∧ o.kind ≠ .urltest) :
    ¬ Chooses (referenceGraph ext catalog) tag := by
  intro chooses
  cases chooses with
  | choice choice =>
    obtain ⟨o',there',kind⟩ := choice
    rw [there] at there'
    cases there'
    exact fixed.2 kind
  | selected selects _ =>
    obtain ⟨o',_,there',kind,_⟩ := selects
    rw [there] at there'
    cases there'
    exact fixed.1 kind

theorem HasShape.urltest_iff {tag : String} {s : OutboundActionShape} (has : HasShape ext catalog tag s) :
    s = .urltest ↔ Chooses (referenceGraph ext catalog) tag := by
  induction has with
  | @selector tag s o d there kind parsed selected ih =>
    rw [ih]
    constructor
    · exact .selected ⟨o,d,there,kind,parsed,rfl⟩
    · intro chooses
      cases chooses with
      | choice choice =>
        obtain ⟨o',there',kind'⟩ := choice
        rw [there] at there'
        cases there'
        rw [kind] at kind'
        cases kind'
      | selected selects chooses =>
        obtain ⟨o',d',there',_,parsed',same⟩ := selects
        rw [there] at there'
        cases there'
        rw [parsed] at parsed'
        cases parsed'
        exact same ▸ chooses
  | @urltest tag o d there kind parsed members ih => exact ⟨fun _ => .choice ⟨o,there,kind⟩,fun _ => rfl⟩
  | @leaf tag o there fixed first => exact ⟨(by intro impossible; cases impossible),fun chooses => (fixed_not_chooses there fixed chooses).elim⟩
  | @detour tag detour o there fixed behind plain ih =>
    exact ⟨(by intro impossible; cases impossible),fun chooses => (fixed_not_chooses there fixed chooses).elim⟩

/-! ### What is well-formed passes -/

variable (ext catalog) in
/-- What a visit has recorded: the outbounds on the stack, and depths that some walk has. -/
structure Recorded (states : VisitStates) (stack : List String) : Prop where
  visiting : ∀ tag : String, states[tag]? = some .visiting → tag ∈ stack
  complete : ∀ (tag : String) (d : Nat), states[tag]? = some (.complete d) → Walk (referenceGraph ext catalog) tag d

theorem Recorded.enter {states : VisitStates} {stack : List String} {tag : String} (recorded : Recorded ext catalog states stack) :
    Recorded ext catalog (states.insert tag .visiting) (tag :: stack) := by
  refine ⟨?_,?_⟩
  · intro other there
    rw [lookup_insert] at there
    split at there
    · next same => exact same ▸ List.mem_cons_self
    · exact List.mem_cons_of_mem _ (recorded.visiting other there)
  · intro other d there
    rw [lookup_insert] at there
    split at there
    · cases there
    · exact recorded.complete other d there

theorem Recorded.leave {states : VisitStates} {stack : List String} {tag : String} {d : Nat} (recorded : Recorded ext catalog states (tag :: stack))
    (walk : Walk (referenceGraph ext catalog) tag d) : Recorded ext catalog (states.insert tag (.complete d)) stack := by
  refine ⟨?_,?_⟩
  · intro other there
    rw [lookup_insert] at there
    split at there
    · cases there
    · next different =>
      rcases List.mem_cons.mp (recorded.visiting other there) with same | below
      · exact absurd same.symm different
      · exact below
  · intro other d' there
    rw [lookup_insert] at there
    split at there
    · next same =>
      cases there
      exact same ▸ walk
    · exact recorded.complete other d' there

variable (ext catalog) in
/-- A visit from this stack succeeds. -/
def Succeeds (visit : VisitStates → String → Except String (Nat × VisitStates)) (stack : List String) (tag : String) : Prop :=
  ∀ states, Recorded ext catalog states stack → ∃ d states', visit states tag = .ok (d,states') ∧ Recorded ext catalog states' stack ∧
    Walk (referenceGraph ext catalog) tag d

theorem visitEach_succeeds {visit : VisitStates → String → Except String (Nat × VisitStates)} {stack : List String} {tag : String}
    {o : ValidatedOutbound} {references : List String} (known : ∀ target ∈ references, target ∈ catalog)
    (refers : ∀ target ∈ references, Refers ext catalog tag target) (succeeds : ∀ target ∈ references, Succeeds ext catalog visit stack target)
    {deepest : Nat} (reached : Walk (referenceGraph ext catalog) tag (deepest + 1)) {states : VisitStates}
    (recorded : Recorded ext catalog states stack) : ∃ deepest' states', visitEach ext catalog visit o deepest states references = .ok (deepest',states') ∧
      Recorded ext catalog states' stack ∧ Walk (referenceGraph ext catalog) tag (deepest' + 1) := by
  induction references generalizing deepest states with
  | nil => exact ⟨deepest,states,rfl,recorded,reached⟩
  | cons target rest ih =>
    obtain ⟨d,mid,visited,recorded_mid,walk⟩ := succeeds target List.mem_cons_self states recorded
    have deeper : Walk (referenceGraph ext catalog) tag (max deepest d + 1) := by
      rcases Nat.le_total deepest d with less | more
      · rw [Nat.max_eq_right less]
        exact .step (refers target List.mem_cons_self) walk
      · rwa [Nat.max_eq_left more]
    have present := known target List.mem_cons_self
    rw [visitEach,if_neg (by rwa [Option.isNone_iff_eq_none,← Option.not_isSome_iff_eq_none,not_not,← Std.ExtTreeMap.mem_iff_isSome_getElem?]),visited]
    exact ih (fun other later => known other (List.mem_cons_of_mem _ later)) (fun other later => refers other (List.mem_cons_of_mem _ later))
      (fun other later => succeeds other (List.mem_cons_of_mem _ later)) deeper recorded_mid

/-- The induction is on the room that is left on the stack, which a short enough graph never
    uses up. -/
theorem visit_succeeds (readable : Readable ext catalog) (formed : WellFormed (referenceGraph ext catalog) MAX_OUTBOUND_REFERENCE_DEPTH)
    {room : Nat} {stack : List String} {tag : String} (all : room + stack.length = MAX_OUTBOUND_REFERENCE_DEPTH)
    (chain : (tag :: stack).IsChain (fun a b => Refers ext catalog b a)) (known : tag ∈ catalog) :
    Succeeds ext catalog (visit ext catalog room stack) stack tag := by
  induction room generalizing stack tag with
  | zero =>
    have less := formed.stack_lt chain
    omega
  | succ room ih =>
    intro states recorded
    rw [visit]
    unfold visitFrom
    split
    · next d there => exact ⟨d,states,rfl,recorded,recorded.complete tag d there⟩
    · next there => exact absurd (recorded.visiting tag there) (formed.fresh chain)
    · obtain ⟨o,there⟩ := Option.isSome_iff_exists.mp (Std.ExtTreeMap.mem_iff_isSome_getElem?.mp known)
      obtain ⟨references,read⟩ := readable tag o there
      have refers : ∀ target ∈ references, Refers ext catalog tag target := fun target member => ⟨o,references,there,read,member⟩
      have present : ∀ target ∈ references, target ∈ catalog := fun target member => formed.closed tag target (refers target member)
      have deeper : ∀ target ∈ references, Succeeds ext catalog (visit ext catalog room (tag :: stack)) (tag :: stack) target := by
        intro target member
        refine ih ?_ (List.isChain_cons_cons.mpr ⟨refers target member,chain⟩) (present target member)
        rw [List.length_cons]
        omega
      obtain ⟨deepest,mid,each,recorded_mid,walk⟩ := visitEach_succeeds (o := o) present refers deeper (.one tag) recorded.enter
      have within := formed.walk_le walk
      refine ⟨deepest + 1,mid.insert tag (.complete (deepest + 1)),?_,recorded_mid.leave walk,walk⟩
      rw [there]
      dsimp only
      rw [read,ok_bind,each,ok_bind]
      dsimp only
      rw [if_neg (by omega)]
      rfl

theorem validateReferences_succeeds (readable : Readable ext catalog)
    (formed : WellFormed (referenceGraph ext catalog) MAX_OUTBOUND_REFERENCE_DEPTH) {tags : List String} (known : ∀ tag ∈ tags, tag ∈ catalog)
    {states : VisitStates} (recorded : Recorded ext catalog states []) : ∃ states', validateReferences ext catalog states tags = .ok states' := by
  induction tags generalizing states with
  | nil => exact ⟨states,rfl⟩
  | cons tag rest ih =>
    obtain ⟨d,mid,visited,recorded_mid,_⟩ := visit_succeeds readable formed (Nat.add_zero _) (List.isChain_singleton tag)
      (known tag List.mem_cons_self) states recorded
    obtain ⟨states',others⟩ := ih (fun other later => known other (List.mem_cons_of_mem _ later)) recorded_mid
    refine ⟨states',?_⟩
    rw [validateReferences,visited]
    exact others

theorem membersPlain_succeeds {shape : Shapes → String → Except String (OutboundActionShape × Shapes)} (shapes : ShapesOf ext catalog shape)
    {members : List String} (fixed : ∀ member ∈ members, ¬ Chooses (referenceGraph ext catalog) member)
    (succeeds : ∀ member ∈ members, ∀ completed, Completed ext catalog completed → ∃ result, shape completed member = .ok result)
    {tag : String} {completed : Shapes} (complete : Completed ext catalog completed) :
    ∃ completed', membersPlain ext shape tag completed members = .ok completed' := by
  induction members generalizing completed with
  | nil => exact ⟨completed,rfl⟩
  | cons member rest ih =>
    obtain ⟨⟨s,mid⟩,shaped⟩ := succeeds member List.mem_cons_self completed complete
    obtain ⟨complete_mid,has⟩ := shapes completed member s mid shaped complete
    have plain : s ≠ .urltest := fun open_choice => fixed member List.mem_cons_self (has.urltest_iff.mp open_choice)
    obtain ⟨completed',others⟩ := ih (fun other later => fixed other (List.mem_cons_of_mem _ later))
      (fun other later => succeeds other (List.mem_cons_of_mem _ later)) complete_mid
    refine ⟨completed',?_⟩
    rw [membersPlain,shaped,ok_bind]
    dsimp only
    rw [if_neg plain]
    exact others

/-- The induction is on the depth, so that the room is enough. -/
theorem shape_succeeds (formed : WellFormed (referenceGraph ext catalog) MAX_OUTBOUND_REFERENCE_DEPTH) {tag : String} {d : Nat}
    (deep : HasDepth ext catalog tag d) : ∀ (room : Nat) (completed : Shapes), d ≤ room → Completed ext catalog completed →
      ∃ result, shape ext catalog room completed tag = .ok result := by
  induction deep with
  | @intro tag d o references depths there read positive less deep ih =>
    intro room completed enough complete
    obtain ⟨room,rfl⟩ := Nat.exists_eq_succ_of_ne_zero (show room ≠ 0 by omega)
    have refers : ∀ target ∈ references, Refers ext catalog tag target := fun target member => ⟨o,references,there,read,member⟩
    have below : ∀ target ∈ references, ∀ completed, Completed ext catalog completed → ∃ result, shape ext catalog room completed target = .ok result := by
      intro target member completed complete
      have shorter := less target member
      exact ih target member room completed (by omega) complete
    have fixed (embeds : o.kind ≠ .selector) : ∀ target ∈ references, ¬ Chooses (referenceGraph ext catalog) target :=
      fun target member => formed.plain tag target ⟨o,there,embeds,refers target member⟩
    suffices referred : ∃ result, referredShape ext (shape ext catalog room) completed o = .ok result by
      obtain ⟨result,referred⟩ := referred
      rw [shape]
      split
      · exact ⟨_,rfl⟩
      · refine ⟨(result.1,result.2.insert tag result.1),?_⟩
        rw [there]
        dsimp only
        rw [referred]
        rfl
    unfold outboundReferences at read
    unfold referredShape
    split at read
    · next kind =>
      obtain ⟨definition,parsed,members⟩ := bind_ok read
      cases members
      rw [parsed]
      exact below definition.selected (parseSelectorDefinition_selected parsed) completed complete
    · next kind =>
      obtain ⟨definition,parsed,members⟩ := bind_ok read
      cases members
      obtain ⟨completed',plain⟩ := @membersPlain_succeeds ext catalog _ (shape_shapes room) _
        (fixed (by rw [kind]; decide)) below o.tag _ complete
      rw [parsed]
      exact ⟨_,by rw [ok_bind,plain]; rfl⟩
    · next not_selector not_urltest =>
      cases read
      cases behind : effectiveDetour o with
      | none => exact ⟨_,rfl⟩
      | some detour =>
        have member : detour ∈ (effectiveDetour o).toList := by rw [behind]; exact List.mem_singleton_self _
        obtain ⟨⟨s,mid⟩,shaped⟩ := below detour member completed complete
        have has := (shape_shapes room completed detour s mid shaped complete).2
        have plain : s ≠ .urltest := fun open_choice => fixed not_selector detour member (has.urltest_iff.mp open_choice)
        refine ⟨(.plain,mid),?_⟩
        dsimp only
        rw [shaped,ok_bind]
        dsimp only
        rw [if_neg plain]
        rfl

theorem validateShapes_succeeds (formed : WellFormed (referenceGraph ext catalog) MAX_OUTBOUND_REFERENCE_DEPTH) {tags : List String}
    (deep : ∀ tag ∈ tags, ∃ d, d ≤ MAX_OUTBOUND_REFERENCE_DEPTH ∧ HasDepth ext catalog tag d) {completed : Shapes}
    (complete : Completed ext catalog completed) : ∃ completed', validateShapes ext catalog completed tags = .ok completed' := by
  induction tags generalizing completed with
  | nil => exact ⟨completed,rfl⟩
  | cons tag rest ih =>
    obtain ⟨d,within,deep_tag⟩ := deep tag List.mem_cons_self
    obtain ⟨⟨s,mid⟩,shaped⟩ := shape_succeeds formed deep_tag MAX_OUTBOUND_REFERENCE_DEPTH completed within complete
    obtain ⟨completed',others⟩ := ih (fun other later => deep other (List.mem_cons_of_mem _ later))
      (shape_shapes _ completed tag s mid shaped complete).1
    refine ⟨completed',?_⟩
    rw [validateShapes,shaped]
    exact others

/-! ### Verdicts -/

theorem Validates.wellFormed {tags : List String} (all : ∀ tag, tag ∈ tags ↔ tag ∈ catalog) (validates : Validates ext catalog tags) :
    WellFormed (referenceGraph ext catalog) MAX_OUTBOUND_REFERENCE_DEPTH := by
  obtain ⟨⟨states,references⟩,completed,shapes⟩ := validates
  have deep := validateReferences_depth references (fun tag d impossible => by simp at impossible)
  have shaped := validateShapes_shape shapes (fun tag d impossible => by simp at impossible)
  have source {tag target : String} (refers : Refers ext catalog tag target) : tag ∈ tags := by
    obtain ⟨o,_,there,_⟩ := refers
    exact (all tag).mpr (Std.ExtTreeMap.mem_iff_isSome_getElem?.mpr (by rw [there]; rfl))
  refine ⟨?_,?_,?_,?_⟩
  · intro tag target refers
    obtain ⟨d,_,has⟩ := deep tag (source refers)
    obtain ⟨d',has'⟩ := has.target refers
    exact has'.known
  · intro tag cycle
    obtain ⟨target,first,_⟩ := Relation.TransGen.head'_iff.mp cycle
    obtain ⟨d,_,has⟩ := deep tag (source first)
    exact acyclic_of_acc has.acc cycle
  · intro path chain
    cases path with
    | nil => exact Nat.zero_le _
    | cons tag rest =>
      cases rest with
      | nil => exact Nat.succ_le_of_lt (Nat.zero_lt_succ _)
      | cons target rest =>
        obtain ⟨d,within,has⟩ := deep tag (source (List.isChain_cons_cons.mp chain).1)
        exact Nat.le_trans (has.walk_le ⟨target :: rest,chain,rfl⟩) within
  · intro tag target embeds chooses
    obtain ⟨o,there,not_selector,refers⟩ := embeds
    obtain ⟨s,has⟩ := shaped tag (source refers)
    obtain ⟨o',references,there',read,member⟩ := refers
    rw [there] at there'
    cases there'
    unfold outboundReferences at read
    cases has with
    | @selector _ _ o' _ there' kind _ _ =>
      rw [there] at there'
      cases there'
      exact not_selector kind
    | @urltest _ o' d there' kind parsed members =>
      rw [there] at there'
      cases there'
      rw [kind] at read
      obtain ⟨d',parsed',listed⟩ := bind_ok read
      cases listed
      rw [parsed] at parsed'
      cases parsed'
      cases (members target member).urltest_iff.mpr chooses
    | @leaf _ o' there' fixed first =>
      rw [there] at there'
      cases there'
      split at read
      · next kind => exact fixed.1 kind
      · next kind => exact fixed.2 kind
      · cases read
        rw [first] at member
        exact List.not_mem_nil member
    | @detour _ detour o' there' fixed behind plain =>
      rw [there] at there'
      cases there'
      split at read
      · next kind => exact fixed.1 kind
      · next kind => exact fixed.2 kind
      · cases read
        rw [behind] at member
        cases List.mem_singleton.mp member
        cases plain.urltest_iff.mpr chooses

theorem validates_iff (readable : Readable ext catalog) {tags : List String} (all : ∀ tag, tag ∈ tags ↔ tag ∈ catalog) :
    Validates ext catalog tags ↔ WellFormed (referenceGraph ext catalog) MAX_OUTBOUND_REFERENCE_DEPTH := by
  refine ⟨Validates.wellFormed all,?_⟩
  intro formed
  have recorded : Recorded ext catalog ∅ [] := ⟨fun tag impossible => by simp at impossible,fun tag d impossible => by simp at impossible⟩
  obtain ⟨states,references⟩ := validateReferences_succeeds readable formed (fun tag member => (all tag).mp member) recorded
  have deep := validateReferences_depth references (fun tag d impossible => by simp at impossible)
  exact ⟨⟨states,references⟩,validateShapes_succeeds formed deep (fun tag d impossible => by simp at impossible)⟩

/-! ### The checks before -/

theorem requiredStringArray_nonempty {tag name : String} {fields : Fields} {members : List String}
    (read : requiredStringArray ext tag fields name = .ok members) : ∀ member ∈ members, member.isEmpty = false := by
  unfold requiredStringArray at read
  split at read
  · next values _ =>
    clear * - read
    induction values generalizing members with
    | nil =>
      cases read
      exact fun _ member => absurd member List.not_mem_nil
    | cons value rest ih =>
      rw [List.mapM_cons] at read
      obtain ⟨first,here,more⟩ := bind_ok read
      obtain ⟨members',others,finish⟩ := bind_ok more
      cases finish
      intro member among
      rcases List.mem_cons.mp among with rfl | later
      · split at here
        · split at here
          · cases here
          · next nonempty =>
            cases here
            simpa using nonempty
        · cases here
      · exact ih others member later
  · cases read

theorem mapM_zipIdx_strings {f : Value × Nat → Except String String} {members : List String}
    (reads : ∀ member ∈ members, ∀ i, f (.string member,i) = .ok member) (start : Nat) :
    ((members.map Value.string).zipIdx start).mapM f = .ok members := by
  induction members generalizing start with
  | nil => rfl
  | cons member rest ih =>
    rw [List.map_cons,List.zipIdx_cons,List.mapM_cons,ih (fun other later => reads other (List.mem_cons_of_mem _ later)),
      reads member List.mem_cons_self]
    rfl

theorem memberTags_reads {kind : OutboundKind} {o : ValidatedOutbound} {members : List String} (some_member : members ≠ [])
    (listed : Fields.get o.options "outbounds" = some (.array (members.map .string))) (nonempty : ∀ member ∈ members, member.isEmpty = false) :
    memberTags ext kind o = .ok members := by
  unfold memberTags
  rw [listed]
  split
  · next empty =>
    cases members with
    | nil => exact absurd rfl some_member
    | cons first rest => cases empty
  · next values _ there =>
    cases there
    refine mapM_zipIdx_strings ?_ 0
    intro member among i
    dsimp only
    rw [nonempty member among]
    rfl
  · next _ other => exact (other _ rfl).elim

/-- The adapter's reading of a selector is at least as strict as the compiler's. -/
theorem compileSelectorFields_parses {o : ValidatedOutbound} {s : Selection} (adapter : compileSelectorFields ext o.tag o.options = .ok s) :
    parseSelectorDefinition ext o = .ok s := by
  obtain ⟨_,_,adapter⟩ := bind_ok adapter
  obtain ⟨_,_,adapter⟩ := bind_ok adapter
  obtain ⟨members,listed,adapter⟩ := bind_ok adapter
  cases members with
  | nil => cases adapter
  | cons first rest =>
    have read : memberTags ext .selector o = .ok (first :: rest) :=
      memberTags_reads (List.cons_ne_nil _ _) (ClientChains.requiredStringArray_values listed) (requiredStringArray_nonempty listed)
    obtain ⟨default,chosen,adapter⟩ := bind_ok adapter
    obtain ⟨found,got,finish⟩ := bind_ok chosen
    cases finish
    unfold optionalString at got
    split at got
    · next missing =>
      cases got
      cases adapter
      rw [parseSelectorDefinition,read,ok_bind,missing]
      rfl
    · next null =>
      cases got
      cases adapter
      rw [parseSelectorDefinition,read,ok_bind,null]
      rfl
    · next text there =>
      cases got
      rw [parseSelectorDefinition,read,ok_bind,there]
      dsimp only
      by_cases empty : text.isEmpty
      · rw [Option.filter_some,empty] at adapter
        rw [if_pos empty]
        cases adapter
        rfl
      · rw [Option.filter_some,if_pos (by simpa using empty)] at adapter
        rw [if_neg empty]
        dsimp only at adapter
        split at adapter
        · next member =>
          cases adapter
          rw [if_pos member]
        · cases adapter
    · cases got

/-- The local checks read the references. -/
theorem readable_of_checked (checked : validateEach ext catalog (catalog.toList.map Prod.snd) = .ok ()) : Readable ext catalog := by
  intro tag o there
  have one : validateOne ext catalog o = .ok () := validateEach_each checked o (List.mem_map_of_mem ((mem_toList catalog).mpr there))
  unfold validateOne at one
  unfold outboundReferences
  split at one
  · next kind =>
    obtain ⟨d,parsed,_⟩ := bind_ok one
    rw [kind,parsed]
    exact ⟨d.members,rfl⟩
  · next not_urltest =>
    split at one
    · next client =>
      unfold validateClientOutbound at client
      split at client
      · cases client
      · split at client
        · next kind =>
          obtain ⟨s,compiled,_⟩ := bind_ok client
          rw [kind,compileSelectorFields_parses compiled]
          exact ⟨s.members,rfl⟩
        · next not_selector =>
          split
          · next kind => exact absurd kind not_selector
          · next kind => exact absurd kind not_urltest
          · exact ⟨_,rfl⟩
    · cases one

/-- The graph is accepted if and only if it is well-formed, in whatever order its outbounds
    are visited and under whatever names; no recursion is cut short. -/
theorem validates_exactly (readable : Readable ext catalog) :
    (Validates ext catalog catalog.keys ↔ WellFormed (referenceGraph ext catalog) MAX_OUTBOUND_REFERENCE_DEPTH) ∧
      (∀ tags, (∀ tag, tag ∈ tags ↔ tag ∈ catalog) → (Validates ext catalog tags ↔ Validates ext catalog catalog.keys)) ∧
      (∀ (ext' : Externals) (catalog' : Catalog) (f : String ≃ String), Readable ext' catalog' →
        Renames f (referenceGraph ext catalog) (referenceGraph ext' catalog') →
          (Validates ext' catalog' catalog'.keys ↔ Validates ext catalog catalog.keys)) ∧
      ((∃ states, validateReferences ext catalog ∅ catalog.keys = .ok states) → ∀ tag ∈ catalog, ∀ room ≥ MAX_OUTBOUND_REFERENCE_DEPTH,
        ∀ completed, shape ext catalog room completed tag = shape ext catalog MAX_OUTBOUND_REFERENCE_DEPTH completed tag) := by
  have keys {catalog : Catalog} (tag : String) : tag ∈ catalog.keys ↔ tag ∈ catalog := Std.ExtTreeMap.mem_keys
  refine ⟨validates_iff readable keys,?_,?_,?_⟩
  · intro tags all
    rw [validates_iff readable all,validates_iff readable keys]
  · intro ext' catalog' f readable' renames
    rw [validates_iff readable' keys,validates_iff readable keys,renames.wellFormed_iff]
  · rintro ⟨states,references⟩ tag known room enough completed
    obtain ⟨d,within,deep⟩ := validateReferences_depth references (fun tag d impossible => by simp at impossible) tag ((keys tag).mpr known)
    exact shape_room deep room MAX_OUTBOUND_REFERENCE_DEPTH completed (Nat.le_trans within enough) within

/-- A selector and the outbound that it stands for. -/
def selectedDirect : Catalog :=
  ((∅ : Catalog).insert "a" ⟨0,.direct,"a",[],[],none,none⟩).insert "s"
    ⟨1,.selector,"s",[("outbounds",.array [.string "a"])],[("outbounds",.array [.string "a"])],none,none⟩

def noTexts : Externals := ⟨id,fun _ => none,fun _ => "",fun _ => .error "",fun _ => "",fun _ => ""⟩

set_option maxRecDepth 4000 in
theorem validates_exactly_selected : WellFormed (referenceGraph noTexts selectedDirect) MAX_OUTBOUND_REFERENCE_DEPTH :=
  (@validates_exactly noTexts selectedDirect (readable_of_checked rfl)).1.mp ⟨⟨_,rfl⟩,_,rfl⟩

end NodeAgent.Outbounds
