import NodeAgent.NftBackend

/-!
What the backend may conclude from what it sees. A look that does not list a family hides
the tables in it, so the mode that the backend works in has to cover the tables it left
behind; a call that reports an empty plan as applied is right when every look that it
relies on could have shown them.
-/
namespace NodeAgent.NftCleanup
open NodeAgent.ForwardingPlans NodeAgent.NftRules NodeAgent.NftTables NodeAgent.NftBackend NodeAgent.Transition
open NodeAgent.Credential (Bytes except_bind_ok)

variable {netlink : Netlink} {sha256 : Bytes → Bytes} {tableName : String} {owner : Bytes}

/-! ### What a look tells -/

/-- What the inspection of a look at the kernel says about the managed tables. -/
structure Inspected (tableName : String) (kernel : Kernel) (seen : Family → Option Int) (current : InspectedState) : Prop where
  unavailable : current.raw.unavailable = seen
  tables : ∀ state, state ∈ current.tables ↔
    ∃ table ∈ kernel.tables, table.toTableState = state ∧ seen table.family = none ∧ table.name = tableName
  exists_ : current.exists_ = true ↔ current.tables ≠ []
  complete : current.complete = true → current.exists_ = true ∧ current.mode ≠ .unknown ∧ ∀ state ∈ current.tables, state.family ∈ current.mode.families
  absent : current.exists_ = false → current.mode = .unknown

theorem mem_managedTables {raw : KernelSnapshot} {families : List Family} {tables : List TableState}
    (done : managedTables tableName raw families = .ok tables) (state : TableState) :
    state ∈ tables ↔ state ∈ raw.tables ∧ state.family ∈ families ∧ state.name = tableName := by
  induction families generalizing tables with
  | nil =>
    cases done
    simp
  | cons family rest ih =>
    have here : ∀ matching, raw.tables.filter (fun table => table.family = family && table.name = tableName) = matching →
        (state ∈ matching ↔ state ∈ raw.tables ∧ state.family = family ∧ state.name = tableName) := by
      rintro matching rfl
      simp
    unfold managedTables at done
    split at done
    · next nothing =>
      have none_here := here [] nothing
      rw [ih done,List.mem_cons]
      simp only [List.not_mem_nil,false_iff] at none_here
      grind
    · next table one =>
      have one_here := here [table] one
      obtain ⟨later,rest_done,same⟩ := except_bind_ok done
      cases same
      rw [List.mem_cons,ih rest_done,List.mem_cons]
      rw [List.mem_singleton] at one_here
      grind
    · cases done

theorem familiesMode_complete {tables : List TableState} (complete : (familiesMode tables).2 = true) :
    (familiesMode tables).1 ≠ .unknown ∧ ∀ state ∈ tables, state.family ∈ (familiesMode tables).1.families := by
  have has : ∀ state ∈ tables, tables.any (fun table => table.family = state.family) = true := by
    intro state member
    rw [List.any_eq_true]
    exact ⟨state,member,by simp⟩
  unfold familiesMode at complete ⊢
  simp only at complete ⊢
  cases inet : tables.any (fun table => table.family = .inet) <;> cases ipv4 : tables.any (fun table => table.family = .ipv4) <;>
    cases ipv6 : tables.any (fun table => table.family = .ipv6) <;> simp only [inet,ipv4,ipv6] at complete ⊢
  all_goals try (exact absurd complete (by decide))
  all_goals
    refine ⟨by decide,?_⟩
    intro state member
    have shown := has state member
    cases family : state.family <;> simp [family,inet,ipv4,ipv6,FamilyMode.families] at shown ⊢

theorem inspected_of_ok {kernel : Kernel} {seen : Family → Option Int} {current : InspectedState}
    (done : inspect netlink sha256 tableName owner kernel seen = .ok current) : Inspected tableName kernel seen current := by
  obtain ⟨tables,found,rest⟩ := except_bind_ok done
  have members : ∀ state, state ∈ tables ↔
      ∃ table ∈ kernel.tables, table.toTableState = state ∧ seen table.family = none ∧ table.name = tableName := by
    intro state
    rw [mem_managedTables found]
    simp only [Kernel.snapshot,List.mem_map,List.mem_filter,Option.isNone_iff_eq_none]
    constructor
    · rintro ⟨⟨table,⟨held,shown⟩,rfl⟩,_,named⟩
      exact ⟨table,held,rfl,shown,named⟩
    · rintro ⟨table,held,rfl,shown,named⟩
      exact ⟨⟨table,⟨held,shown⟩,rfl⟩,by cases table.family <;> decide,named⟩
  by_cases none_found : tables.isEmpty = true
  · simp only [none_found,↓reduceIte] at rest
    cases rest
    rw [List.isEmpty_iff] at none_found
    exact ⟨rfl,members,by simp [none_found],fun complete => (by cases complete),fun _ => rfl⟩
  · simp only [none_found] at rest
    obtain ⟨inspected,_,same⟩ := except_bind_ok rest
    cases same
    refine ⟨rfl,members,?_,?_,?_⟩
    · simpa using none_found
    · intro complete
      have both := Bool.and_eq_true_iff.mp complete
      exact ⟨rfl,familiesMode_complete both.1⟩
    · intro absent
      cases absent

/-- A table with the managed name and one of our handles is in the kernel. -/
def Left (tableName : String) (ours : Nat → Prop) (kernel : Kernel) (family : Family) : Prop :=
  ∃ table ∈ kernel.tables, table.family = family ∧ table.name = tableName ∧ ours table.handle

variable {ours : Nat → Prop} {kernel kernel' : Kernel} {seen : Family → Option Int} {current : InspectedState} {desired : Plan}
  {digest : String} {mode : FamilyMode} {family : Family}

/-- A look that lists the family shows its table. -/
theorem Inspected.shown (inspected : Inspected tableName kernel seen current) (left : Left tableName ours kernel family)
    (listed : seen family = none) : ∃ state ∈ current.tables, state.family = family := by
  obtain ⟨table,held,rfl,named,_⟩ := left
  exact ⟨table.toTableState,(inspected.tables _).mpr ⟨table,held,rfl,listed,named⟩,rfl⟩

theorem Inspected.exists_of_left (inspected : Inspected tableName kernel seen current) (left : Left tableName ours kernel family)
    (listed : seen family = none) : current.exists_ = true := by
  obtain ⟨state,member,_⟩ := inspected.shown left listed
  exact inspected.exists_.mpr (List.ne_nil_of_mem member)

theorem Inspected.hidden (inspected : Inspected tableName kernel seen current) (nothing : current.exists_ = false)
    (left : Left tableName ours kernel family) : (seen family).isSome = true := by
  by_contra listed
  rw [Bool.not_eq_true,Option.isSome_eq_false_iff,Option.isNone_iff_eq_none] at listed
  rw [inspected.exists_of_left left listed] at nothing
  cases nothing

/-- The tables in a complete look are in the families of its mode. -/
theorem Inspected.covered (inspected : Inspected tableName kernel seen current) (complete : current.complete = true)
    (left : Left tableName ours kernel family) (listed : seen family = none) : family ∈ current.mode.families := by
  obtain ⟨state,member,rfl⟩ := inspected.shown left listed
  exact (inspected.complete complete).2.2 state member

/-! ### What a batch does -/

theorem mem_of_mapM {ε α β : Type} {f : α → Except ε β} {xs : List α} {ys : List β} (done : xs.mapM f = .ok ys) {y : β} (member : y ∈ ys) :
    ∃ x ∈ xs, f x = .ok y := by
  induction xs generalizing ys with
  | nil =>
    cases done
    cases member
  | cons x rest ih =>
    rw [List.mapM_cons] at done
    obtain ⟨first,first_done,more⟩ := except_bind_ok done
    obtain ⟨others,others_done,finish⟩ := except_bind_ok more
    cases finish
    rcases List.mem_cons.mp member with rfl | later
    · exact ⟨x,List.mem_cons_self,first_done⟩
    · obtain ⟨other,inside,other_done⟩ := ih others_done later
      exact ⟨other,List.mem_cons_of_mem _ inside,other_done⟩

/-- A batch deletes what was seen, and creates tables of the mode for a plan that is not empty. -/
theorem buildBatch_ok {batch : Batch} (done : buildBatch netlink tableName owner current desired digest mode = .ok batch) :
    batch.delete = current.tables.map (fun table => ⟨table.family,table.name,table.handle⟩) ∧
      ∀ create ∈ batch.create, desired.isEmpty = false ∧ create.family ∈ mode.families := by
  unfold buildBatch at done
  cases empty : desired.isEmpty with
  | true =>
    simp only [empty,↓reduceIte] at done
    cases done
    exact ⟨rfl,by simp⟩
  | false =>
    simp only [empty] at done
    by_cases modeless : mode.families.isEmpty = true
    · simp only [modeless,↓reduceIte] at done
      cases done
    · simp only [modeless] at done
      obtain ⟨tableMarker,_,rest⟩ := except_bind_ok done
      obtain ⟨chainMarker,_,rest⟩ := except_bind_ok rest
      obtain ⟨create,created,finish⟩ := except_bind_ok rest
      cases finish
      refine ⟨rfl,?_⟩
      intro table member
      obtain ⟨family,inside,made⟩ := mem_of_mapM created member
      obtain ⟨rules,_,same⟩ := except_bind_ok made
      cases same
      exact ⟨rfl,inside⟩

/-- What an empty plan deletes is there. -/
theorem accepts_of_empty {batch : Batch} (inspected : Inspected tableName kernel seen current)
    (built : buildBatch netlink tableName owner current desired digest mode = .ok batch) (empty : desired.isEmpty = true) :
    kernel.accepts batch = true := by
  obtain ⟨deletes,creates⟩ := buildBatch_ok built
  unfold Kernel.accepts
  rw [Bool.and_eq_true,List.all_eq_true,List.all_eq_true]
  constructor
  · intro delete member
    rw [deletes] at member
    obtain ⟨state,shown,rfl⟩ := List.mem_map.mp member
    obtain ⟨table,held,rfl,_⟩ := (inspected.tables state).mp shown
    rw [List.any_eq_true]
    exact ⟨table,held,by simp [DeleteTable.names]⟩
  · intro create member
    have filled := (creates create member).1
    rw [empty] at filled
    cases filled

/-- What stays in the kernel with the managed name was hidden. -/
theorem hidden_of_remaining {batch : Batch} (inspected : Inspected tableName kernel seen current)
    (built : buildBatch netlink tableName owner current desired digest mode = .ok batch) {table : KernelTable}
    (stays : table ∈ kernel.remaining batch) (named : table.name = tableName) : (seen table.family).isSome = true := by
  obtain ⟨held,kept⟩ := List.mem_filter.mp stays
  by_contra listed
  rw [Bool.not_eq_true,Option.isSome_eq_false_iff,Option.isNone_iff_eq_none] at listed
  have shown : table.toTableState ∈ current.tables := (inspected.tables _).mpr ⟨table,held,rfl,listed,named⟩
  have deleted : batch.delete.any (fun delete => DeleteTable.names delete table) = true := by
    rw [(buildBatch_ok built).1,List.any_map,List.any_eq_true]
    exact ⟨table.toTableState,shown,by simp [DeleteTable.names]⟩
  rw [deleted] at kept
  cases kept

variable (ours) in
/-- After a batch the kernel is as before, or what is left was hidden or has been created. -/
theorem left_execute {batch : Batch} (inspected : Inspected tableName kernel seen current)
    (built : buildBatch netlink tableName owner current desired digest mode = .ok batch) {execution : Execution} {result : Except IoError Unit}
    (executed : kernel.execute batch execution = (result,kernel')) :
    (kernel' = kernel ∧ (∃ error, result = .error error) ∧ (desired.isEmpty = true → execution.applies = false)) ∨
    (execution.applies = true ∧ ∀ family, Left tableName ours kernel' family →
      (Left tableName ours kernel family ∧ (seen family).isSome = true) ∨ (desired.isEmpty = false ∧ family ∈ mode.families)) := by
  unfold Kernel.execute at executed
  by_cases committed : (execution.applies && kernel.accepts batch) = true
  · obtain ⟨applies,_⟩ := Bool.and_eq_true_iff.mp committed
    rw [if_pos committed] at executed
    right
    refine ⟨applies,?_⟩
    rintro family ⟨table,held,rfl,named,mine⟩
    have after : kernel' = kernel.commit batch := (congrArg Prod.snd executed).symm
    rw [after] at held
    rcases List.mem_append.mp held with stays | created
    · left
      exact ⟨⟨table,(List.mem_filter.mp stays).1,rfl,named,mine⟩,hidden_of_remaining inspected built stays named⟩
    · right
      obtain ⟨⟨create,index⟩,listed,rfl⟩ := List.mem_map.mp created
      exact (buildBatch_ok built).2 create (List.fst_mem_of_mem_zipIdx listed)
  · rw [if_neg committed] at executed
    cases executed
    left
    refine ⟨rfl,⟨_,rfl⟩,?_⟩
    intro empty
    rw [accepts_of_empty inspected built empty,Bool.and_true,Bool.not_eq_true] at committed
    exact committed

/-! ### A submitted batch -/

/-- The recorded mode covers what is left. -/
def Tracks (tableName : String) (ours : Nat → Prop) (w : World) : Prop :=
  w.mode ≠ .unknown → ∀ family, Left tableName ours w.kernel family → family ∈ w.mode.families

theorem settle_mode_empty (w : World) (empty : desired.isEmpty = true) : (w.settle desired mode).mode = w.mode := by
  simp [World.settle,empty]

theorem settle_mode (w : World) (filled : desired.isEmpty = false) : (w.settle desired mode).mode = mode := by
  simp [World.settle,filled]

theorem shows_iff {verification : Except BackendError InspectedState} {test : InspectedState → Bool} :
    shows verification test = true ↔ ∃ fresh, verification = .ok fresh ∧ test fresh = true := by
  cases verification with
  | error error => simp [shows]
  | ok fresh => simp [shows]

/-- A look at the kernel after a batch, where it came through. -/
theorem inspectFresh_ok {check : Look} {fresh : InspectedState} (done : inspectFresh netlink sha256 tableName owner kernel check = .ok fresh) :
    ∃ later, check.seen = .ok later ∧ Inspected tableName kernel later fresh := by
  unfold inspectFresh at done
  cases opened : check.opened with
  | error error => simp [opened] at done
  | ok connection =>
    cases listed : check.seen with
    | error error => simp [opened,listed] at done
    | ok later =>
      simp only [opened,listed] at done
      exact ⟨later,rfl,inspected_of_ok done⟩

/-- Where a look matches the mode, what is left is in its families or hidden. -/
theorem Inspected.left_of_matches {ruleCount : Nat} (inspected : Inspected tableName kernel seen current)
    (same : current.matches mode digest ruleCount = true) (left : Left tableName ours kernel family) :
    (seen family).isSome = true ∨ family ∈ mode.families := by
  by_cases listed : seen family = none
  · right
    have there := inspected.exists_of_left left listed
    unfold InspectedState.matches at same
    by_cases nothing : ruleCount = 0
    · simp [nothing,there] at same
    · simp only [nothing,↓reduceIte,Bool.and_eq_true,decide_eq_true_eq] at same
      rw [← same.1.1.2]
      exact inspected.covered same.1.1.1.2 left listed
  · left
    rw [Option.isSome_iff_ne_none]
    exact listed

/-- A submitted batch of a plan that is not empty leaves the recorded mode true, if the looks
    before and after it hid nothing outside the mode it is for. -/
theorem applyState_filled {w : World} (inspected : Inspected tableName w.kernel seen current) (filled : desired.isEmpty = false)
    (tracks : Tracks tableName ours w) (same : w.mode ≠ .unknown → mode = w.mode) {execution : Execution} {check : Look}
    (before : ∀ family, Left tableName ours w.kernel family → (seen family).isSome = true → family ∈ mode.families)
    (after : ∀ later, check.seen = .ok later → ∀ family, Left tableName ours w.kernel family → (later family).isSome = true → family ∈ mode.families)
    {result : Except ApplyStateError Unit} {w' : World}
    (done : applyState netlink sha256 tableName owner w current desired digest mode execution check = (result,w')) :
    Tracks tableName ours w' ∧
    (∀ family, Left tableName ours w'.kernel family → Left tableName ours w.kernel family ∨ (execution.applies = true ∧ family ∈ mode.families)) ∧
    ∀ m source, result = .error (.unsupported m source) → w'.mode = w.mode ∧
      ∃ later, check.seen = .ok later ∧ ∀ family, Left tableName ours w'.kernel family → (later family).isSome = true := by
  unfold applyState at done
  cases built : buildBatch netlink tableName owner current desired digest mode with
  | error error =>
    simp only [built] at done
    cases done
    exact ⟨tracks,fun _ left => .inl left,fun _ _ impossible => (by cases impossible)⟩
  | ok batch =>
    rcases executed : w.kernel.execute batch execution with ⟨answer,kernel'⟩
    simp only [built,executed] at done
    have outcome := left_execute ours inspected built executed
    have grows : ∀ family, Left tableName ours kernel' family → Left tableName ours w.kernel family ∨ (execution.applies = true ∧ family ∈ mode.families) := by
      intro family left
      rcases outcome with ⟨rfl,_⟩ | ⟨applies,change⟩
      · exact .inl left
      · rcases change family left with ⟨old,_⟩ | ⟨_,created⟩
        · exact .inl old
        · exact .inr ⟨applies,created⟩
    have committed_covers : kernel' = w.kernel ∨ ∀ family, Left tableName ours kernel' family → family ∈ mode.families := by
      rcases outcome with ⟨unchanged,_⟩ | ⟨_,change⟩
      · exact .inl unchanged
      · right
        intro family left
        rcases change family left with ⟨old,hidden⟩ | ⟨_,created⟩
        · exact before family old hidden
        · exact created
    have still : w.mode ≠ .unknown → ∀ family, Left tableName ours kernel' family → family ∈ w.mode.families := by
      intro known family left
      rcases grows family left with old | ⟨_,created⟩
      · exact tracks known family old
      · rw [← same known]
        exact created
    cases answer with
    | ok acknowledged =>
      cases done
      refine ⟨?_,grows,fun _ _ impossible => (by cases impossible)⟩
      rcases outcome with ⟨_,⟨error,refused⟩,_⟩ | ⟨_,change⟩
      · cases refused
      · intro _ family left
        rw [settle_mode _ filled]
        rcases change family left with ⟨old,hidden⟩ | ⟨_,created⟩
        · exact before family old hidden
        · exact created
    | error submitError =>
      simp only at done
      by_cases matched : shows (inspectFresh netlink sha256 tableName owner kernel' check) (fun fresh => fresh.matches mode digest desired.ruleCount) = true
      · rw [if_pos matched] at done
        cases done
        refine ⟨?_,grows,fun _ _ impossible => (by cases impossible)⟩
        obtain ⟨fresh,looked,agrees⟩ := shows_iff.mp matched
        obtain ⟨later,listed,fresh_inspected⟩ := inspectFresh_ok looked
        intro _ family left
        rw [settle_mode _ filled]
        rcases committed_covers with rfl | covers
        · rcases fresh_inspected.left_of_matches agrees left with hidden | covered
          · exact after later listed family left hidden
          · exact covered
        · exact covers family left
      · rw [if_neg matched] at done
        by_cases unsupported : (!current.exists_ && isCapabilityErrno submitError &&
            shows (inspectFresh netlink sha256 tableName owner kernel' check) (fun fresh => !fresh.exists_)) = true
        · rw [if_pos unsupported] at done
          cases done
          refine ⟨still,grows,?_⟩
          intro _ _ _
          refine ⟨rfl,?_⟩
          obtain ⟨fresh,looked,nothing⟩ := shows_iff.mp (Bool.and_eq_true_iff.mp unsupported).2
          obtain ⟨later,listed,fresh_inspected⟩ := inspectFresh_ok looked
          exact ⟨later,listed,fun family left => fresh_inspected.hidden (by simpa using nothing) left⟩
        · rw [if_neg unsupported] at done
          cases done
          exact ⟨still,grows,fun _ _ impossible => (by cases impossible)⟩

variable (ours) in
/-- A submitted batch of an empty plan leaves nothing where the call succeeds, if it hid nothing
    before and the look after a refusal could show something. -/
theorem applyState_empty {w : World} (inspected : Inspected tableName w.kernel seen current) (empty : desired.isEmpty = true)
    {execution : Execution} {check : Look} {result : Except ApplyStateError Unit} {w' : World}
    (done : applyState netlink sha256 tableName owner w current desired digest mode execution check = (result,w')) :
    w'.mode = w.mode ∧ (∀ family, Left tableName ours w'.kernel family → Left tableName ours w.kernel family) ∧
    (result = .ok () → ∀ family, Left tableName ours w'.kernel family →
      (seen family).isSome = true ∨ (execution.applies = false ∧ ∃ later, check.seen = .ok later ∧ ∀ table ∈ w.kernel.tables, table.name = tableName → (later table.family).isSome = true)) := by
  unfold applyState at done
  cases built : buildBatch netlink tableName owner current desired digest mode with
  | error error =>
    simp only [built] at done
    cases done
    exact ⟨rfl,fun _ left => left,fun impossible => (by cases impossible)⟩
  | ok batch =>
    rcases executed : w.kernel.execute batch execution with ⟨answer,kernel'⟩
    simp only [built,executed] at done
    have outcome := left_execute ours inspected built executed
    have shrinks : ∀ family, Left tableName ours kernel' family → Left tableName ours w.kernel family := by
      intro family left
      rcases outcome with ⟨rfl,_⟩ | ⟨_,change⟩
      · exact left
      · rcases change family left with ⟨old,_⟩ | ⟨filled,_⟩
        · exact old
        · rw [empty] at filled
          cases filled
    have committed_hid : (kernel' = w.kernel ∧ execution.applies = false) ∨ ∀ family, Left tableName ours kernel' family → (seen family).isSome = true := by
      rcases outcome with ⟨unchanged,_,refused⟩ | ⟨_,change⟩
      · exact .inl ⟨unchanged,refused empty⟩
      · right
        intro family left
        rcases change family left with ⟨_,hidden⟩ | ⟨filled,_⟩
        · exact hidden
        · rw [empty] at filled
          cases filled
    cases answer with
    | ok acknowledged =>
      cases done
      refine ⟨settle_mode_empty _ empty,shrinks,?_⟩
      intro _ family left
      rcases outcome with ⟨_,⟨error,refused⟩,_⟩ | ⟨_,change⟩
      · cases refused
      · rcases change family left with ⟨_,hidden⟩ | ⟨filled,_⟩
        · exact .inl hidden
        · rw [empty] at filled
          cases filled
    | error submitError =>
      simp only at done
      by_cases matched : shows (inspectFresh netlink sha256 tableName owner kernel' check) (fun fresh => fresh.matches mode digest desired.ruleCount) = true
      · rw [if_pos matched] at done
        cases done
        refine ⟨settle_mode_empty _ empty,shrinks,?_⟩
        intro _ family left
        rcases committed_hid with ⟨rfl,refused⟩ | hidden
        · obtain ⟨fresh,looked,agrees⟩ := shows_iff.mp matched
          obtain ⟨later,listed,fresh_inspected⟩ := inspectFresh_ok looked
          rw [ruleCount_of_isEmpty empty] at agrees
          have nothing : fresh.exists_ = false := by simpa [InspectedState.matches] using agrees
          refine .inr ⟨refused,later,listed,?_⟩
          intro table held named
          have any : Left tableName (fun _ => True) w.kernel table.family := ⟨table,held,rfl,named,trivial⟩
          exact fresh_inspected.hidden nothing any
        · exact .inl (hidden family left)
      · rw [if_neg matched] at done
        split at done
        · cases done
          exact ⟨rfl,shrinks,fun impossible => (by cases impossible)⟩
        · cases done
          exact ⟨rfl,shrinks,fun impossible => (by cases impossible)⟩

/-! ### The second attempt -/

theorem retrySplit_tracks {w : World} (tracks : Tracks tableName ours w) (unknown : w.mode = .unknown) {inetError : IoError} {answers : Answers}
    (nothing : ∀ unavailable, answers.retry.seen = .ok unavailable → ∀ family, Left tableName ours w.kernel family →
      family = .inet ∧ unavailable .inet = none)
    (filled : desired.isEmpty = false) {result : Except BackendError Unit} {w' : World}
    (done : retrySplit netlink sha256 tableName owner w desired digest inetError answers = (result,w')) : Tracks tableName ours w' := by
  unfold retrySplit at done
  cases opened : answers.retry.opened with
  | error error =>
    simp only [opened] at done
    cases done
    exact tracks
  | ok connection =>
    cases listed : answers.retry.seen with
    | error error =>
      simp only [opened,listed] at done
      cases done
      exact tracks
    | ok unavailable =>
      have left_inet := nothing unavailable listed
      cases looked : inspect netlink sha256 tableName owner w.kernel unavailable with
      | error error =>
        simp only [opened,listed,looked] at done
        cases done
        exact tracks
      | ok current =>
        have inspected := inspected_of_ok looked
        simp only [opened,listed,looked] at done
        by_cases there : current.matches .inet digest desired.ruleCount = true
        · rw [if_pos there] at done
          cases done
          intro _ family left
          rw [(left_inet family left).1]
          exact List.mem_singleton_self _
        · rw [if_neg there] at done
          by_cases changed : current.exists_ = true
          · rw [if_pos changed] at done
            cases done
            exact tracks
          · rw [if_neg changed] at done
            rw [Bool.not_eq_true] at changed
            -- What is left would have been shown, so nothing is.
            have none_left : ∀ family, ¬ Left tableName ours w.kernel family := by
              intro family left
              obtain ⟨rfl,shown⟩ := left_inet family left
              have hidden := inspected.hidden changed left
              rw [shown] at hidden
              cases hidden
            cases conflict : rejectExternalConflicts netlink current.raw tableName desired with
            | error error =>
              simp only [conflict] at done
              cases done
              exact tracks
            | ok harmless =>
              simp only [conflict] at done
              rcases submitted : applyState netlink sha256 tableName owner w current desired digest .split answers.recommit answers.recheck with ⟨answer,w''⟩
              have kept := (applyState_filled inspected filled tracks (fun known => absurd unknown known)
                (fun family left => absurd left (none_left family)) (fun _ _ family left => absurd left (none_left family)) submitted).1
              rw [submitted] at done
              rcases answer with (_ | _ | _) | _ <;> (cases done; exact kept)

/-! ### A call -/

theorem selectMode_known {known : FamilyMode} (noted : current.complete = true → known = current.mode) (recorded : known ≠ .unknown) :
    selectMode known current = known := by
  unfold selectMode
  by_cases complete : current.complete = true
  · rw [if_pos complete,noted complete]
  · rw [if_neg complete,if_pos recorded]

/-- Where nothing is seen and no mode is recorded, a table for both protocols is tried only if
    its family was listed. -/
theorem listed_of_selectMode_inet (inspected : Inspected tableName kernel seen current) (nothing : current.exists_ = false)
    (selected : selectMode .unknown current = .inet) : seen .inet = none := by
  have incomplete : ¬ current.complete = true := by
    intro complete
    rw [(inspected.complete complete).1] at nothing
    cases nothing
  unfold selectMode at selected
  rw [if_neg incomplete,if_neg (by simp),inspected.absent nothing,if_neg (by simp),nothing] at selected
  by_contra hidden
  have unavailable : current.familyUnavailable .inet = true := by
    rw [InspectedState.familyUnavailable,inspected.unavailable,Option.isSome_iff_ne_none]
    exact hidden
  simp [unavailable] at selected

theorem reconcile_filled {w : World} (inspected : Inspected tableName w.kernel seen current) (filled : desired.isEmpty = false)
    (tracks : Tracks tableName ours w) (noted : current.complete = true → w.mode = current.mode) {answers : Answers}
    (before : ∀ family, Left tableName ours w.kernel family → (seen family).isSome = true → family ∈ (selectMode w.mode current).families)
    (after : ∀ later, answers.check.seen = .ok later → ∀ family, Left tableName ours w.kernel family → (later family).isSome = true →
      family ∈ (selectMode w.mode current).families)
    (fallback : ∀ later unavailable, answers.check.seen = .ok later → answers.retry.seen = .ok unavailable → answers.commit.applies = true →
      (later .inet).isSome = true → unavailable .inet = none)
    {result : Except BackendError Unit} {w' : World}
    (done : reconcile netlink sha256 tableName owner w current desired answers = (result,w')) : Tracks tableName ours w' := by
  unfold reconcile at done
  simp only at done
  by_cases there : current.matches (selectMode w.mode current) (desired.digest sha256) desired.ruleCount = true
  · rw [if_pos there] at done
    cases done
    exact tracks
  · rw [if_neg there,if_neg (by simp [filled])] at done
    rcases submitted : applyState netlink sha256 tableName owner w current desired (desired.digest sha256) (selectMode w.mode current) answers.commit
      answers.check with ⟨answer,w''⟩
    obtain ⟨kept,grows,rejected⟩ := applyState_filled inspected filled tracks (selectMode_known noted) before after submitted
    rw [submitted] at done
    rcases answer with (error | ⟨mode,source⟩ | error) | acknowledged
    · cases done
      exact kept
    · by_cases can : (!current.exists_ && w.mode = .unknown && selectMode w.mode current = .inet) = true
      · simp only [if_pos can] at done
        simp only [Bool.and_eq_true,Bool.not_eq_true',decide_eq_true_eq] at can
        obtain ⟨⟨nothing,unknown⟩,selected⟩ := can
        obtain ⟨same_mode,later,checked,all_hidden⟩ := rejected mode source rfl
        refine retrySplit_tracks kept (same_mode.trans unknown) ?_ filled done
        intro unavailable listed family left
        rcases grows family left with old | ⟨applies,created⟩
        · -- What was left before was hidden by the first look, which listed the family selected.
          have hidden := inspected.hidden nothing old
          have inside := before family old hidden
          rw [selected] at inside
          rw [unknown] at selected
          rw [List.mem_singleton.mp inside,listed_of_selectMode_inet inspected nothing selected] at hidden
          cases hidden
        · rw [selected] at created
          have inet := List.mem_singleton.mp created
          have hidden := all_hidden family left
          rw [inet] at hidden
          exact ⟨inet,fallback later unavailable checked listed applies hidden⟩
      · simp only [if_neg can] at done
        cases done
        exact kept
    · cases done
      exact kept
    · cases done
      exact kept

variable (ours) in
theorem reconcile_empty {w : World} (inspected : Inspected tableName w.kernel seen current) (empty : desired.isEmpty = true) {answers : Answers}
    {result : Except BackendError Unit} {w' : World}
    (done : reconcile netlink sha256 tableName owner w current desired answers = (result,w')) :
    w'.mode = w.mode ∧ (∀ family, Left tableName ours w'.kernel family → Left tableName ours w.kernel family) ∧
    (result = .ok () → ∀ family, Left tableName ours w'.kernel family → (seen family).isSome = true ∨
      (answers.commit.applies = false ∧
        ∃ later, answers.check.seen = .ok later ∧ ∀ table ∈ w.kernel.tables, table.name = tableName → (later table.family).isSome = true)) := by
  unfold reconcile at done
  simp only at done
  by_cases nothing : current.exists_ = false
  · have unchanged : w'.mode = w.mode ∧ w'.kernel = w.kernel := by
      split at done
      · cases done
        exact ⟨rfl,rfl⟩
      · rw [if_pos (by simp [empty,nothing])] at done
        cases done
        exact ⟨rfl,rfl⟩
    rw [unchanged.2]
    exact ⟨unchanged.1,fun _ left => left,fun _ family left => .inl (inspected.hidden nothing left)⟩
  · have there : ¬ current.matches (selectMode w.mode current) (desired.digest sha256) desired.ruleCount = true := by
      rw [ruleCount_of_isEmpty empty]
      simpa [InspectedState.matches] using nothing
    rw [if_neg there,if_neg (by simpa [empty] using nothing)] at done
    rcases submitted : applyState netlink sha256 tableName owner w current desired (desired.digest sha256) (selectMode w.mode current) answers.commit
      answers.check with ⟨answer,w''⟩
    obtain ⟨same_mode,shrinks,cleaned⟩ := applyState_empty ours inspected empty submitted
    rw [submitted] at done
    rcases answer with (error | ⟨mode,source⟩ | error) | acknowledged
    · cases done
      exact ⟨same_mode,shrinks,fun impossible => (by cases impossible)⟩
    · rw [Bool.not_eq_false] at nothing
      simp only [nothing,Bool.not_true,Bool.false_and,Bool.false_eq_true,↓reduceIte] at done
      cases done
      exact ⟨same_mode,shrinks,fun impossible => (by cases impossible)⟩
    · cases done
      exact ⟨same_mode,shrinks,fun impossible => (by cases impossible)⟩
    · cases done
      exact ⟨same_mode,shrinks,fun _ => cleaned rfl⟩

/-! ### Handles -/

/-- Every table has a handle that was given out. -/
def Handed (kernel : Kernel) : Prop := ∀ table ∈ kernel.tables, table.handle < kernel.nextHandle

/-- Handles are given out in order. -/
structure Evolves (kernel kernel' : Kernel) : Prop where
  next : kernel.nextHandle ≤ kernel'.nextHandle
  handed : Handed kernel → Handed kernel'

theorem Evolves.refl (kernel : Kernel) : Evolves kernel kernel := ⟨Nat.le_refl _,id⟩

theorem Evolves.trans {kernel'' : Kernel} (first : Evolves kernel kernel') (second : Evolves kernel' kernel'') : Evolves kernel kernel'' :=
  ⟨Nat.le_trans first.next second.next,fun handed => second.handed (first.handed handed)⟩

theorem evolves_commit (batch : Batch) : Evolves kernel (kernel.commit batch) := by
  constructor
  · exact Nat.le_add_right _ _
  · intro handed table member
    rcases List.mem_append.mp member with stays | created
    · have old := handed table (List.mem_filter.mp stays).1
      show table.handle < kernel.nextHandle + batch.create.length
      omega
    · obtain ⟨⟨create,index⟩,listed,rfl⟩ := List.mem_map.mp created
      have small : index < batch.create.length := List.snd_lt_of_mem_zipIdx listed
      show kernel.nextHandle + index < kernel.nextHandle + batch.create.length
      omega

theorem evolves_execute (batch : Batch) (execution : Execution) : Evolves kernel (kernel.execute batch execution).2 := by
  unfold Kernel.execute
  split
  · exact evolves_commit batch
  · exact Evolves.refl kernel

theorem evolves_applyState (w : World) (execution : Execution) (check : Look) :
    Evolves w.kernel (applyState netlink sha256 tableName owner w current desired digest mode execution check).2.kernel := by
  unfold applyState
  cases buildBatch netlink tableName owner current desired digest mode with
  | error error => exact Evolves.refl _
  | ok batch =>
    have evolves := @evolves_execute w.kernel batch execution
    rcases executed : w.kernel.execute batch execution with ⟨answer,kernel'⟩
    rw [executed] at evolves
    simp only [executed]
    cases answer with
    | ok acknowledged => exact evolves
    | error submitError =>
      simp only
      split
      · exact evolves
      · split
        · exact evolves
        · exact evolves

theorem evolves_retrySplit (w : World) (inetError : IoError) (answers : Answers) :
    Evolves w.kernel (retrySplit netlink sha256 tableName owner w desired digest inetError answers).2.kernel := by
  unfold retrySplit
  cases answers.retry.opened with
  | error error => exact Evolves.refl _
  | ok connection =>
    cases answers.retry.seen with
    | error error => exact Evolves.refl _
    | ok unavailable =>
      cases looked : inspect netlink sha256 tableName owner w.kernel unavailable with
      | error error => simp only [looked]; exact Evolves.refl _
      | ok current =>
        simp only [looked]
        split
        · exact Evolves.refl _
        · split
          · exact Evolves.refl _
          · cases rejectExternalConflicts netlink current.raw tableName desired with
            | error error => exact Evolves.refl _
            | ok harmless =>
              have evolves := @evolves_applyState netlink sha256 tableName owner current desired digest .split w answers.recommit answers.recheck
              rcases submitted : applyState netlink sha256 tableName owner w current desired digest .split answers.recommit answers.recheck with ⟨answer,w'⟩
              rw [submitted] at evolves
              rcases answer with (_ | _ | _) | _ <;> exact evolves

theorem evolves_reconcile (w : World) (answers : Answers) :
    Evolves w.kernel (reconcile netlink sha256 tableName owner w current desired answers).2.kernel := by
  unfold reconcile
  simp only
  split
  · exact Evolves.refl _
  · split
    · exact Evolves.refl _
    · have evolves := @evolves_applyState netlink sha256 tableName owner current desired (desired.digest sha256) (selectMode w.mode current) w
        answers.commit answers.check
      rcases submitted : applyState netlink sha256 tableName owner w current desired (desired.digest sha256) (selectMode w.mode current) answers.commit
        answers.check with ⟨answer,w'⟩
      rw [submitted] at evolves
      rcases answer with (error | ⟨mode,source⟩ | error) | acknowledged
      · exact evolves
      · simp only
        split
        · exact evolves.trans (evolves_retrySplit w' source answers)
        · exact evolves
      · exact evolves
      · exact evolves

theorem evolves_apply (w : World) (answers : Answers) : Evolves w.kernel (apply netlink sha256 tableName owner w desired answers).2.kernel := by
  unfold apply
  cases answers.first.opened with
  | error error =>
    simp only
    split
    · exact Evolves.refl _
    · split <;> exact Evolves.refl _
  | ok connection =>
    cases answers.first.seen with
    | error error =>
      simp only
      split <;> exact Evolves.refl _
    | ok unavailable =>
      cases looked : inspect netlink sha256 tableName owner w.kernel unavailable with
      | error error => simp only [looked]; exact Evolves.refl _
      | ok current =>
        simp only [looked]
        split
        · exact Evolves.refl _
        · split
          · exact Evolves.refl _
          · exact evolves_reconcile (w.note current) answers

/-! ### Every run -/

structure State where
  world : World
  /-- The handles of the tables that the backend has created. -/
  created : List Nat

def initial (kernel : Kernel) : State := ⟨⟨false,.unknown,kernel⟩,[]⟩

inductive Event
  | apply (desired : Plan) (answers : Answers)
  /-- Between two calls, others change the tables. -/
  | others (kernel : Kernel)

/-- A table is named by its family and name; its handle was given out before. -/
def Kernel.wellFormed (kernel : Kernel) : Bool :=
  decide (kernel.tables.map (fun table => (table.family,table.name))).Nodup && kernel.tables.all (fun table => table.handle < kernel.nextHandle)

/-- Others may delete and change tables, and create some with handles that are new. -/
def Kernel.mayBecome (kernel kernel' : Kernel) : Bool :=
  Kernel.wellFormed kernel' && kernel.nextHandle ≤ kernel'.nextHandle && kernel'.tables.all (fun table =>
    kernel.nextHandle ≤ table.handle ||
      kernel.tables.any (fun old => old.family = table.family && old.name = table.name && old.handle = table.handle))

variable (netlink : Netlink) (sha256 : Bytes → Bytes) (tableName : String) (owner : Bytes)

def step (s : State) : Event → Option State
  | .apply desired answers =>
    let w := (apply netlink sha256 tableName owner s.world desired answers).2
    some ⟨w,s.created ++ List.range' s.world.kernel.nextHandle (w.kernel.nextHandle - s.world.kernel.nextHandle)⟩
  | .others kernel =>
    if Kernel.mayBecome s.world.kernel kernel then some { s with world := { s.world with kernel := kernel } } else none

/-- The families in which a table that the backend created is left. -/
def State.left (s : State) : List Family :=
  Family.all.filter (fun family => s.world.kernel.tables.any (fun table =>
    table.family = family && table.name = tableName && s.created.contains table.handle))

def Look.lists (look : Look) (family : Family) : Bool :=
  match look.seen with
  | .ok unavailable => (unavailable family).isNone
  | .error _ => true

/-- The looks of a call hide nothing that its conclusions rely on. A plan that is not empty: what
    the look before or after the batch hides is in the mode that the call works in, and a table
    for both protocols that was created in spite of an error is shown before the fallback. An
    empty plan: what the first look hides is in the mode then recorded, where there is one, and
    the look after a batch that was not applied shows a managed table if one of ours is left. -/
def clear (s : State) : Event → Bool
  | .others _ => true
  | .apply desired answers =>
    match answers.first.opened,answers.first.seen with
    | .ok (),.ok seen =>
      match inspect netlink sha256 tableName owner s.world.kernel seen with
      | .error _ => true
      | .ok current =>
        let noted := (s.world.note current).mode
        if desired.isEmpty then
          (noted = .unknown || (s.left tableName).all (fun family => Look.lists answers.first family || family ∈ noted.families)) &&
            (answers.commit.applies || (s.left tableName).isEmpty ||
              s.world.kernel.tables.any (fun table => table.name = tableName && Look.lists answers.check table.family))
        else
          let mode := selectMode noted current
          (s.left tableName).all (fun family => (Look.lists answers.first family && Look.lists answers.check family) || family ∈ mode.families) &&
            (!answers.commit.applies || Look.lists answers.check .inet || Look.lists answers.retry .inet)
    | _,_ => true

variable {netlink sha256 tableName owner}

theorem mem_left {s : State} : family ∈ s.left tableName ↔ Left tableName (· ∈ s.created) s.world.kernel family := by
  simp only [State.left,List.mem_filter,List.any_eq_true,Bool.and_eq_true,decide_eq_true_eq,List.contains_iff_mem,Left,and_assoc]
  constructor
  · exact fun both => both.2
  · exact fun left => ⟨by cases family <;> decide,left⟩

/-- The recorded mode covers what is left of the tables that the backend created. -/
structure Sound (tableName : String) (s : State) : Prop where
  handed : Handed s.world.kernel
  created : ∀ handle ∈ s.created, handle < s.world.kernel.nextHandle
  tracks : Tracks tableName (· ∈ s.created) s.world

/-- What a call has created counts as ours from its start. -/
def oursFrom (s : State) (handle : Nat) : Prop := handle ∈ s.created ∨ s.world.kernel.nextHandle ≤ handle

theorem Sound.left_iff {s : State} (sound : Sound tableName s) :
    Left tableName (oursFrom s) s.world.kernel family ↔ Left tableName (· ∈ s.created) s.world.kernel family := by
  constructor
  · rintro ⟨table,held,here,named,mine | new⟩
    · exact ⟨table,held,here,named,mine⟩
    · exact absurd (sound.handed table held) (by omega)
  · rintro ⟨table,held,here,named,mine⟩
    exact ⟨table,held,here,named,.inl mine⟩

theorem note_mode (w : World) : (w.note current).mode = if current.complete then current.mode else w.mode := rfl

theorem note_tracks {w : World} (inspected : Inspected tableName w.kernel seen current) (tracks : Tracks tableName ours w)
    (covered : current.complete = true → ∀ family, Left tableName ours w.kernel family → (seen family).isSome = true → family ∈ current.mode.families) :
    Tracks tableName ours (w.note current) := by
  intro known family left
  rw [note_mode] at known ⊢
  by_cases complete : current.complete = true
  · rw [if_pos complete]
    by_cases listed : seen family = none
    · exact inspected.covered complete left listed
    · exact covered complete family left (Option.isSome_iff_ne_none.mpr listed)
  · rw [if_neg complete] at known ⊢
    exact tracks known family left

theorem lists_of_seen {look : Look} (listed : look.seen = .ok seen) : Look.lists look family = (seen family).isNone := by
  rw [Look.lists,listed]

/-- What a clear call with a plan that is not empty may rely on. -/
theorem clear_filled {s : State} (sound : Sound tableName s) {answers : Answers} {connection : Unit} (opened : answers.first.opened = .ok connection)
    (listed : answers.first.seen = .ok seen) (looked : inspect netlink sha256 tableName owner s.world.kernel seen = .ok current)
    (filled : desired.isEmpty = false) (clearly : clear netlink sha256 tableName owner s (.apply desired answers) = true) :
    (∀ family, Left tableName (oursFrom s) s.world.kernel family → (seen family).isSome = true →
      family ∈ (selectMode (s.world.note current).mode current).families) ∧
    (∀ later, answers.check.seen = .ok later → ∀ family, Left tableName (oursFrom s) s.world.kernel family → (later family).isSome = true →
      family ∈ (selectMode (s.world.note current).mode current).families) ∧
    ∀ later unavailable, answers.check.seen = .ok later → answers.retry.seen = .ok unavailable → answers.commit.applies = true →
      (later .inet).isSome = true → unavailable .inet = none := by
  simp only [clear,opened,listed,looked,filled,Bool.false_eq_true,↓reduceIte,Bool.and_eq_true,Bool.or_eq_true,List.all_eq_true,
    decide_eq_true_eq] at clearly
  obtain ⟨covers,fallback⟩ := clearly
  refine ⟨?_,?_,?_⟩
  · intro family left hidden
    rcases covers family (mem_left.mpr (sound.left_iff.mp left)) with ⟨shown,_⟩ | inside
    · rw [lists_of_seen listed] at shown
      simp [Option.isSome_iff_ne_none.mp hidden] at shown
    · exact inside
  · intro later checked family left hidden
    rcases covers family (mem_left.mpr (sound.left_iff.mp left)) with ⟨_,shown⟩ | inside
    · rw [lists_of_seen checked] at shown
      simp [Option.isSome_iff_ne_none.mp hidden] at shown
    · exact inside
  · intro later unavailable checked retried applies hidden
    rcases fallback with (refused | shown) | shown
    · simp [applies] at refused
    · rw [lists_of_seen checked] at shown
      simp [Option.isSome_iff_ne_none.mp hidden] at shown
    · rw [lists_of_seen retried] at shown
      simpa using shown

/-- What a clear call with an empty plan may rely on. -/
theorem clear_empty {s : State} (sound : Sound tableName s) {answers : Answers} {connection : Unit} (opened : answers.first.opened = .ok connection)
    (listed : answers.first.seen = .ok seen) (looked : inspect netlink sha256 tableName owner s.world.kernel seen = .ok current)
    (empty : desired.isEmpty = true) (clearly : clear netlink sha256 tableName owner s (.apply desired answers) = true) :
    ((s.world.note current).mode = .unknown ∨ ∀ family, Left tableName (oursFrom s) s.world.kernel family → (seen family).isSome = true →
      family ∈ (s.world.note current).mode.families) ∧
    ∀ later, answers.check.seen = .ok later → answers.commit.applies = false → (∃ family, Left tableName (oursFrom s) s.world.kernel family) →
      ∃ table ∈ s.world.kernel.tables, table.name = tableName ∧ later table.family = none := by
  simp only [clear,opened,listed,looked,empty,↓reduceIte,Bool.and_eq_true,Bool.or_eq_true,List.all_eq_true,List.any_eq_true,
    List.isEmpty_iff,decide_eq_true_eq] at clearly
  obtain ⟨covers,shows_one⟩ := clearly
  constructor
  · rcases covers with unknown | covers
    · exact .inl unknown
    · right
      intro family left hidden
      rcases covers family (mem_left.mpr (sound.left_iff.mp left)) with shown | inside
      · rw [lists_of_seen listed] at shown
        simp [Option.isSome_iff_ne_none.mp hidden] at shown
      · exact inside
  · rintro later checked refused ⟨family,left⟩
    rcases shows_one with (applies | nothing) | ⟨table,held,named,shown⟩
    · rw [refused] at applies
      cases applies
    · have member := mem_left.mpr (sound.left_iff.mp left)
      rw [nothing] at member
      cases member
    · rw [lists_of_seen checked] at shown
      exact ⟨table,held,named,by simpa using shown⟩

/-- A clear call keeps the recorded mode true. -/
theorem apply_tracks {s : State} (sound : Sound tableName s) {answers : Answers}
    (clearly : clear netlink sha256 tableName owner s (.apply desired answers) = true) :
    Tracks tableName (oursFrom s) (apply netlink sha256 tableName owner s.world desired answers).2 := by
  have tracks : Tracks tableName (oursFrom s) s.world := fun known family left => sound.tracks known family (sound.left_iff.mp left)
  unfold apply
  cases opened : answers.first.opened with
  | error error =>
    simp only
    split
    · exact tracks
    · split <;> exact tracks
  | ok connection =>
    cases listed : answers.first.seen with
    | error error =>
      simp only
      split <;> exact tracks
    | ok unavailable =>
      cases looked : inspect netlink sha256 tableName owner s.world.kernel unavailable with
      | error error => simp only [looked]; exact tracks
      | ok current =>
        have inspected := inspected_of_ok looked
        have noted : Tracks tableName (oursFrom s) (s.world.note current) := by
          apply note_tracks inspected tracks
          intro complete family left hidden
          have mode : (s.world.note current).mode = current.mode := by rw [note_mode,if_pos complete]
          cases empty : desired.isEmpty with
          | true =>
            rcases (clear_empty sound opened listed looked empty clearly).1 with unknown | covers
            · rw [mode] at unknown
              exact absurd unknown (inspected.complete complete).2.1
            · rw [← mode]
              exact covers family left hidden
          | false =>
            have inside := (clear_filled sound opened listed looked empty clearly).1 family left hidden
            rw [selectMode,if_pos complete] at inside
            exact inside
        simp only [looked]
        split
        · exact noted
        · split
          · exact noted
          · cases empty : desired.isEmpty with
            | true =>
              rcases done : reconcile netlink sha256 tableName owner (s.world.note current) current desired answers with ⟨result,w'⟩
              obtain ⟨same_mode,shrinks,_⟩ := reconcile_empty (oursFrom s) (w := s.world.note current) inspected empty done
              intro known family left
              rw [same_mode] at known ⊢
              exact noted known family (shrinks family left)
            | false =>
              obtain ⟨before,after,fallback⟩ := clear_filled sound opened listed looked empty clearly
              rcases done : reconcile netlink sha256 tableName owner (s.world.note current) current desired answers with ⟨result,w'⟩
              refine reconcile_filled (w := s.world.note current) inspected empty noted ?_ before after fallback done
              intro complete
              rw [note_mode,if_pos complete]

/-- The backend has managed tables before, or the first look of the call shows one. -/
def Responsible (netlink : Netlink) (sha256 : Bytes → Bytes) (tableName : String) (owner : Bytes) (w : World) (answers : Answers) : Prop :=
  w.managed = true ∨ ∃ seen current, answers.first.opened = .ok () ∧ answers.first.seen = .ok seen ∧
    inspect netlink sha256 tableName owner w.kernel seen = .ok current ∧ current.exists_ = true

/-- A clear call that reports an empty plan as applied leaves none of our tables. -/
theorem apply_cleans {s : State} (sound : Sound tableName s) {answers : Answers} (empty : desired.isEmpty = true)
    (clearly : clear netlink sha256 tableName owner s (.apply desired answers) = true) (responsible : Responsible netlink sha256 tableName owner s.world answers)
    (ok : (apply netlink sha256 tableName owner s.world desired answers).1 = .ok ()) :
    ¬ Left tableName (oursFrom s) (apply netlink sha256 tableName owner s.world desired answers).2.kernel family := by
  have tracks : Tracks tableName (oursFrom s) s.world := fun known family left => sound.tracks known family (sound.left_iff.mp left)
  unfold apply at ok ⊢
  cases opened : answers.first.opened with
  | error error =>
    rcases responsible with managed | ⟨_,_,opened',_⟩
    · simp only [opened,managed,Bool.not_true,Bool.and_false,Bool.false_and,Bool.false_eq_true,↓reduceIte] at ok
      split at ok <;> cases ok
    · rw [opened] at opened'
      cases opened'
  | ok connection =>
    cases listed : answers.first.seen with
    | error error =>
      rcases responsible with managed | ⟨_,_,_,listed',_⟩
      · simp only [opened,listed,managed,Bool.not_true,Bool.and_false,Bool.false_and,Bool.false_eq_true,↓reduceIte] at ok
        cases ok
      · rw [listed] at listed'
        cases listed'
    | ok unavailable =>
      cases looked : inspect netlink sha256 tableName owner s.world.kernel unavailable with
      | error error =>
        simp only [opened,listed,looked] at ok
        cases ok
      | ok current =>
        have inspected := inspected_of_ok looked
        have managed : (s.world.note current).managed = true := by
          show (s.world.managed || current.exists_) = true
          rcases responsible with managed | ⟨seen,current',_,listed',looked',there⟩
          · simp [managed]
          · rw [listed] at listed'
            cases listed'
            rw [looked] at looked'
            cases looked'
            simp [there]
        obtain ⟨covers,shows_one⟩ := clear_empty sound opened listed looked empty clearly
        simp only [opened,listed,looked] at ok ⊢
        by_cases hides : current.unavailableFor (s.world.note current).mode = true
        · rw [if_pos (by simp [empty,managed,hides])] at ok
          cases ok
        · rw [if_neg (by simp [hides])] at ok ⊢
          simp only [empty,↓reduceIte] at ok ⊢
          rcases done : reconcile netlink sha256 tableName owner (s.world.note current) current desired answers with ⟨result,w'⟩
          rw [done] at ok
          obtain ⟨_,shrinks,cleaned⟩ := reconcile_empty (oursFrom s) (w := s.world.note current) inspected empty done
          intro left
          have old := shrinks family left
          have unlisted : ∀ families, (if (s.world.note current).mode = .unknown then Family.all else (s.world.note current).mode.families) = families →
              family ∈ families → unavailable family = none := by
            rintro _ rfl inside
            rw [InspectedState.unavailableFor,Bool.not_eq_true,List.any_eq_false] at hides
            have shown := hides family inside
            rw [InspectedState.familyUnavailable,inspected.unavailable] at shown
            simpa using shown
          rcases cleaned ok family left with hidden | ⟨refused,later,checked,all_hidden⟩
          · have shown : unavailable family = none := by
              apply unlisted _ rfl
              by_cases unknown : (s.world.note current).mode = .unknown
              · rw [if_pos unknown]
                cases family <;> decide
              · rw [if_neg unknown]
                rcases covers with known | covers
                · exact absurd known unknown
                · exact covers family old hidden
            rw [shown] at hidden
            cases hidden
          · obtain ⟨table,held,named,shown⟩ := shows_one later checked refused ⟨family,old⟩
            have hidden := all_hidden table held named
            rw [shown] at hidden
            cases hidden

theorem sound_initial {kernel : Kernel} (wellFormed : Kernel.wellFormed kernel = true) : Sound tableName (initial kernel) := by
  rw [Kernel.wellFormed,Bool.and_eq_true,List.all_eq_true] at wellFormed
  constructor
  · intro table held
    exact of_decide_eq_true (wellFormed.2 table held)
  · intro handle member
    cases member
  · intro known
    exact absurd rfl known

/-- The tables that are ours after a call. -/
theorem left_after {s s' : State} {answers : Answers} (taken : step netlink sha256 tableName owner s (.apply desired answers) = some s')
    (left : Left tableName (· ∈ s'.created) s'.world.kernel family) :
    Left tableName (oursFrom s) (apply netlink sha256 tableName owner s.world desired answers).2.kernel family := by
  cases taken
  obtain ⟨table,held,here,named,mine⟩ := left
  refine ⟨table,held,here,named,?_⟩
  rcases List.mem_append.mp mine with old | new
  · exact .inl old
  · obtain ⟨k,_,handle⟩ := List.mem_range'.mp new
    right
    rw [handle]
    exact Nat.le_add_right _ _

theorem Sound.step {s s' : State} {e : Event} (sound : Sound tableName s) (clearly : clear netlink sha256 tableName owner s e = true)
    (taken : step netlink sha256 tableName owner s e = some s') : Sound tableName s' := by
  cases e with
  | apply desired answers =>
    have tracks := apply_tracks sound clearly
    have evolves := @evolves_apply netlink sha256 tableName owner desired s.world answers
    have mine : ∀ family, Left tableName (· ∈ s'.created) s'.world.kernel family →
        Left tableName (oursFrom s) (NftBackend.apply netlink sha256 tableName owner s.world desired answers).2.kernel family :=
      fun _ left => left_after taken left
    cases taken
    refine ⟨evolves.handed sound.handed,?_,fun known family left => tracks known family (mine family left)⟩
    intro handle member
    have next := evolves.next
    rcases List.mem_append.mp member with old | new
    · exact Nat.lt_of_lt_of_le (sound.created handle old) next
    · obtain ⟨k,small,rfl⟩ := List.mem_range'.mp new
      simp only
      omega
  | others kernel =>
    simp only [NftCleanup.step] at taken
    by_cases may : Kernel.mayBecome s.world.kernel kernel = true
    · rw [if_pos may] at taken
      cases taken
      simp only [Kernel.mayBecome,Kernel.wellFormed,Bool.and_eq_true,List.all_eq_true,decide_eq_true_eq] at may
      obtain ⟨⟨⟨_,handed⟩,next⟩,from_before⟩ := may
      refine ⟨handed,fun handle member => Nat.lt_of_lt_of_le (sound.created handle member) next,?_⟩
      rintro known family ⟨table,held,here,named,mine⟩
      apply sound.tracks known family
      have small := sound.created _ mine
      rcases Bool.or_eq_true_iff.mp (from_before table held) with fresh | before
      · simp only [decide_eq_true_eq] at fresh
        omega
      · rw [List.any_eq_true] at before
        obtain ⟨old,old_held,same⟩ := before
        simp only [Bool.and_eq_true,decide_eq_true_eq] at same
        obtain ⟨⟨same_family,same_name⟩,same_handle⟩ := same
        exact ⟨old,old_held,same_family.trans here,same_name.trans named,by rw [same_handle]; exact mine⟩
    · rw [if_neg may] at taken
      cases taken

/-- In every run of clear calls, others changing the tables between them: where the backend is
    responsible and the call with an empty plan returns `Ok`, no managed table that the backend
    created is left in the kernel. -/
theorem cleanup_has_proof {kernel : Kernel} (wellFormed : Kernel.wellFormed kernel = true) {events : List Event} {s s' : State}
    (run : Run (guarded (clear netlink sha256 tableName owner) (step netlink sha256 tableName owner)) (initial kernel) events s) {answers : Answers}
    (empty : desired.isEmpty = true) (clearly : clear netlink sha256 tableName owner s (.apply desired answers) = true)
    (responsible : Responsible netlink sha256 tableName owner s.world answers)
    (ok : (apply netlink sha256 tableName owner s.world desired answers).1 = .ok ())
    (taken : step netlink sha256 tableName owner s (.apply desired answers) = some s') :
    ∀ family, ¬ Left tableName (· ∈ s'.created) s'.world.kernel family := by
  have sound : Sound tableName s := run.invariant (sound_initial wellFormed) (fun s e s' before taken => by
    obtain ⟨clearly,moved⟩ := guarded_eq_some.mp taken
    exact before.step clearly moved)
  intro family left
  exact apply_cleans sound empty clearly responsible ok (left_after taken left)

/-! ### One table -/

/-- One range of ports of one node. -/
private def onePlan : Plan := ⟨[⟨"node-a",443,[⟨10000,10010⟩]⟩]⟩

/-- The hash of the one plan. -/
private def onePlanHash (bytes : Bytes) : Bytes :=
  if bytes = planBytes onePlan then
    [9,42,254,184,96,56,55,87,95,74,54,138,107,215,254,42,222,59,88,82,112,105,188,241,220,6,43,252,83,54,110,10]
  else List.replicate 32 0

private def machineOwner : Bytes := [247,167,38,109,248,180]

private def machineTable : String := "acp_hy2_f7a7266df8b4"

private def allListed : Look := ⟨.ok (),.ok (fun _ => none)⟩

private def fileExists : IoError := ⟨some 17,"File exists"⟩

private def applied : Execution := ⟨true,none,fileExists⟩

private def smooth : Answers := ⟨allListed,applied,allListed,allListed,applied,allListed⟩

/-- The batch is rejected, and the look after it does not list the family of the table. -/
private def rejectedUnseen : Answers :=
  ⟨allListed,⟨false,some ⟨some 22,"Invalid argument"⟩,fileExists⟩,
    ⟨.ok (),.ok (fun family => if family = .inet then some 95 else none)⟩,allListed,applied,allListed⟩

/-- The backend after the table for both protocols was created. -/
private def oneTable : State :=
  let w := (apply packetCore onePlanHash machineTable machineOwner (initial ⟨[],1⟩).world onePlan smooth).2
  ⟨w,List.range' 1 (w.kernel.nextHandle - 1)⟩

private theorem oneTable_step : step packetCore onePlanHash machineTable machineOwner (initial ⟨[],1⟩) (.apply onePlan smooth) = some oneTable := rfl

theorem cleanup_has_proof_one_table :
    ∃ s' : State, step packetCore onePlanHash machineTable machineOwner oneTable (.apply ⟨[]⟩ smooth) = some s' ∧
      ∀ family, ¬ Left machineTable (· ∈ s'.created) s'.world.kernel family := by
  have run : Run (guarded (clear packetCore onePlanHash machineTable machineOwner) (step packetCore onePlanHash machineTable machineOwner)) (initial ⟨[],1⟩)
      ([] ++ [.apply onePlan smooth]) oneTable := .snoc .nil (guarded_eq_some.mpr ⟨by decide +kernel,oneTable_step⟩)
  exact ⟨_,rfl,cleanup_has_proof (by decide) run (by decide) (by decide +kernel) (.inl (by decide +kernel)) (by decide +kernel) rfl⟩

/-- The kernel rejects the batch that deletes the table, the look after it does not list the
    table's family, and the call reports that the table is gone. -/
theorem hidden_table_reported_removed :
    ¬ ∀ (netlink : Netlink) (sha256 : Bytes → Bytes) (tableName : String) (owner : Bytes) (kernel : Kernel), Kernel.wellFormed kernel = true →
      ∀ (events : List Event) (s s' : State), Run (step netlink sha256 tableName owner) (initial kernel) events s →
        ∀ answers : Answers, Responsible netlink sha256 tableName owner s.world answers →
          (apply netlink sha256 tableName owner s.world ⟨[]⟩ answers).1 = .ok () →
          step netlink sha256 tableName owner s (.apply ⟨[]⟩ answers) = some s' →
            ∀ family, ¬ Left tableName (· ∈ s'.created) s'.world.kernel family := by
  intro clean
  have run : Run (step packetCore onePlanHash machineTable machineOwner) (initial ⟨[],1⟩) ([] ++ [.apply onePlan smooth]) oneTable :=
    .snoc .nil oneTable_step
  refine clean packetCore onePlanHash machineTable machineOwner ⟨[],1⟩ (by decide) _ oneTable _ run rejectedUnseen (.inl (by decide +kernel))
    (by decide +kernel) rfl .inet ?_
  rw [← mem_left]
  decide +kernel

end NodeAgent.NftCleanup
