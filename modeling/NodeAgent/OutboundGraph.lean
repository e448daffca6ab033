import NodeAgent.Outbounds
import Mathlib.Tactic.Choose

/-!
What an accepted catalog is like: tags and identities are unique, the options of every
outbound can be compiled, references lead to outbounds of less depth, and a chain that is
fixed leads only to chains that are fixed.
-/
namespace NodeAgent.Outbounds
open NodeAgent.Api NodeAgent.Json NodeAgent.FiniteMap NodeAgent.OutboundAdapter

variable {ext : Externals} {catalog : Catalog}

theorem bind_ok {α β : Type} {p : Except String α} {f : α → Except String β} {b : β} (done : (p >>= f) = .ok b) :
    ∃ a, p = .ok a ∧ f a = .ok b := by
  cases p with
  | error e => cases done
  | ok a => exact ⟨a,rfl,done⟩

theorem ok_bind {α β : Type} {a : α} {f : α → Except String β} : (Except.ok a >>= f) = f a := rfl

/-! ### Depths -/

variable (ext catalog) in
/-- The references of the outbound have less depth. -/
inductive HasDepth : String → Nat → Prop
  | intro {tag : String} {d : Nat} {o : ValidatedOutbound} {references : List String} (depths : String → Nat)
      (there : catalog[tag]? = some o) (refers : outboundReferences ext o = .ok references) (positive : 0 < d)
      (less : ∀ target ∈ references, depths target < d) (deep : ∀ target ∈ references, HasDepth target (depths target)) : HasDepth tag d

variable (ext catalog) in
def Visited (states : VisitStates) : Prop :=
  ∀ (tag : String) (d : Nat), states[tag]? = some (.complete d) → d ≤ MAX_OUTBOUND_REFERENCE_DEPTH ∧ HasDepth ext catalog tag d

variable (ext catalog) in
/-- A visit returns the depth of its outbound. -/
def Visits (visit : VisitStates → String → Except String (Nat × VisitStates)) : Prop :=
  ∀ states tag d states', visit states tag = .ok (d,states') → Visited ext catalog states →
    Visited ext catalog states' ∧ d ≤ MAX_OUTBOUND_REFERENCE_DEPTH ∧ HasDepth ext catalog tag d

theorem Visited.insert {states : VisitStates} {tag : String} {d : Nat} (visited : Visited ext catalog states)
    (within : d ≤ MAX_OUTBOUND_REFERENCE_DEPTH) (deep : HasDepth ext catalog tag d) : Visited ext catalog (states.insert tag (.complete d)) := by
  intro other d' there
  rw [lookup_insert] at there
  split at there
  · next same =>
    cases there
    exact ⟨within,same ▸ deep⟩
  · exact visited other d' there

theorem Visited.visiting {states : VisitStates} {tag : String} (visited : Visited ext catalog states) :
    Visited ext catalog (states.insert tag .visiting) := by
  intro other d there
  rw [lookup_insert] at there
  split at there
  · cases there
  · exact visited other d there

theorem visitEach_visits {visit : VisitStates → String → Except String (Nat × VisitStates)} (visits : Visits ext catalog visit)
    {outbound : ValidatedOutbound} {references : List String} {deepest deepest' : Nat} {states states' : VisitStates}
    (done : visitEach ext catalog visit outbound deepest states references = .ok (deepest',states')) (visited : Visited ext catalog states) :
    Visited ext catalog states' ∧ deepest ≤ deepest' ∧
      ∀ target ∈ references, ∃ d, d ≤ deepest' ∧ HasDepth ext catalog target d := by
  induction references generalizing deepest states with
  | nil =>
    cases done
    exact ⟨visited,Nat.le_refl _,fun _ member => absurd member List.not_mem_nil⟩
  | cons target rest ih =>
    rw [visitEach] at done
    split at done
    · cases done
    · obtain ⟨⟨d,mid⟩,visit_target,visit_rest⟩ := bind_ok done
      obtain ⟨visited_mid,_,deep⟩ := visits states target d mid visit_target visited
      obtain ⟨visited',more,others⟩ := ih visit_rest visited_mid
      refine ⟨visited',by omega,?_⟩
      intro other member
      rcases List.mem_cons.mp member with rfl | later
      · exact ⟨d,by omega,deep⟩
      · exact others other later

theorem visitFrom_visits {descend : Option Visitor} (visits : ∀ d, descend = some d → ∀ stack, Visits ext catalog (d stack)) (stack : List String) :
    Visits ext catalog (visitFrom ext catalog descend stack) := by
  intro states tag d states' done visited
  unfold visitFrom at done
  split at done
  · next known =>
    cases done
    exact ⟨visited,visited tag d known⟩
  · cases done
  · cases descend with
    | none => cases done
    | some descend =>
      cases there : catalog[tag]? with
      | none => rw [there] at done; cases done
      | some o =>
        rw [there] at done
        obtain ⟨references,refers,rest⟩ := bind_ok done
        obtain ⟨⟨deepest,mid⟩,each,rest⟩ := bind_ok rest
        obtain ⟨visited_mid,_,deep⟩ := visitEach_visits (visits descend rfl (tag :: stack)) each visited.visiting
        dsimp only at rest
        split at rest
        · cases rest
        · next within =>
          cases rest
          classical
          have has : HasDepth ext catalog tag (deepest + 1) := by
            choose! depths bounds holds using deep
            exact .intro depths there refers (Nat.succ_pos _) (fun target member => Nat.lt_succ_of_le (bounds target member)) holds
          exact ⟨visited_mid.insert (by omega) has,by omega,has⟩

theorem visit_visits (room : Nat) (stack : List String) : Visits ext catalog (visit ext catalog room stack) := by
  induction room generalizing stack with
  | zero => exact visitFrom_visits (fun _ impossible => by cases impossible) stack
  | succ room ih =>
    refine visitFrom_visits ?_ stack
    rintro d ⟨⟩
    exact ih

theorem validateReferences_depth {tags : List String} {states states' : VisitStates} (done : validateReferences ext catalog states tags = .ok states')
    (visited : Visited ext catalog states) : ∀ tag ∈ tags, ∃ d, d ≤ MAX_OUTBOUND_REFERENCE_DEPTH ∧ HasDepth ext catalog tag d := by
  induction tags generalizing states with
  | nil => exact fun _ member => absurd member List.not_mem_nil
  | cons tag rest ih =>
    obtain ⟨⟨d,mid⟩,first,others⟩ := bind_ok done
    obtain ⟨visited_mid,within,deep⟩ := visit_visits _ _ states tag d mid first visited
    intro other member
    rcases List.mem_cons.mp member with rfl | later
    · exact ⟨d,within,deep⟩
    · exact ih others visited_mid other later

/-! ### Shapes -/

variable (ext catalog) in
/-- Whether the choice of a chain is left to the run time. -/
inductive HasShape : String → OutboundActionShape → Prop
  | selector {tag : String} {s : OutboundActionShape} {o : ValidatedOutbound} {d : Selection} (there : catalog[tag]? = some o)
      (kind : o.kind = .selector) (parsed : parseSelectorDefinition ext o = .ok d) (selected : HasShape d.selected s) : HasShape tag s
  | urltest {tag : String} {o : ValidatedOutbound} {d : UrltestDefinition} (there : catalog[tag]? = some o)
      (kind : o.kind = .urltest) (parsed : parseUrltestDefinition ext o = .ok d) (members : ∀ member ∈ d.members, HasShape member .plain) :
      HasShape tag .urltest
  | leaf {tag : String} {o : ValidatedOutbound} (there : catalog[tag]? = some o) (fixed : o.kind ≠ .selector ∧ o.kind ≠ .urltest)
      (first : effectiveDetour o = none) : HasShape tag .plain
  | detour {tag detour : String} {o : ValidatedOutbound} (there : catalog[tag]? = some o) (fixed : o.kind ≠ .selector ∧ o.kind ≠ .urltest)
      (behind : effectiveDetour o = some detour) (plain : HasShape detour .plain) : HasShape tag .plain

variable (ext catalog) in
def Completed (completed : Shapes) : Prop := ∀ (tag : String) (s : OutboundActionShape), completed[tag]? = some s → HasShape ext catalog tag s

theorem Completed.insert {completed : Shapes} {tag : String} {s : OutboundActionShape} (complete : Completed ext catalog completed)
    (has : HasShape ext catalog tag s) : Completed ext catalog (completed.insert tag s) := by
  intro other s' there
  rw [lookup_insert] at there
  split at there
  · next same =>
    cases there
    exact same ▸ has
  · exact complete other s' there

variable (ext catalog) in
def ShapesOf (shape : Shapes → String → Except String (OutboundActionShape × Shapes)) : Prop :=
  ∀ completed tag s completed', shape completed tag = .ok (s,completed') → Completed ext catalog completed →
    Completed ext catalog completed' ∧ HasShape ext catalog tag s

theorem membersPlain_shapes {shape : Shapes → String → Except String (OutboundActionShape × Shapes)} (shapes : ShapesOf ext catalog shape)
    {tag : String} {members : List String} {completed completed' : Shapes} (done : membersPlain ext shape tag completed members = .ok completed')
    (complete : Completed ext catalog completed) : Completed ext catalog completed' ∧ ∀ member ∈ members, HasShape ext catalog member .plain := by
  induction members generalizing completed with
  | nil =>
    cases done
    exact ⟨complete,fun _ member => absurd member List.not_mem_nil⟩
  | cons first rest ih =>
    obtain ⟨⟨s,mid⟩,shaped,others⟩ := bind_ok done
    obtain ⟨complete_mid,has⟩ := shapes completed first s mid shaped complete
    dsimp only at others
    split at others
    · cases others
    · next plain =>
      obtain ⟨complete',all⟩ := ih others complete_mid
      refine ⟨complete',?_⟩
      intro member among
      rcases List.mem_cons.mp among with rfl | later
      · cases s with
        | plain => exact has
        | urltest => exact absurd rfl plain
      · exact all member later

theorem shape_shapes (room : Nat) : ShapesOf ext catalog (shape ext catalog room) := by
  induction room with
  | zero =>
    intro completed tag s completed' done
    cases done
  | succ room ih =>
    intro completed tag s completed' done complete
    rw [shape] at done
    split at done
    · next known =>
      cases done
      exact ⟨complete,complete tag s known⟩
    · split at done
      · cases done
      · next o there =>
        obtain ⟨⟨result,mid⟩,computed,rest⟩ := bind_ok done
        cases rest
        suffices both : Completed ext catalog mid ∧ HasShape ext catalog tag s from ⟨both.1.insert both.2,both.2⟩
        unfold referredShape at computed
        split at computed
        · next kind =>
          obtain ⟨d,parsed,follow⟩ := bind_ok computed
          obtain ⟨complete_mid,selected⟩ := ih completed d.selected s mid follow complete
          exact ⟨complete_mid,.selector there kind parsed selected⟩
        · next kind =>
          obtain ⟨d,parsed,follow⟩ := bind_ok computed
          obtain ⟨mid',members,finish⟩ := bind_ok follow
          cases finish
          obtain ⟨complete_mid,plain⟩ := membersPlain_shapes ih members complete
          exact ⟨complete_mid,.urltest there kind parsed plain⟩
        · next not_selector not_urltest =>
          have fixed : o.kind ≠ .selector ∧ o.kind ≠ .urltest := ⟨not_selector,not_urltest⟩
          split at computed
          · next first =>
            cases computed
            exact ⟨complete,.leaf there fixed first⟩
          · next detour behind =>
            obtain ⟨⟨detourShape,mid'⟩,shaped,finish⟩ := bind_ok computed
            obtain ⟨complete_mid,has⟩ := ih completed detour detourShape mid' shaped complete
            dsimp only at finish
            split at finish
            · cases finish
            · next plain =>
              cases finish
              cases detourShape with
              | plain => exact ⟨complete_mid,.detour there fixed behind has⟩
              | urltest => exact absurd rfl plain

theorem validateShapes_shape {tags : List String} {completed completed' : Shapes} (done : validateShapes ext catalog completed tags = .ok completed')
    (complete : Completed ext catalog completed) : ∀ tag ∈ tags, ∃ s, HasShape ext catalog tag s := by
  induction tags generalizing completed with
  | nil => exact fun _ member => absurd member List.not_mem_nil
  | cons tag rest ih =>
    obtain ⟨⟨s,mid⟩,first,others⟩ := bind_ok done
    obtain ⟨complete_mid,has⟩ := shape_shapes _ completed tag s mid first complete
    intro other member
    rcases List.mem_cons.mp member with rfl | later
    · exact ⟨s,has⟩
    · exact ih others complete_mid other later

/-! ### Members -/

theorem mapM_length {α β : Type} {f : α → Except String β} {xs : List α} {ys : List β} (done : xs.mapM f = .ok ys) : ys.length = xs.length := by
  induction xs generalizing ys with
  | nil =>
    cases done
    rfl
  | cons x rest ih =>
    rw [List.mapM_cons] at done
    obtain ⟨y,_,more⟩ := bind_ok done
    obtain ⟨ys',others,finish⟩ := bind_ok more
    cases finish
    rw [List.length_cons,List.length_cons,ih others]

theorem memberTags_ne_nil {kind : OutboundKind} {o : ValidatedOutbound} {members : List String} (done : memberTags ext kind o = .ok members) :
    members ≠ [] := by
  unfold memberTags at done
  split at done
  · cases done
  · next values nonempty _ =>
    have length := mapM_length done
    rintro rfl
    rw [List.length_zipIdx] at length
    exact nonempty (List.length_eq_zero_iff.mp length.symm)
  · cases done

theorem headD_mem {members : List String} (nonempty : members ≠ []) : members.headD "" ∈ members := by
  cases members with
  | nil => exact absurd rfl nonempty
  | cons first rest => exact List.mem_cons_self

/-- The selected member is one of the members. -/
theorem parseSelectorDefinition_selected {o : ValidatedOutbound} {d : Selection} (done : parseSelectorDefinition ext o = .ok d) :
    d.selected ∈ d.members := by
  obtain ⟨members,listed,rest⟩ := bind_ok done
  have first := headD_mem (memberTags_ne_nil listed)
  split at rest
  · cases rest
    exact first
  · cases rest
    exact first
  · split at rest
    · cases rest
      exact first
    · split at rest
      · next member =>
        cases rest
        exact member
      · cases rest
  · cases rest

theorem membersPlain_congr {first second : Shapes → String → Except String (OutboundActionShape × Shapes)} {tag : String} {members : List String}
    (same : ∀ member ∈ members, ∀ completed, first completed member = second completed member) (completed : Shapes) :
    membersPlain ext first tag completed members = membersPlain ext second tag completed members := by
  induction members generalizing completed with
  | nil => rfl
  | cons member rest ih =>
    rw [membersPlain,membersPlain,same member List.mem_cons_self]
    congr 1
    funext result
    dsimp only
    split
    · rfl
    · exact ih (fun other later => same other (List.mem_cons_of_mem _ later)) result.2

/-- The recursion over shapes never runs out of room. -/
theorem shape_room {tag : String} {d : Nat} (deep : HasDepth ext catalog tag d) : ∀ (room room' : Nat) (completed : Shapes),
    d ≤ room → d ≤ room' → shape ext catalog room completed tag = shape ext catalog room' completed tag := by
  induction deep with
  | @intro tag d o references depths there refers positive less deep ih =>
    intro room room' completed enough enough'
    obtain ⟨room,rfl⟩ := Nat.exists_eq_succ_of_ne_zero (show room ≠ 0 by omega)
    obtain ⟨room',rfl⟩ := Nat.exists_eq_succ_of_ne_zero (show room' ≠ 0 by omega)
    have same (target : String) (member : target ∈ references) (completed : Shapes) :
        shape ext catalog room completed target = shape ext catalog room' completed target := by
      have shorter := less target member
      exact ih target member room room' completed (by omega) (by omega)
    have referred : referredShape ext (shape ext catalog room) completed o = referredShape ext (shape ext catalog room') completed o := by
      unfold referredShape
      unfold outboundReferences at refers
      split
      · next kind =>
        rw [kind] at refers
        obtain ⟨definition,parsed,members⟩ := bind_ok refers
        cases members
        rw [parsed]
        exact same _ (parseSelectorDefinition_selected parsed) completed
      · next kind =>
        rw [kind] at refers
        obtain ⟨definition,parsed,members⟩ := bind_ok refers
        cases members
        rw [parsed]
        exact congrArg (· >>= fun completed => pure (OutboundActionShape.urltest,completed)) (membersPlain_congr same completed)
      · next not_selector not_urltest =>
        have detours : references = (effectiveDetour o).toList := by
          split at refers
          · next kind => exact absurd kind not_selector
          · next kind => exact absurd kind not_urltest
          · cases refers
            rfl
        cases behind : effectiveDetour o with
        | none => rfl
        | some detour =>
          dsimp only
          rw [same detour (by rw [detours,behind]; exact List.mem_singleton_self _) completed]
    rw [shape,shape]
    split
    · rfl
    · rw [there]
      exact congrArg (· >>= fun result => pure (result.1,result.2.insert tag result.1)) referred

/-! ### The catalog -/

theorem validateOutbound_id {id : Nat} {outbound : Outbound} {o : ValidatedOutbound} (done : validateOutbound ext id outbound = .ok o) : o.id = id := by
  unfold validateOutbound at done
  split at done
  · cases done
  · split at done
    · cases done
    · split at done
      · cases done
      · obtain ⟨fields,_,rest⟩ := bind_ok done
        split at rest
        · cases rest
        · obtain ⟨_,_,rest⟩ := bind_ok rest
          obtain ⟨_,_,rest⟩ := bind_ok rest
          cases rest
          rfl

/-- Tags and identities name one outbound each. -/
structure Indexed (catalog : Catalog) : Prop where
  tags : ∀ (tag : String) (o : ValidatedOutbound), catalog[tag]? = some o → o.tag = tag
  ids : ∀ (tag tag' : String) (o o' : ValidatedOutbound), catalog[tag]? = some o → catalog[tag']? = some o' → o.id = o'.id → o = o'

theorem addOutbounds_indexed {values : List Outbound} {catalog catalog' : Catalog} {id : Nat} (done : addOutbounds ext catalog id values = .ok catalog')
    (indexed : Indexed catalog) (below : ∀ (tag : String) (o : ValidatedOutbound), catalog[tag]? = some o → o.id < id) : Indexed catalog' := by
  induction values generalizing catalog id with
  | nil =>
    cases done
    exact indexed
  | cons outbound rest ih =>
    obtain ⟨validated,checked,more⟩ := bind_ok done
    have fresh := validateOutbound_id checked
    split at more
    · cases more
    · have lookup (tag : String) (o : ValidatedOutbound) (there : (catalog.insert validated.tag validated)[tag]? = some o) :
          (tag = validated.tag ∧ o = validated) ∨ catalog[tag]? = some o := by
        rw [lookup_insert] at there
        split at there
        · next same =>
          cases there
          exact .inl ⟨same.symm,rfl⟩
        · exact .inr there
      refine ih more ⟨?_,?_⟩ ?_
      · intro tag o there
        rcases lookup tag o there with ⟨rfl,rfl⟩ | earlier
        · rfl
        · exact indexed.tags tag o earlier
      · intro tag tag' o o' there there' same
        rcases lookup tag o there with ⟨rfl,rfl⟩ | earlier
        · rcases lookup tag' o' there' with ⟨rfl,rfl⟩ | earlier'
          · rfl
          · have less := below tag' o' earlier'
            omega
        · rcases lookup tag' o' there' with ⟨rfl,rfl⟩ | earlier'
          · have less := below tag o earlier
            omega
          · exact indexed.ids tag tag' o o' earlier earlier' same
      · intro tag o there
        rcases lookup tag o there with ⟨rfl,rfl⟩ | earlier
        · omega
        · have less := below tag o earlier
          omega

theorem validateOutbounds_indexed {values : List Outbound} {catalog : Catalog} (done : validateOutbounds ext values = .ok catalog) : Indexed catalog := by
  unfold validateOutbounds at done
  split at done
  · cases done
    refine ⟨?_,?_⟩
    · intro tag o there
      rw [lookup_insert] at there
      split at there
      · next same =>
        cases there
        exact same
      · simp at there
    · intro tag tag' o o' there there' _
      rw [lookup_insert] at there there'
      split at there
      · split at there'
        · cases there
          cases there'
          rfl
        · simp at there'
      · simp at there
  · refine addOutbounds_indexed done ⟨?_,?_⟩ ?_
    · intro tag o there
      simp at there
    · intro tag tag' o o' there
      simp at there
    · intro tag o there
      simp at there

theorem validateEach_each {outbounds : List ValidatedOutbound} (done : validateEach ext catalog outbounds = .ok ()) :
    ∀ o ∈ outbounds, validateOne ext catalog o = .ok () := by
  induction outbounds with
  | nil => exact fun _ member => absurd member List.not_mem_nil
  | cons o rest ih =>
    obtain ⟨_,first,others⟩ := bind_ok done
    intro other member
    rcases List.mem_cons.mp member with rfl | later
    · exact first
    · exact ih others other later

/-- What the checks establish of a catalog. -/
structure Accepted (ext : Externals) (catalog : Catalog) : Prop where
  indexed : Indexed catalog
  urltests : ∀ (tag : String) (o : ValidatedOutbound), catalog[tag]? = some o → o.kind = .urltest → ∃ d, parseUrltestDefinition ext o = .ok d
  clients : ∀ (tag : String) (o : ValidatedOutbound), catalog[tag]? = some o → o.kind ≠ .urltest → validateClientOutbound ext catalog o = .ok ()
  deep : ∀ (tag : String) (o : ValidatedOutbound), catalog[tag]? = some o → ∃ d, d ≤ MAX_OUTBOUND_REFERENCE_DEPTH ∧ HasDepth ext catalog tag d
  shaped : ∀ (tag : String) (o : ValidatedOutbound), catalog[tag]? = some o → ∃ s, HasShape ext catalog tag s

theorem accepted {values : List Outbound} (built : validateOutbounds ext values = .ok catalog) (checked : validateOutboundCatalog ext catalog = .ok ()) :
    Accepted ext catalog := by
  obtain ⟨_,each,rest⟩ := bind_ok checked
  obtain ⟨_,graph,rest⟩ := bind_ok rest
  obtain ⟨_,shapes,_⟩ := bind_ok rest
  have listed (tag : String) (o : ValidatedOutbound) (there : catalog[tag]? = some o) : tag ∈ catalog.keys := by
    rw [Std.ExtTreeMap.mem_keys,Std.ExtTreeMap.mem_iff_isSome_getElem?,there]
    rfl
  have valued (tag : String) (o : ValidatedOutbound) (there : catalog[tag]? = some o) : validateOne ext catalog o = .ok () :=
    validateEach_each each o (List.mem_map_of_mem ((mem_toList catalog).mpr there))
  refine ⟨validateOutbounds_indexed built,?_,?_,?_,?_⟩
  · intro tag o there kind
    have one := valued tag o there
    rw [validateOne,if_pos kind] at one
    obtain ⟨d,parsed,_⟩ := bind_ok one
    exact ⟨d,parsed⟩
  · intro tag o there kind
    have one := valued tag o there
    rw [validateOne,if_neg kind] at one
    split at one
    · next done => exact done
    · cases one
  · intro tag o there
    exact validateReferences_depth graph (fun tag d impossible => by simp at impossible) tag (listed tag o there)
  · intro tag o there
    exact validateShapes_shape shapes (fun tag d impossible => by simp at impossible) tag (listed tag o there)

end NodeAgent.Outbounds
