import NodeAgent.ClientChains
import Mathlib.Order.Lattice.Nat

/-!
The chain that an outbound stands for, without caches and limits, and that the adapter
produces it: after the checks of the catalog no outbound on the way can fail, whatever the
cache of selectors holds.
-/
namespace NodeAgent.ClientChains
open NodeAgent.Api NodeAgent.Json NodeAgent.FiniteMap NodeAgent.OutboundAdapter NodeAgent.Outbounds NodeAgent.Fallible

variable {ext : Externals} {catalog : Catalog}

/-! ### Images -/

variable (ext catalog) in
/-- The selector is folded into the outbound that it selects. -/
def Immediate (o p : ValidatedOutbound) : Prop :=
  o.kind = .selector ∧ ∃ d, parseSelectorDefinition ext o = .ok d ∧ catalog[d.selected]? = some p

variable (ext catalog) in
/-- The hops of an outbound that is not chosen at run time. -/
inductive ChainOf : ValidatedOutbound → List Value → Prop
  | leaf {o : ValidatedOutbound} {hop : Hop} (compiled : compileHop ext o.kind o.tag o.options = .ok hop) (first : effectiveDetour o = none) :
      ChainOf o [hop.config o.shoesDnsResolver]
  | detour {o p : ValidatedOutbound} {hop : Hop} {detour : String} {hops : List Value}
      (compiled : compileHop ext o.kind o.tag o.options = .ok hop) (behind : effectiveDetour o = some detour) (there : catalog[detour]? = some p)
      (rest : ChainOf p hops) : ChainOf o (hops ++ [hop.config o.shoesDnsResolver])
  | selector {o p : ValidatedOutbound} {hops : List Value} (selects : Immediate ext catalog o p) (rest : ChainOf p hops) : ChainOf o hops

theorem Immediate.unique {o p p' : ValidatedOutbound} (first : Immediate ext catalog o p) (second : Immediate ext catalog o p') : p = p' := by
  obtain ⟨_,d,parsed,there⟩ := first
  obtain ⟨_,d',parsed',there'⟩ := second
  rw [parsed] at parsed'
  cases parsed'
  rw [there] at there'
  cases there'
  rfl

theorem compileHop_kind {kind : OutboundKind} {tag : String} {fields : Fields} {hop : Hop} (compiled : compileHop ext kind tag fields = .ok hop) :
    kind ≠ .selector ∧ kind ≠ .urltest := by
  constructor
  · rintro rfl
    cases compiled
  · rintro rfl
    cases compiled

theorem ChainOf.unique {o : ValidatedOutbound} {hops hops' : List Value} (first : ChainOf ext catalog o hops) (second : ChainOf ext catalog o hops') :
    hops = hops' := by
  induction first generalizing hops' with
  | leaf compiled alone =>
    cases second with
    | leaf compiled' _ =>
      rw [compiled] at compiled'
      cases compiled'
      rfl
    | detour compiled' behind _ _ =>
      rw [compiled] at compiled'
      cases compiled'
      rw [alone] at behind
      cases behind
    | selector selects _ => exact absurd selects.1 (compileHop_kind compiled).1
  | detour compiled behind there _ ih =>
    cases second with
    | leaf compiled' alone =>
      rw [compiled] at compiled'
      cases compiled'
      rw [alone] at behind
      cases behind
    | detour compiled' behind' there' rest' =>
      rw [compiled] at compiled'
      cases compiled'
      rw [behind] at behind'
      cases behind'
      rw [there] at there'
      cases there'
      rw [ih rest']
    | selector selects _ => exact absurd selects.1 (compileHop_kind compiled).1
  | selector selects _ ih =>
    cases second with
    | leaf compiled' _ => exact absurd selects.1 (compileHop_kind compiled').1
    | detour compiled' _ _ _ => exact absurd selects.1 (compileHop_kind compiled').1
    | selector selects' rest' =>
      cases selects.unique selects'
      exact ih rest'

/-! ### The detours of hops -/

theorem optionalString_detour {o : ValidatedOutbound} {tag : String} {value : Option String}
    (read : optionalNonemptyString ext tag o.options "detour" = .ok value) : value = effectiveDetour o := by
  obtain ⟨found,got,finish⟩ := bind_ok read
  cases finish
  unfold optionalString at got
  unfold effectiveDetour
  split at got
  · next missing => cases got; rw [missing]; rfl
  · next null => cases got; rw [null]; rfl
  · next text => cases got; rw [text]; rfl
  · cases got

theorem compileProxyChain_detour {o : ValidatedOutbound} {tag address : String} {protocol : Value} {hop : Hop}
    (compiled : compileProxyChain ext tag o.options address protocol = .ok hop) : hop.detour = effectiveDetour o := by
  obtain ⟨detour,read,rest⟩ := bind_ok compiled
  obtain ⟨_,_,rest⟩ := bind_ok rest
  obtain ⟨_,_,finish⟩ := bind_ok rest
  cases finish
  exact optionalString_detour read

theorem rejectUnknownFields_get {tag kind name : String} {fields : Fields} {allowed : List String} (passed : rejectUnknownFields ext tag kind fields allowed = .ok ())
    (unknown : name ∉ allowed) : Fields.get fields name = none := by
  unfold rejectUnknownFields at passed
  split at passed
  · cases passed
  · next none_found =>
    rw [List.find?_eq_none] at none_found
    clear passed
    induction fields with
    | nil => rfl
    | cons field rest ih =>
      obtain ⟨k,v⟩ := field
      have different : k ≠ name := by
        rintro rfl
        have listed := none_found (k,v) List.mem_cons_self
        simp [unknown] at listed
      rw [Fields.get,if_neg different]
      exact ih (fun field later => none_found field (List.mem_cons_of_mem _ later))

theorem refuse_ok {condition : Bool} {message : String} (passed : refuse condition message = .ok ()) : condition = false := by
  cases condition with
  | false => rfl
  | true => cases passed

/-- The detour of a hop is the one that the graph of references has. -/
theorem compileHop_detour {o : ValidatedOutbound} {hop : Hop} (compiled : compileHop ext o.kind o.tag o.options = .ok hop) :
    hop.detour = effectiveDetour o := by
  unfold compileHop at compiled
  split at compiled
  · obtain ⟨_,known_fields,rest⟩ := bind_ok compiled
    obtain ⟨_,_,finish⟩ := bind_ok rest
    cases finish
    rw [effectiveDetour,rejectUnknownFields_get known_fields (by decide)]
    rfl
  · iterate 8 obtain ⟨_,_,compiled⟩ := bind_ok compiled
    exact compileProxyChain_detour compiled
  · iterate 6 obtain ⟨_,_,compiled⟩ := bind_ok compiled
    exact compileProxyChain_detour compiled
  · iterate 10 obtain ⟨_,_,compiled⟩ := bind_ok compiled
    exact compileProxyChain_detour compiled
  · obtain ⟨_,_,compiled⟩ := bind_ok compiled
    obtain ⟨detour,read,compiled⟩ := bind_ok compiled
    obtain ⟨_,alone,compiled⟩ := bind_ok compiled
    iterate 15 obtain ⟨_,_,compiled⟩ := bind_ok compiled
    cases compiled
    rw [← optionalString_detour read]
    exact (Option.isSome_eq_false_iff.mp (refuse_ok alone) |> Option.isNone_iff_eq_none.mp).symm
  · cases compiled
  · cases compiled

/-! ### The two readings of a selector -/

theorem mapM_strings {α : Type} {f : α → Except String String} {value : α → Value} (strings : ∀ a s, f a = .ok s → value a = .string s)
    {entries : List α} {members : List String} (done : entries.mapM f = .ok members) : entries.map value = members.map .string := by
  induction entries generalizing members with
  | nil =>
    cases done
    rfl
  | cons a rest ih =>
    rw [List.mapM_cons] at done
    obtain ⟨s,first,more⟩ := bind_ok done
    obtain ⟨members',others,finish⟩ := bind_ok more
    cases finish
    rw [List.map_cons,List.map_cons,ih others,strings a s first]

theorem requiredStringArray_values {tag name : String} {fields : Fields} {members : List String}
    (read : requiredStringArray ext tag fields name = .ok members) : Fields.get fields name = some (.array (members.map .string)) := by
  unfold requiredStringArray at read
  split at read
  · next values there =>
    have strings : values.map id = members.map .string := by
      refine mapM_strings ?_ read
      intro v s one
      split at one
      · split at one
        · cases one
        · cases one
          rfl
      · cases one
    rw [there,← strings,List.map_id]
  · cases read

theorem memberTags_values {kind : OutboundKind} {o : ValidatedOutbound} {members : List String} (read : memberTags ext kind o = .ok members) :
    Fields.get o.options "outbounds" = some (.array (members.map .string)) := by
  unfold memberTags at read
  split at read
  · cases read
  · next values _ there =>
    have strings : values.zipIdx.map Prod.fst = members.map .string := by
      refine mapM_strings ?_ read
      intro entry s one
      split at one
      · next text =>
        split at one
        · cases one
        · cases one
          exact text
      · cases one
    rw [there,← strings,List.zipIdx_map_fst]
  · cases read

/-- Both readings of a selector that is accepted by both are the same. -/
theorem selection_agrees {o : ValidatedOutbound} {s d : Selection} (adapter : compileSelectorFields ext o.tag o.options = .ok s)
    (compiler : parseSelectorDefinition ext o = .ok d) : s = d := by
  obtain ⟨_,_,adapter⟩ := bind_ok adapter
  obtain ⟨_,_,adapter⟩ := bind_ok adapter
  obtain ⟨members,listed,adapter⟩ := bind_ok adapter
  obtain ⟨members',listed',compiler⟩ := bind_ok compiler
  have same : members = members' := by
    have values := (requiredStringArray_values listed).symm.trans (memberTags_values listed')
    have strings : members.map Value.string = members'.map Value.string := by simpa using values
    exact List.map_injective_iff.mpr (fun _ _ equal => by cases equal; rfl) strings
  subst same
  cases members with
  | nil => cases adapter
  | cons first rest =>
    obtain ⟨default,read,adapter⟩ := bind_ok adapter
    obtain ⟨found,got,finish⟩ := bind_ok read
    cases finish
    unfold optionalString at got
    split at got
    · next missing =>
      cases got
      rw [missing] at compiler
      cases adapter
      cases compiler
      rfl
    · next null =>
      cases got
      rw [null] at compiler
      cases adapter
      cases compiler
      rfl
    · next text there =>
      cases got
      rw [there] at compiler
      dsimp only at compiler
      by_cases empty : text.isEmpty
      · rw [Option.filter_some,empty] at adapter
        rw [if_pos empty] at compiler
        cases adapter
        cases compiler
        rfl
      · rw [Option.filter_some,if_pos (by simpa using empty)] at adapter
        rw [if_neg empty] at compiler
        dsimp only at adapter
        split at adapter
        · next member =>
          rw [if_pos member] at compiler
          cases adapter
          cases compiler
          rfl
        · cases adapter
    · cases got

/-! ### Outbounds of an accepted catalog -/

def Known (catalog : Catalog) (o : ValidatedOutbound) : Prop := catalog[o.tag]? = some o

variable (ext catalog) in
/-- The least depth of an outbound. -/
noncomputable def depthOf (tag : String) : Nat := sInf { d | HasDepth ext catalog tag d }

variable {o p : ValidatedOutbound} (acc : Accepted ext catalog)
include acc

theorem known_of {tag : String} (there : catalog[tag]? = some p) : Known catalog p ∧ p.tag = tag := by
  have same := acc.indexed.tags tag p there
  exact ⟨by rw [Known,same]; exact there,same⟩

theorem depthOf_has (known : Known catalog o) : HasDepth ext catalog o.tag (depthOf ext catalog o.tag) := by
  obtain ⟨d,_,deep⟩ := acc.deep o.tag o known
  exact Nat.sInf_mem ⟨d,deep⟩

theorem depthOf_pos (known : Known catalog o) : 0 < depthOf ext catalog o.tag := by
  have deep := depthOf_has acc known
  generalize depthOf ext catalog o.tag = depth at deep ⊢
  cases deep with
  | intro _ _ _ positive _ _ => exact positive

theorem depthOf_le (known : Known catalog o) : depthOf ext catalog o.tag ≤ MAX_OUTBOUND_REFERENCE_DEPTH := by
  obtain ⟨d,within,deep⟩ := acc.deep o.tag o known
  exact Nat.le_trans (Nat.sInf_le deep) within

/-- References lead to known outbounds of less depth. -/
theorem references (known : Known catalog o) : ∃ refs, outboundReferences ext o = .ok refs ∧
    ∀ target ∈ refs, ∃ p, catalog[target]? = some p ∧ depthOf ext catalog p.tag < depthOf ext catalog o.tag := by
  have deep := depthOf_has acc known
  generalize depthOf ext catalog o.tag = depth at deep ⊢
  cases deep with
  | @intro _ _ o' refs depths there refers positive less deep =>
    rw [known] at there
    cases there
    refine ⟨refs,refers,?_⟩
    intro target member
    have below := deep target member
    have bound : depthOf ext catalog target ≤ depths target := Nat.sInf_le below
    cases below with
    | @intro _ _ p _ _ there _ _ _ _ =>
      have same := acc.indexed.tags target p there
      have shorter := less target member
      refine ⟨p,there,?_⟩
      rw [same]
      omega

theorem Accepted.selector (known : Known catalog o) (kind : o.kind = .selector) : ∃ d p, parseSelectorDefinition ext o = .ok d ∧
    compileSelectorFields ext o.tag o.options = .ok d ∧ resolveMembers ext catalog o.tag d.members = .ok () ∧ catalog[d.selected]? = some p ∧
    depthOf ext catalog p.tag < depthOf ext catalog o.tag := by
  obtain ⟨refs,refers,below⟩ := references acc known
  unfold outboundReferences at refers
  rw [kind] at refers
  obtain ⟨d,parsed,members⟩ := bind_ok refers
  cases members
  obtain ⟨p,there,shorter⟩ := below d.selected (parseSelectorDefinition_selected parsed)
  have checked := acc.clients o.tag o known (by rw [kind]; decide)
  unfold validateClientOutbound at checked
  split at checked
  · cases checked
  · obtain ⟨s,compiled,resolved⟩ := bind_ok checked
    cases selection_agrees compiled parsed
    exact ⟨d,p,parsed,compiled,resolved,there,shorter⟩

theorem detour_known {detour : String} (known : Known catalog o) (kind : o.kind ≠ .selector ∧ o.kind ≠ .urltest) (behind : effectiveDetour o = some detour) :
    ∃ p, catalog[detour]? = some p ∧ depthOf ext catalog p.tag < depthOf ext catalog o.tag := by
  obtain ⟨refs,refers,below⟩ := references acc known
  refine below detour ?_
  unfold outboundReferences at refers
  split at refers
  · next selector => exact absurd selector kind.1
  · next urltest => exact absurd urltest kind.2
  · cases refers
    rw [behind]
    exact List.mem_singleton_self _

theorem Accepted.client (known : Known catalog o) (kind : o.kind ≠ .selector ∧ o.kind ≠ .urltest) : ∃ hop,
    compileHop ext o.kind o.tag o.options = .ok hop := by
  have checked := acc.clients o.tag o known kind.2
  unfold validateClientOutbound at checked
  split at checked
  · cases checked
  · rw [if_neg kind.1] at checked
    obtain ⟨hop,compiled,_⟩ := bind_ok checked
    exact ⟨hop,compiled⟩

theorem not_blank (known : Known catalog o) (kind : o.kind ≠ .urltest) : blank o.tag = false := by
  have checked := acc.clients o.tag o known kind
  unfold validateClientOutbound at checked
  split at checked
  · cases checked
  · next visible => simpa using visible

omit acc in
theorem plain_kind (known : Known catalog o) (plain : HasShape ext catalog o.tag .plain) : o.kind ≠ .urltest := by
  cases plain with
  | selector there kind _ _ =>
    rw [known] at there
    cases there
    rw [kind]
    decide
  | leaf there fixed _ =>
    rw [known] at there
    cases there
    exact fixed.2
  | detour there fixed _ _ =>
    rw [known] at there
    cases there
    exact fixed.2

/-- Nothing on the way of a fixed chain is left to the run time. -/
theorem plain_selector (known : Known catalog o) (plain : HasShape ext catalog o.tag .plain) (selects : Immediate ext catalog o p) :
    HasShape ext catalog p.tag .plain := by
  obtain ⟨kind,d,parsed,there'⟩ := selects
  cases plain with
  | selector there _ parsed' selected =>
    rw [known] at there
    cases there
    rw [parsed] at parsed'
    cases parsed'
    rw [(known_of acc there').2]
    exact selected
  | leaf there fixed _ =>
    rw [known] at there
    cases there
    exact absurd kind fixed.1
  | detour there fixed _ _ =>
    rw [known] at there
    cases there
    exact absurd kind fixed.1

theorem plain_detour {detour : String} (known : Known catalog o) (plain : HasShape ext catalog o.tag .plain) (kind : o.kind ≠ .selector)
    (behind : effectiveDetour o = some detour) (there' : catalog[detour]? = some p) : HasShape ext catalog p.tag .plain := by
  cases plain with
  | selector there kind' _ _ =>
    rw [known] at there
    cases there
    exact absurd kind' kind
  | leaf there _ first =>
    rw [known] at there
    cases there
    rw [first] at behind
    cases behind
  | detour there _ behind' plain =>
    rw [known] at there
    cases there
    rw [behind] at behind'
    cases behind'
    rw [(known_of acc there').2]
    exact plain

/-! ### The adapter -/

omit acc in
variable (ext catalog) in
/-- The cache holds selections as they are. -/
def Cached (cache : SelectorProjectionCache) : Prop :=
  ∀ (id : Nat) (selected : ValidatedOutbound), cache[id]? = some selected → ∃ o, Known catalog o ∧ o.id = id ∧ Immediate ext catalog o selected

omit acc in
theorem Cached.insert {cache : SelectorProjectionCache} (cached : Cached ext catalog cache) (known : Known catalog o)
    (selects : Immediate ext catalog o p) : Cached ext catalog (cache.insert o.id p) := by
  intro id selected there
  rw [lookup_insert] at there
  split at there
  · next same =>
    cases there
    exact ⟨o,known,same,selects⟩
  · exact cached id selected there

theorem resolve_known {unknown what target : String} (there : catalog[target]? = some p) : resolve ext catalog unknown what target = .ok p := by
  unfold resolve
  rw [there]
  dsimp only
  rw [if_neg (by rw [(known_of acc there).2]; exact fun different => different rfl)]

/-- The adapter gives the chain of the outbound, and leaves a cache that is right. -/
def Compiles (ext : Externals) (catalog : Catalog) (compiler : Op SelectorProjectionCache String (List Value)) (o : ValidatedOutbound) : Prop :=
  ∀ cache, Cached ext catalog cache → Ensures compiler cache (Outcome (fun hops cache' => ChainOf ext catalog o hops ∧ Cached ext catalog cache') (fun _ _ => False))

theorem compileSelector_compiles {descend : ValidatedOutbound → Op SelectorProjectionCache String (List Value)} (known : Known catalog o)
    (kind : o.kind = .selector) (compiles : ∀ p, Immediate ext catalog o p → Compiles ext catalog (descend p) p) :
    Compiles ext catalog (compileSelector ext catalog descend o) o := by
  obtain ⟨d,p,parsed,compiled,resolved,there,_⟩ := Accepted.selector acc known kind
  have selects : Immediate ext catalog o p := ⟨kind,d,parsed,there⟩
  intro cache cached
  unfold compileSelector
  rw [compiled]
  refine Ensures.pure_bind ?_
  rw [resolved]
  refine Ensures.pure_bind ?_
  rw [resolveMember,resolve_known acc there]
  refine Ensures.pure_bind ?_
  refine Ensures.bind (compiles p selects cache cached) ?_ (fun _ _ failed => failed)
  rintro hops cache' ⟨chain,cached'⟩
  exact ⟨.selector selects chain,cached'.insert known selects⟩

theorem compileClient_compiles {descend : ValidatedOutbound → Op SelectorProjectionCache String (List Value)} (known : Known catalog o)
    (kind : o.kind ≠ .selector ∧ o.kind ≠ .urltest)
    (compiles : ∀ p detour, effectiveDetour o = some detour → catalog[detour]? = some p → Compiles ext catalog (descend p) p) :
    Compiles ext catalog (compileClient ext catalog descend o) o := by
  obtain ⟨hop,compiled⟩ := Accepted.client acc known kind
  intro cache cached
  unfold compileClient
  rw [compiled]
  refine Ensures.pure_bind ?_
  rw [compileHop_detour compiled]
  cases behind : effectiveDetour o with
  | none => exact ⟨.leaf compiled behind,cached⟩
  | some detour =>
    obtain ⟨p,there,_⟩ := detour_known acc known kind behind
    dsimp only
    rw [resolveDetour,resolve_known acc there]
    refine Ensures.pure_bind ?_
    refine Ensures.bind (compiles p detour behind there cache cached) ?_ (fun _ _ failed => failed)
    rintro hops cache' ⟨chain,cached'⟩
    exact ⟨.detour compiled behind there chain,cached'⟩

/-- Every outbound with a fixed chain is compiled to it, as long as its depth leaves room. -/
theorem compileWithDns_compiles (room : Nat) : ∀ (o : ValidatedOutbound) (active : List Nat) (validateTag : Bool), Known catalog o →
    HasShape ext catalog o.tag .plain → depthOf ext catalog o.tag ≤ room →
    (∀ a, Known catalog a → a.id ∈ active → depthOf ext catalog o.tag < depthOf ext catalog a.tag) →
    Compiles ext catalog (compileWithDns ext catalog room active o validateTag) o := by
  induction room with
  | zero =>
    intro o active validateTag known _ within _
    have positive := depthOf_pos acc known
    omega
  | succ room ih =>
    intro o active validateTag known plain within above
    have visible := not_blank acc known (plain_kind known plain)
    have fresh : o.id ∉ active := by
      intro member
      have less := above o known member
      omega
    -- Whatever is compiled next lies deeper than the outbound and all that are active.
    have next {p : ValidatedOutbound} (known' : Known catalog p) (plain' : HasShape ext catalog p.tag .plain)
        (less : depthOf ext catalog p.tag < depthOf ext catalog o.tag) (validate : Bool) :
        Compiles ext catalog (compileWithDns ext catalog room (o.id :: active) p validate) p := by
      refine ih p (o.id :: active) validate known' plain' (by omega) ?_
      intro a known_a member
      rcases List.mem_cons.mp member with same | earlier
      · cases acc.indexed.ids a.tag o.tag a o known_a known same
        exact less
      · have higher := above a known_a earlier
        omega
    have selected {p : ValidatedOutbound} (selects : Immediate ext catalog o p) (validate : Bool) :
        Compiles ext catalog (compileWithDns ext catalog room (o.id :: active) p validate) p := by
      obtain ⟨d,p',parsed,_,_,there,less⟩ := Accepted.selector acc known selects.1
      cases selects.unique ⟨selects.1,d,parsed,there⟩
      exact next (known_of acc there).1 (plain_selector acc known plain selects) less validate
    intro cache cached
    rw [compileWithDns,compileFrom]
    rw [if_neg (by rw [visible]; simp),if_neg fresh]
    split
    · next kind =>
      refine Ensures.look_bind ?_
      cases hit : cache[o.id]? with
      | none => exact compileSelector_compiles acc known kind (fun p selects => selected selects true) cache cached
      | some p =>
        obtain ⟨o',known',same,selects⟩ := cached o.id p hit
        cases acc.indexed.ids o'.tag o.tag o' o known' known same
        refine (selected selects false cache cached).mono ?_
        intro result cache' outcome
        cases result with
        | error e => exact outcome
        | ok hops => exact ⟨.selector selects outcome.1,outcome.2⟩
    · next kind =>
      refine compileClient_compiles acc known ⟨kind,plain_kind known plain⟩ ?_ cache cached
      intro p detour behind there
      obtain ⟨p',there',less⟩ := detour_known acc known ⟨kind,plain_kind known plain⟩ behind
      rw [there] at there'
      cases there'
      exact next (known_of acc there).1 (plain_detour acc known plain kind behind there) less true

end NodeAgent.ClientChains
