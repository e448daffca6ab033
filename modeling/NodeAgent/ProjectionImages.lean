import NodeAgent.ChainImages

/-!
What a projection gives, without caches: the chain of the outbound, or the chains of the
members of the URLTest that it ends at, and what the configuration is billed for it.
-/
namespace NodeAgent.ClientChains
open NodeAgent.Api NodeAgent.Json NodeAgent.FiniteMap NodeAgent.OutboundAdapter NodeAgent.Outbounds NodeAgent.Fallible

variable {ext : Externals} {catalog : Catalog} {o p t : ValidatedOutbound}

/-! ### Where selectors end -/

variable (ext catalog) in
inductive Terminal : ValidatedOutbound → ValidatedOutbound → Prop
  | here {o : ValidatedOutbound} (kind : o.kind ≠ .selector) : Terminal o o
  | through {o p t : ValidatedOutbound} (selects : Immediate ext catalog o p) (rest : Terminal p t) : Terminal o t

theorem Terminal.unique {t' : ValidatedOutbound} (first : Terminal ext catalog o t) (second : Terminal ext catalog o t') : t = t' := by
  induction first with
  | here kind =>
    cases second with
    | here _ => rfl
    | through selects _ => exact absurd selects.1 kind
  | through selects _ ih =>
    cases second with
    | here kind => exact absurd selects.1 kind
    | through selects' rest' =>
      cases selects.unique selects'
      exact ih rest'

theorem Terminal.kind (ends : Terminal ext catalog o t) : t.kind ≠ .selector := by
  induction ends with
  | here kind => exact kind
  | through _ _ ih => exact ih

theorem Terminal.chain {hops : List Value} (ends : Terminal ext catalog o t) (chain : ChainOf ext catalog t hops) : ChainOf ext catalog o hops := by
  induction ends with
  | here _ => exact chain
  | through selects _ ih => exact .selector selects (ih chain)

section Catalogs
variable (acc : Accepted ext catalog)
include acc

theorem immediate_known (known : Known catalog o) (selects : Immediate ext catalog o p) :
    Known catalog p ∧ depthOf ext catalog p.tag < depthOf ext catalog o.tag := by
  obtain ⟨d,p',parsed,_,_,there,less⟩ := Accepted.selector acc known selects.1
  cases selects.unique ⟨selects.1,d,parsed,there⟩
  exact ⟨(known_of acc there).1,less⟩

theorem Terminal.known (ends : Terminal ext catalog o t) (known : Known catalog o) : Known catalog t := by
  induction ends with
  | here _ => exact known
  | through selects _ ih => exact ih (immediate_known acc known selects).1

theorem exists_immediate (known : Known catalog o) (kind : o.kind = .selector) : ∃ p, Immediate ext catalog o p := by
  obtain ⟨d,p,parsed,_,_,there,_⟩ := Accepted.selector acc known kind
  exact ⟨p,kind,d,parsed,there⟩

/-- The chain of an outbound that is not a selector is fixed, unless it is a URLTest. -/
theorem plain_of_kind (known : Known catalog o) (kind : o.kind ≠ .selector ∧ o.kind ≠ .urltest) : HasShape ext catalog o.tag .plain := by
  obtain ⟨s,has⟩ := acc.shaped o.tag o known
  cases has with
  | selector there kind' _ _ =>
    rw [known] at there
    cases there
    exact absurd kind' kind.1
  | urltest there kind' _ _ =>
    rw [known] at there
    cases there
    exact absurd kind' kind.2
  | leaf there fixed first => exact .leaf there fixed first
  | detour there fixed behind plain => exact .detour there fixed behind plain

/-- A fixed selector ends at an outbound that is no URLTest. -/
theorem Terminal.plain (ends : Terminal ext catalog o t) (known : Known catalog o) (plain : HasShape ext catalog o.tag .plain) :
    t.kind ≠ .urltest := by
  induction ends with
  | here _ => exact plain_kind known plain
  | through selects _ ih => exact ih (immediate_known acc known selects).1 (plain_selector acc known plain selects)

end Catalogs

/-! ### Samples -/

variable (ext) in
def projectionOf (hops : List Value) : ClientChainsProjection := ⟨hops.length,1,serializedJsonLen ext (.object [("chain",.array hops)])⟩

variable (ext) in
def sampleOf (hops : List Value) : CompiledClientChainSample := ⟨clientChains [hops],projectionOf ext hops⟩

theorem append_default {q : ClientChainsProjection} : ClientChainsProjection.append .default q = q := by
  simp [ClientChainsProjection.append,ClientChainsProjection.default]

theorem inspect_sample {hops : List Value} : ClientChainsProjection.inspect ext (clientChains [hops]) = .ok (projectionOf ext hops) := by
  change (Except.ok (ClientChainsProjection.append .default (projectionOf ext hops)) : Except String ClientChainsProjection) = _
  rw [append_default]

/-! ### URLTests -/

variable (ext catalog) in
/-- The outbound that a member of a URLTest is measured as. -/
def Real (o p : ValidatedOutbound) : Prop := if o.kind = .selector then Immediate ext catalog o p else p = o

variable (ext catalog) in
/-- A member of a URLTest by its tag. -/
def Resolves (tag : String) (c : Candidate) : Prop := catalog[tag]? = some c.member ∧ Real ext catalog c.member c.real

/-- The candidates without those that are measured under a tag for the second time. -/
def firstByReal : List Candidate → List Candidate
  | [] => []
  | c :: rest => c :: (firstByReal rest).filter (fun later => later.real.tag ≠ c.real.tag)

variable (ext) in
def totalProjection (hops : List (List Value)) : ClientChainsProjection :=
  ⟨(hops.map List.length).sum,hops.length,(hops.map (fun h => (projectionOf ext h).chainElementBytes)).sum⟩

variable (ext catalog) in
/-- The action of a URLTest and its cost. -/
def UrltestImage (o : ValidatedOutbound) (a : CachedUrltestAction) : Prop :=
  ∃ definition resolved hops, parseUrltestDefinition ext o = .ok definition ∧
    List.Forall₂ (Resolves ext catalog) definition.members resolved ∧
    List.Forall₂ (fun c h => ChainOf ext catalog c.member h) (firstByReal resolved) hops ∧
    a = ⟨identified ext o (hops.map (fun h => .object [("chain",.array h)])) (withHistory definition.selection (firstByReal resolved)),
      (totalProjection ext hops).cost (serializedJsonLen ext (.object (withHistory definition.selection (firstByReal resolved))))⟩

theorem forall₂_unique {α β : Type} {R : α → β → Prop} (unique : ∀ a b c, R a b → R a c → b = c) {xs : List α} {ys zs : List β}
    (first : List.Forall₂ R xs ys) (second : List.Forall₂ R xs zs) : ys = zs := by
  induction first generalizing zs with
  | nil =>
    cases second
    rfl
  | cons one _ ih =>
    cases second with
    | cons other rest => rw [unique _ _ _ one other,ih rest]

theorem Resolves.unique {tag : String} {c c' : Candidate} (first : Resolves ext catalog tag c) (second : Resolves ext catalog tag c') : c = c' := by
  obtain ⟨member,real⟩ := c
  obtain ⟨member',real'⟩ := c'
  obtain ⟨there,stands⟩ := first
  obtain ⟨there',stands'⟩ := second
  dsimp only at there there' stands stands'
  rw [there] at there'
  cases there'
  by_cases kind : member.kind = .selector
  · rw [Real,if_pos kind] at stands stands'
    rw [stands.unique stands']
  · rw [Real,if_neg kind] at stands stands'
    rw [stands,stands']

theorem UrltestImage.unique {a a' : CachedUrltestAction} (first : UrltestImage ext catalog o a) (second : UrltestImage ext catalog o a') : a = a' := by
  obtain ⟨d,resolved,hops,parsed,members,chains,action⟩ := first
  obtain ⟨d',resolved',hops',parsed',members',chains',action'⟩ := second
  rw [parsed] at parsed'
  cases parsed'
  have resolved_same : resolved = resolved' := forall₂_unique (R := Resolves ext catalog) (fun _ _ _ => Resolves.unique) members members'
  subst resolved_same
  have hops_same : hops = hops' :=
    forall₂_unique (R := fun (c : Candidate) h => ChainOf ext catalog c.member h) (fun _ _ _ => ChainOf.unique) chains chains'
  subst hops_same
  rw [action,action']

/-- The candidates that the action of a URLTest probes. -/
def probes (a : CachedUrltestAction) : Nat := (chainsOf a.action.clientChains).length

/-! ### The first members -/

theorem mem_firstByReal {cs : List Candidate} {c : Candidate} (member : c ∈ firstByReal cs) : c ∈ cs := by
  induction cs with
  | nil => exact member
  | cons first rest ih =>
    rcases List.mem_cons.mp member with rfl | later
    · exact List.mem_cons_self
    · exact List.mem_cons_of_mem _ (ih (List.mem_of_mem_filter later))

theorem firstByReal_append {cs : List Candidate} {c : Candidate} :
    firstByReal (cs ++ [c]) = if ∃ c' ∈ firstByReal cs, c'.real.tag = c.real.tag then firstByReal cs else firstByReal cs ++ [c] := by
  induction cs with
  | nil => simp [firstByReal]
  | cons first rest ih =>
    rw [List.cons_append,firstByReal,firstByReal,ih]
    by_cases same : c.real.tag = first.real.tag
    · have again : ∃ c' ∈ first :: (firstByReal rest).filter (fun later => later.real.tag ≠ first.real.tag), c'.real.tag = c.real.tag :=
        ⟨first,List.mem_cons_self,same.symm⟩
      rw [if_pos again]
      split
      · rfl
      · rw [List.filter_append,List.filter_cons_of_neg (by simpa using same)]
        simp
    · by_cases earlier : ∃ c' ∈ firstByReal rest, c'.real.tag = c.real.tag
      · obtain ⟨c',found,equal⟩ := earlier
        rw [if_pos ⟨c',found,equal⟩,if_pos]
        refine ⟨c',List.mem_cons_of_mem _ (List.mem_filter.mpr ⟨found,?_⟩),equal⟩
        simpa [equal] using same
      · rw [if_neg earlier,if_neg]
        · rw [List.filter_append,List.filter_cons_of_pos (by simpa using same)]
          simp
        · rintro ⟨c',found,equal⟩
          rcases List.mem_cons.mp found with rfl | later
          · exact same equal.symm
          · exact earlier ⟨c',List.mem_of_mem_filter later,equal⟩

/-- More members never make fewer candidates. -/
theorem firstByReal_length {cs rest : List Candidate} : (firstByReal cs).length ≤ (firstByReal (cs ++ rest)).length := by
  induction rest generalizing cs with
  | nil => simp
  | cons c rest ih =>
    have shorter : (firstByReal cs).length ≤ (firstByReal (cs ++ [c])).length := by
      rw [firstByReal_append]
      split
      · exact Nat.le_refl _
      · simp
    have more := @ih (cs ++ [c])
    rw [List.append_assoc] at more
    exact Nat.le_trans shorter more

theorem totalProjection_append {hops : List (List Value)} {h : List Value} :
    totalProjection ext (hops ++ [h]) = (totalProjection ext hops).append (projectionOf ext h) := by
  simp [totalProjection,ClientChainsProjection.append,projectionOf]

/-- The cost of the first members is no more than the one of all. -/
theorem totalProjection_cost {hops rest : List (List Value)} {bytes : Nat} :
    ((totalProjection ext hops).cost bytes).hops ≤ ((totalProjection ext (hops ++ rest)).cost bytes).hops ∧
    ((totalProjection ext hops).cost bytes).bytes ≤ ((totalProjection ext (hops ++ rest)).cost bytes).bytes := by
  simp only [totalProjection,ClientChainsProjection.cost,List.map_append,List.sum_append,List.length_append]
  constructor <;> omega

/-! ### Every projection exists -/

section Catalogs
variable (acc : Accepted ext catalog)
include acc

theorem exists_chain (known : Known catalog o) (plain : HasShape ext catalog o.tag .plain) : ∃ hops, ChainOf ext catalog o hops := by
  have compiled := compileWithDns_compiles acc MAX_OUTBOUND_REFERENCE_DEPTH o [] true known plain (depthOf_le acc known)
    (fun a _ member => absurd member List.not_mem_nil) ∅ (fun id selected impossible => by simp at impossible)
  unfold Ensures at compiled
  revert compiled
  cases (compileWithDns ext catalog MAX_OUTBOUND_REFERENCE_DEPTH [] o true ∅).1 with
  | error e => exact fun impossible => impossible.elim
  | ok hops => exact fun done => ⟨hops,done.1⟩

theorem exists_terminal : ∀ (depth : Nat) (o : ValidatedOutbound), Known catalog o → depthOf ext catalog o.tag ≤ depth →
    ∃ t, Terminal ext catalog o t := by
  intro depth
  induction depth with
  | zero =>
    intro o known within
    have positive := depthOf_pos acc known
    omega
  | succ depth ih =>
    intro o known within
    by_cases kind : o.kind = .selector
    · obtain ⟨p,selects⟩ := exists_immediate acc known kind
      obtain ⟨known',less⟩ := immediate_known acc known selects
      obtain ⟨t,ends⟩ := ih p known' (by omega)
      exact ⟨t,.through selects ends⟩
    · exact ⟨o,.here kind⟩

theorem exists_real (known : Known catalog o) : ∃ p, Real ext catalog o p := by
  by_cases kind : o.kind = .selector
  · obtain ⟨p,selects⟩ := exists_immediate acc known kind
    exact ⟨p,by rw [Real,if_pos kind]; exact selects⟩
  · exact ⟨o,by rw [Real,if_neg kind]⟩

theorem Real.known (known : Known catalog o) (stands : Real ext catalog o p) : Known catalog p := by
  by_cases kind : o.kind = .selector
  · rw [Real,if_pos kind] at stands
    exact (immediate_known acc known stands).1
  · rw [Real,if_neg kind] at stands
    exact stands ▸ known

/-- The members of a URLTest are known and their chains are fixed. -/
theorem urltest_members (known : Known catalog o) (kind : o.kind = .urltest) : ∃ d, parseUrltestDefinition ext o = .ok d ∧
    ∀ tag ∈ d.members, ∃ p, catalog[tag]? = some p ∧ HasShape ext catalog p.tag .plain := by
  obtain ⟨refs,refers,below⟩ := references acc known
  unfold outboundReferences at refers
  rw [kind] at refers
  obtain ⟨d,parsed,members⟩ := bind_ok refers
  cases members
  refine ⟨d,parsed,?_⟩
  intro tag member
  obtain ⟨p,there,_⟩ := below tag member
  refine ⟨p,there,?_⟩
  rw [(known_of acc there).2]
  obtain ⟨s,has⟩ := acc.shaped o.tag o known
  cases has with
  | selector there' kind' _ _ =>
    rw [known] at there'
    cases there'
    rw [kind] at kind'
    cases kind'
  | urltest there' _ parsed' plain =>
    rw [known] at there'
    cases there'
    rw [parsed] at parsed'
    cases parsed'
    exact plain tag member
  | leaf there' fixed _ =>
    rw [known] at there'
    cases there'
    exact absurd kind fixed.2
  | detour there' fixed _ _ =>
    rw [known] at there'
    cases there'
    exact absurd kind fixed.2

omit acc in
theorem exists_forall₂ {α β : Type} {R : α → β → Prop} {xs : List α} (each : ∀ x ∈ xs, ∃ y, R x y) : ∃ ys, List.Forall₂ R xs ys := by
  induction xs with
  | nil => exact ⟨[],.nil⟩
  | cons x rest ih =>
    obtain ⟨y,holds⟩ := each x List.mem_cons_self
    obtain ⟨ys,others⟩ := ih (fun x' later => each x' (List.mem_cons_of_mem _ later))
    exact ⟨y :: ys,.cons holds others⟩

omit acc in
theorem forall₂_right {α β : Type} {R : α → β → Prop} {P : β → Prop} {xs : List α} {ys : List β} (all : List.Forall₂ R xs ys)
    (holds : ∀ x ∈ xs, ∀ y, R x y → P y) : ∀ y ∈ ys, P y := by
  induction all with
  | nil => exact fun _ member => absurd member List.not_mem_nil
  | @cons x y xs ys one _ ih =>
    intro y' member
    rcases List.mem_cons.mp member with rfl | later
    · exact holds x List.mem_cons_self y' one
    · exact ih (fun x' earlier => holds x' (List.mem_cons_of_mem _ earlier)) y' later

theorem exists_urltestImage (known : Known catalog o) (kind : o.kind = .urltest) : ∃ a, UrltestImage ext catalog o a := by
  obtain ⟨d,parsed,members⟩ := urltest_members acc known kind
  have resolves (tag : String) (member : tag ∈ d.members) : ∃ c, Resolves ext catalog tag c := by
    obtain ⟨p,there,_⟩ := members tag member
    obtain ⟨real,stands⟩ := exists_real acc (known_of acc there).1
    exact ⟨⟨p,real⟩,there,stands⟩
  obtain ⟨resolved,resolution⟩ := exists_forall₂ resolves
  have chains (c : Candidate) (among : c ∈ firstByReal resolved) : ∃ hops, ChainOf ext catalog c.member hops := by
    refine forall₂_right (P := fun (c : Candidate) => ∃ hops, ChainOf ext catalog c.member hops) resolution ?_ c (mem_firstByReal among)
    intro tag member c resolves
    obtain ⟨p,there,plain⟩ := members tag member
    rw [resolves.1] at there
    cases there
    exact exists_chain acc (known_of acc resolves.1).1 plain
  obtain ⟨hops,compiled⟩ := exists_forall₂ chains
  exact ⟨_,d,resolved,hops,parsed,resolution,compiled,rfl⟩

end Catalogs

end NodeAgent.ClientChains
