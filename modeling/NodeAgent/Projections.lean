import NodeAgent.ProjectionBudget

/-!
Projections of an accepted catalog. The DNS servers that are assigned to its outbounds after
the checks change nothing about them, and a sequence of projections that share one budget gives
the chains that each outbound stands for.
-/
namespace NodeAgent.ClientChains
open NodeAgent.Api NodeAgent.Json NodeAgent.FiniteMap NodeAgent.OutboundAdapter NodeAgent.Outbounds NodeAgent.Fallible

variable {ext : Externals} {catalog : Catalog} {o p t : ValidatedOutbound}

/-! ### DNS servers of outbounds -/

/-- The catalog with the DNS server of every outbound, by its tag. -/
def assignResolvers (resolvers : String → Option String) (catalog : Catalog) : Catalog :=
  catalog.map (fun tag o => { o with shoesDnsResolver := resolvers tag })

section Assigned
variable {resolvers : String → Option String}

theorem lookup_assigned {tag : String} (there : catalog[tag]? = some o) :
    (assignResolvers resolvers catalog)[tag]? = some { o with shoesDnsResolver := resolvers tag } := by
  rw [assignResolvers,Std.ExtTreeMap.getElem?_map,there]
  rfl

theorem assigned_lookup {tag : String} (there : (assignResolvers resolvers catalog)[tag]? = some o) :
    ∃ o', catalog[tag]? = some o' ∧ o = { o' with shoesDnsResolver := resolvers tag } := by
  rw [assignResolvers,Std.ExtTreeMap.getElem?_map] at there
  cases found : catalog[tag]? with
  | none =>
    rw [found] at there
    cases there
  | some o' =>
    rw [found] at there
    cases there
    exact ⟨o',rfl,rfl⟩

theorem hasDepth_assigned {tag : String} {d : Nat} (deep : HasDepth ext catalog tag d) : HasDepth ext (assignResolvers resolvers catalog) tag d := by
  induction deep with
  | intro depths there refers positive less _ ih => exact .intro depths (lookup_assigned there) refers positive less ih

theorem hasShape_assigned {tag : String} {s : OutboundActionShape} (has : HasShape ext catalog tag s) :
    HasShape ext (assignResolvers resolvers catalog) tag s := by
  induction has with
  | selector there kind parsed _ ih => exact .selector (lookup_assigned there) kind parsed ih
  | urltest there kind parsed _ ih => exact .urltest (lookup_assigned there) kind parsed ih
  | leaf there fixed first => exact .leaf (lookup_assigned there) fixed first
  | detour there fixed behind _ ih => exact .detour (lookup_assigned there) fixed behind ih

/-- A name that is resolved in the catalog is resolved after the assignment. -/
theorem resolve_assigned {unknown what target : String} (resolved : resolve ext catalog unknown what target = .ok p) :
    ∃ p', resolve ext (assignResolvers resolvers catalog) unknown what target = .ok p' := by
  unfold resolve at resolved ⊢
  split at resolved
  · cases resolved
  · next o there =>
    rw [lookup_assigned there]
    split at resolved
    · cases resolved
    · next same => exact ⟨_,if_neg same⟩

theorem resolveMembers_assigned {tag : String} {members : List String} (resolved : resolveMembers ext catalog tag members = .ok ()) :
    resolveMembers ext (assignResolvers resolvers catalog) tag members = .ok () := by
  induction members with
  | nil => rfl
  | cons member rest ih =>
    obtain ⟨p,first,others⟩ := bind_ok resolved
    obtain ⟨p',first'⟩ := resolve_assigned first
    rw [resolveMembers,resolveMember,first']
    exact ih others

theorem validateClientOutbound_assigned {resolver : Option String} (checked : validateClientOutbound ext catalog o = .ok ()) :
    validateClientOutbound ext (assignResolvers resolvers catalog) { o with shoesDnsResolver := resolver } = .ok () := by
  unfold validateClientOutbound at checked ⊢
  split at checked
  · cases checked
  · next visible =>
    rw [if_neg visible]
    split at checked
    · next kind =>
      rw [if_pos kind]
      obtain ⟨s,compiled,resolved⟩ := bind_ok checked
      dsimp only
      rw [compiled]
      exact resolveMembers_assigned resolved
    · next kind =>
      rw [if_neg kind]
      obtain ⟨hop,compiled,finish⟩ := bind_ok checked
      cases behind : hop.detour with
      | none =>
        simp only [compiled,ok_bind,behind]
        rfl
      | some detour =>
        rw [behind] at finish
        obtain ⟨p,first,_⟩ := bind_ok finish
        have resolved : ∃ p', resolveDetour ext (assignResolvers resolvers catalog) o.tag detour = .ok p' := resolve_assigned first
        obtain ⟨p',again⟩ := resolved
        simp only [compiled,ok_bind,behind,again]
        rfl

theorem Accepted.assigned (acc : Accepted ext catalog) : Accepted ext (assignResolvers resolvers catalog) := by
  refine ⟨⟨?_,?_⟩,?_,?_,?_,?_⟩
  · intro tag o there
    obtain ⟨o',there',rfl⟩ := assigned_lookup there
    exact acc.indexed.tags tag o' there'
  · intro tag tag' o₁ o₂ there₁ there₂ same
    obtain ⟨o₁',there₁',rfl⟩ := assigned_lookup there₁
    obtain ⟨o₂',there₂',rfl⟩ := assigned_lookup there₂
    cases acc.indexed.ids tag tag' o₁' o₂' there₁' there₂' same
    have tags : tag = tag' := (acc.indexed.tags tag o₁' there₁').symm.trans (acc.indexed.tags tag' o₁' there₂')
    rw [tags]
  · intro tag o there kind
    obtain ⟨o',there',rfl⟩ := assigned_lookup there
    exact acc.urltests tag o' there' kind
  · intro tag o there kind
    obtain ⟨o',there',rfl⟩ := assigned_lookup there
    exact validateClientOutbound_assigned (acc.clients tag o' there' kind)
  · intro tag o there
    obtain ⟨o',there',_⟩ := assigned_lookup there
    obtain ⟨d,within,deep⟩ := acc.deep tag o' there'
    exact ⟨d,within,hasDepth_assigned deep⟩
  · intro tag o there
    obtain ⟨o',there',_⟩ := assigned_lookup there
    obtain ⟨s,has⟩ := acc.shaped tag o' there'
    exact ⟨s,hasShape_assigned has⟩

end Assigned

/-! ### Runs -/

variable (ext catalog) in
/-- Projections one after another; a failure keeps what is cached, and the next one goes on. -/
def projectEach (b : ClientChainProjectionBudget) : List ValidatedOutbound → List (Except CompileError CompiledOutboundAction)
  | [] => []
  | o :: rest => (outboundClientAction ext catalog o b).1 :: projectEach (outboundClientAction ext catalog o b).2 rest

theorem valid_default : Valid ext catalog .default := by
  refine ⟨?_,?_,?_,?_,?_,?_,by decide⟩
  · intro id p impossible
    simp [ClientChainProjectionBudget.default] at impossible
  · intro id p impossible
    simp [ClientChainProjectionBudget.default] at impossible
  · intro id t impossible
    simp [ClientChainProjectionBudget.default] at impossible
  · intro id s impossible
    simp [ClientChainProjectionBudget.default] at impossible
  · intro id a impossible
    simp [ClientChainProjectionBudget.default] at impossible
  · simp [ClientChainProjectionBudget.default]

variable (ext catalog) in
/-- The action is the one that the outbound stands for, whoever asks for it. -/
def Exact (o : ValidatedOutbound) (action : CompiledOutboundAction) : Prop :=
  ∃ t, Terminal ext catalog o t ∧
    (t.kind ≠ .urltest → ∃ hops, ChainOf ext catalog o hops ∧ action = ⟨clientChains [hops],none⟩) ∧
    (t.kind = .urltest → ∃ definition members hops selection, parseUrltestDefinition ext t = .ok definition ∧
      List.Forall₂ (Resolves ext catalog) definition.members members ∧
      List.Forall₂ (fun c h => ChainOf ext catalog c.member h) (firstByReal members) hops ∧
      action = ⟨clientChains hops,some selection⟩ ∧
      Fields.get selection "history_keys" = some (.array ((firstByReal members).map (fun c => .string c.real.tag))) ∧
      Fields.get selection "failure_history_keys" = some (.array ((firstByReal members).map (fun c => .string c.member.tag))))

theorem Projects.exact {action : CompiledOutboundAction} {bill : Bill} (projects : Projects ext catalog o action bill) : Exact ext catalog o action := by
  cases projects with
  | plain ends kind chain => exact ⟨_,ends,fun _ => ⟨_,chain,rfl⟩,fun kind' => absurd kind' kind⟩
  | urltest ends kind image =>
    refine ⟨_,ends,fun kind' => absurd kind kind',fun _ => ?_⟩
    obtain ⟨d,members,hops,parsed,resolution,chains,made⟩ := image
    refine ⟨d,members,hops,_,parsed,resolution,chains,by rw [made]; rfl,?_,?_⟩
    · simp [withHistory]
    · simp [withHistory]

variable (ext catalog) in
/-- Calls that are answered out of one ledger. A call whose bill fits gives the action of its
    outbound and is charged, every other one reports a limit and is charged nothing. -/
inductive Answered : Ledger → List ValidatedOutbound → List (Except CompileError CompiledOutboundAction) → Prop
  | done {l : Ledger} : Answered l [] []
  | projected {l : Ledger} {o : ValidatedOutbound} {action : CompiledOutboundAction} {bill : Bill} {calls : List ValidatedOutbound}
      {results : List (Except CompileError CompiledOutboundAction)} (projects : Projects ext catalog o action bill) (room : l.admits bill)
      (rest : Answered (l.settle bill) calls results) : Answered l (o :: calls) (.ok action :: results)
  | exceeded {l : Ledger} {o : ValidatedOutbound} {action : CompiledOutboundAction} {bill : Bill} {e : CompileError} {calls : List ValidatedOutbound}
      {results : List (Except CompileError CompiledOutboundAction)} (projects : Projects ext catalog o action bill) (full : ¬ l.admits bill)
      (limit : e.isLimit) (rest : Answered l calls results) : Answered l (o :: calls) (.error e :: results)

theorem projectEach_answered (acc : Accepted ext catalog) {calls : List ValidatedOutbound} (among : ∀ o ∈ calls, Known catalog o)
    {b : ClientChainProjectionBudget} (valid : Valid ext catalog b) : Answered ext catalog b.ledger calls (projectEach ext catalog b calls) := by
  induction calls generalizing b with
  | nil => exact .done
  | cons o rest ih =>
    have known := among o List.mem_cons_self
    have later : ∀ o ∈ rest, Known catalog o := fun o member => among o (List.mem_cons_of_mem _ member)
    obtain ⟨action,bill,projects⟩ := exists_projection acc known
    have met := outboundClientAction_meets acc valid known projects
    unfold Meets Ensures at met
    rw [projectEach]
    generalize outboundClientAction ext catalog o b = run at met ⊢
    obtain ⟨result,b'⟩ := run
    cases result with
    | error e =>
      obtain ⟨limit,full,valid',same⟩ := met
      have others := ih later valid'
      rw [same] at others
      exact .exceeded projects full limit others
    | ok a =>
      obtain ⟨rfl,room,valid',charged⟩ := met
      have others := ih later valid'
      rw [charged] at others
      exact .projected projects room others

/-- An action that a call gave is the one of its outbound, with the bill that goes with it. -/
theorem Answered.projects {l : Ledger} {calls : List ValidatedOutbound} {results : List (Except CompileError CompiledOutboundAction)}
    (answered : Answered ext catalog l calls results) {action : CompiledOutboundAction} (here : (o,.ok action) ∈ calls.zip results) :
    ∃ bill, Projects ext catalog o action bill := by
  induction answered with
  | done => cases here
  | projected projects _ _ ih =>
    rcases List.mem_cons.mp here with same | later
    · cases same
      exact ⟨_,projects⟩
    · exact ih later
  | exceeded _ _ _ _ ih =>
    rcases List.mem_cons.mp here with same | later
    · cases same
    · exact ih later

/-- After the checks of the catalog, projections that share a budget fail exactly when what
    the call is charged exceeds a limit, after what the calls before were charged. What they
    give is exact and does not depend on the calls before. -/
theorem projections_exact {values : List Outbound} (built : validateOutbounds ext values = .ok catalog)
    (checked : validateOutboundCatalog ext catalog = .ok ()) (resolvers : String → Option String) (calls : List ValidatedOutbound)
    (among : ∀ o ∈ calls, Known (assignResolvers resolvers catalog) o) :
    Answered ext (assignResolvers resolvers catalog) ⟨⟨0,0⟩,∅,0⟩ calls (projectEach ext (assignResolvers resolvers catalog) .default calls) ∧
    (∀ o action, (o,.ok action) ∈ calls.zip (projectEach ext (assignResolvers resolvers catalog) .default calls) →
      Exact ext (assignResolvers resolvers catalog) o action) ∧
    ∀ others : List ValidatedOutbound, (∀ o ∈ others, Known (assignResolvers resolvers catalog) o) → ∀ o action action',
      (o,.ok action) ∈ calls.zip (projectEach ext (assignResolvers resolvers catalog) .default calls) →
      (o,.ok action') ∈ others.zip (projectEach ext (assignResolvers resolvers catalog) .default others) → action = action' := by
  have acc : Accepted ext (assignResolvers resolvers catalog) := Accepted.assigned (accepted built checked)
  have answered := projectEach_answered acc among valid_default
  refine ⟨answered,?_,?_⟩
  · intro o action here
    obtain ⟨bill,projects⟩ := answered.projects here
    exact projects.exact
  · intro others among' o action action' here there
    obtain ⟨bill,projects⟩ := answered.projects here
    obtain ⟨bill',projects'⟩ := (projectEach_answered acc among' valid_default).projects there
    exact (projects.unique projects').1

mutual

def printed : Value → String
  | .null => "null"
  | .bool b => if b then "true" else "false"
  | .number (.natural n) => toString n
  | .number (.negative n) => s!"-{n}"
  | .number (.float text) => text
  | .string s => s!"\"{s}\""
  | .array values => "[" ++ String.intercalate "," (printedEach values) ++ "]"
  | .object fields => "\x7b" ++ String.intercalate "," (printedFields fields) ++ "\x7d"

def printedEach : List Value → List String
  | [] => []
  | value :: rest => printed value :: printedEach rest

def printedFields : List (String × Value) → List String
  | [] => []
  | (name,value) :: rest => s!"\"{name}\":{printed value}" :: printedFields rest

end

/-- Texts without characters that must be escaped; no address, duration or digest occurs. -/
def plainTexts : Externals := ⟨fun s => s!"\"{s}\"",fun _ => none,fun _ => "",fun _ => .error "invalid duration",printed,fun _ => ""⟩

/-- A URLTest over a selector and the member of that selector. -/
def urltestCatalog : List Outbound := [⟨"direct","a",.empty⟩,⟨"selector","s",.value (.object [("outbounds",.array [.string "a"])])⟩,
  ⟨"urltest","u",.value (.object [("outbounds",.array [.string "s",.string "a"])])⟩]

def memberOutbound : ValidatedOutbound := ⟨0,.direct,"a",[],[],none,none⟩

def selectorOutbound : ValidatedOutbound := ⟨1,.selector,"s",[("outbounds",.array [.string "a"])],[("outbounds",.array [.string "a"])],none,none⟩

def urltestOutbound : ValidatedOutbound :=
  ⟨2,.urltest,"u",[("outbounds",.array [.string "s",.string "a"])],[("outbounds",.array [.string "s",.string "a"])],none,none⟩

def urltestOutbounds : Catalog :=
  (((∅ : Catalog).insert "a" memberOutbound).insert "s" selectorOutbound).insert "u" urltestOutbound

set_option maxRecDepth 4000 in
theorem projections_exact_urltest : validateOutbounds plainTexts urltestCatalog = .ok urltestOutbounds ∧
    validateOutboundCatalog plainTexts urltestOutbounds = .ok () ∧ ∃ group plain member again,
    projectEach plainTexts (assignResolvers (fun _ => none) urltestOutbounds) .default [urltestOutbound,selectorOutbound,memberOutbound,urltestOutbound] =
      [.ok group,.ok plain,.ok member,.ok again] ∧
    Answered plainTexts (assignResolvers (fun _ => none) urltestOutbounds) ⟨⟨0,0⟩,∅,0⟩
      [urltestOutbound,selectorOutbound,memberOutbound,urltestOutbound] [.ok group,.ok plain,.ok member,.ok again] ∧
    Exact plainTexts (assignResolvers (fun _ => none) urltestOutbounds) urltestOutbound group ∧
    Exact plainTexts (assignResolvers (fun _ => none) urltestOutbounds) selectorOutbound plain ∧
    Exact plainTexts (assignResolvers (fun _ => none) urltestOutbounds) memberOutbound member ∧ group = again := by
  refine ⟨rfl,rfl,?_⟩
  have among : ∀ o ∈ [urltestOutbound,selectorOutbound,memberOutbound,urltestOutbound], Known (assignResolvers (fun _ => none) urltestOutbounds) o := by
    simp only [List.mem_cons,List.not_mem_nil,or_false]
    rintro o (rfl | rfl | rfl | rfl)
    all_goals rfl
  obtain ⟨answered,exact,same⟩ := @projections_exact plainTexts urltestOutbounds urltestCatalog rfl rfl (fun _ => none) _ among
  have same := same _ among
  have succeeded : (projectEach plainTexts (assignResolvers (fun _ => none) urltestOutbounds) .default
      [urltestOutbound,selectorOutbound,memberOutbound,urltestOutbound]).map Except.isOk = [true,true,true,true] := by decide +kernel
  generalize projectEach plainTexts (assignResolvers (fun _ => none) urltestOutbounds) .default _ = results at answered exact same succeeded ⊢
  have whole := answered
  cases answered with
  | exceeded => cases succeeded
  | projected _ _ answered => cases answered with
    | exceeded => cases succeeded
    | projected _ _ answered => cases answered with
      | exceeded => cases succeeded
      | projected _ _ answered => cases answered with
        | exceeded => cases succeeded
        | projected _ _ answered =>
          cases answered
          refine ⟨_,_,_,_,rfl,whole,?_,?_,?_,?_⟩
          · exact exact _ _ (.head _)
          · exact exact _ _ (.tail _ (.head _))
          · exact exact _ _ (.tail _ (.tail _ (.head _)))
          · exact same _ _ _ (.head _) (.tail _ (.tail _ (.tail _ (.head _))))

end NodeAgent.ClientChains
