import NodeAgent.NodeByNode
import NodeAgent.PaddedRuntimes

/-!
What compiled route rules carry over. A compiled rule has the conditions that are given in the
rule as the fields of its `match` object, and does what the rule does. Whatever predicate the
fields stand for, the compiled rules of an inbound decide every connection as the first rule of
the route for the inbound that decides it, and otherwise as the final outbound.
-/
namespace NodeAgent.RouteMeaning
open NodeAgent.Api NodeAgent.Json NodeAgent.FiniteMap NodeAgent.OutboundAdapter NodeAgent.Outbounds NodeAgent.ClientChains NodeAgent.RouteRules
open NodeAgent.DnsServers NodeAgent.Compile NodeAgent.Fallible
open NodeAgent.Runtime (CompiledInbound)

/-! ### What a rule asks -/

/-- Only values that are given are asked for. -/
def condition (name : String) (values : List Value) : List (String × Value) := if values.isEmpty then [] else [(name,.array values)]

/-- The files of rule sets. -/
def ruleSetValues (ruleSets : RuleSets) (tags : List String) : List Value := tags.filterMap (fun tag => (ruleSets[tag]?).map RuleSetReference.value)

/-- All conditions of a rule but the one on its inbound. -/
def conditions (ruleSets : RuleSets) (rule : RouteRule) : List (String × Value) :=
  condition "domain" (strings rule.domain) ++ condition "domain_suffix" (strings rule.domainSuffix) ++
    condition "domain_keyword" (strings rule.domainKeyword) ++ condition "domain_regex" (strings rule.domainRegex) ++
    condition "ip_cidr" (strings rule.ipCidr) ++ condition "ip_version" (if rule.ipVersion = 0 then [] else numbers [rule.ipVersion]) ++
    condition "port" (numbers rule.port) ++ condition "port_range" (strings rule.portRange) ++ condition "network" (strings rule.network) ++
    condition "protocol" (strings rule.protocol) ++ condition "rule_set" (ruleSetValues ruleSets rule.ruleSet)

/-- No `match` object is written without fields. -/
def matchObject (fields : Fields) : Option Fields := if fields.isEmpty then none else some fields

/-- The `match` object of a rule. -/
def ruleObject (ruleSets : RuleSets) (rule : RouteRule) : Option Fields :=
  matchObject (Fields.of (conditions ruleSets rule ++ if rule.invert then [("invert",.bool true)] else []))

/-! ### Meanings -/

section Meanings
variable {C : Type} (accepts : Option Fields → C → Bool) (ruleSets : RuleSets)

/-- The rule decides a connection on an inbound: it is a rule for the inbound, and its `match` object accepts the connection. -/
def decides (inboundTag : String) (c : C) (rule : RouteRule) : Bool := appliesTo inboundTag rule && accepts (ruleObject ruleSets rule) c

/-- The rule with its inbound as one of the conditions that it inverts. -/
def decidesAsWritten (inboundTag : String) (c : C) (rule : RouteRule) : Bool :=
  rule.invert ^^ (appliesTo inboundTag rule && accepts (matchObject (Fields.of (conditions ruleSets rule))) c)

/-- The flag of an inverted rule inverts what the other fields say. -/
def Inverts : Prop :=
  ∀ (fields : Fields) (c : C), Fields.get fields "invert" = none →
    accepts (some (Fields.insert fields "invert" (.bool true))) c = !accepts (matchObject fields) c

end Meanings

inductive Verdict
  | block
  | allow (action : Option CompiledOutboundAction)

/-- What a rule does, in a compiled rule. -/
def Verdict.fields : Verdict → Fields
  | .block => ruleWith "block"
  | .allow none => ruleWith "allow"
  | .allow (some action) => applyOutboundAction (ruleWith "allow") "client_chains" action

section Verdicts
variable (ext : Externals) (catalog : Catalog) (ruleSets : RuleSets)

inductive Does (rule : RouteRule) : Verdict → Prop
  | reject (rejects : rule.action ∈ ["reject","reject-drop"]) : Does rule .block
  | allow (routes : rule.action ∈ ["","route"]) (unnamed : rule.outbound = "") : Does rule (.allow none)
  | route {o : ValidatedOutbound} {action : CompiledOutboundAction} {bill : Bill} (routes : rule.action ∈ ["","route"])
      (names : catalog[rule.outbound]? = some o) (projects : Projects ext catalog o action bill) : Does rule (.allow (some action))

def finalTag (route : Option Route) : String :=
  if ((route.map Route.final).getD "").isEmpty then DEFAULT_DIRECT_OUTBOUND else (route.map Route.final).getD ""

/-- What is done with a connection that no rule decides. -/
inductive DoesFinally (route : Option Route) : Verdict → Prop
  | final {o : ValidatedOutbound} {action : CompiledOutboundAction} {bill : Bill} (names : catalog[finalTag route]? = some o)
      (projects : Projects ext catalog o action bill) : DoesFinally route (.allow (some action))

/-- What the route does with a connection on an inbound. -/
def Routes {C : Type} (accepts : Option Fields → C → Bool) (route : Option Route) (inboundTag : String) (c : C) (verdict : Verdict) : Prop :=
  match (routeRules route).find? (decides accepts ruleSets inboundTag c) with
  | some rule => Does ext catalog rule verdict
  | none => DoesFinally ext catalog route verdict

end Verdicts

/-! ### Compiled rules -/

/-- The `match` object of a compiled rule. -/
def matchOf (fields : Fields) : Option Fields :=
  match Fields.get fields "match" with
  | some (.object matcher) => some matcher
  | _ => none

def ruleMatches {C : Type} (accepts : Option Fields → C → Bool) (c : C) : Value → Bool
  | .object fields => accepts (matchOf fields) c
  | _ => false

/-- A compiled rule without its conditions. -/
def effect : Value → Fields
  | .object fields => Fields.without fields "match"
  | _ => []

/-! ### Conditions -/

section Conditions
variable {fields matcher : Fields} {name : String} {value : Value} {values : List Value} {ext : Externals} {ruleSets : RuleSets} {rule : RouteRule}

theorem without_fresh (fresh : Fields.get fields name = none) : Fields.without fields name = fields := by
  induction fields with
  | nil => rfl
  | cons field rest ih =>
    obtain ⟨k,v⟩ := field
    rw [Fields.get] at fresh
    split at fresh
    · cases fresh
    · next different =>
      rw [Fields.without,List.filter_cons_of_pos (by simpa using different)]
      exact congrArg _ (ih fresh)

theorem without_insert (fresh : Fields.get fields name = none) : Fields.without (Fields.insert fields name value) name = fields := by
  induction fields with
  | nil => simp [Fields.insert,Fields.without]
  | cons field rest ih =>
    obtain ⟨k,v⟩ := field
    have unchanged := without_fresh fresh
    rw [Fields.get] at fresh
    split at fresh
    · cases fresh
    · next different =>
      rw [Fields.insert,if_neg different]
      split
      · rw [Fields.without,List.filter_cons_of_neg (by simp)]
        exact unchanged
      · rw [Fields.without,List.filter_cons_of_pos (by simpa using different)]
        exact congrArg _ (ih fresh)

theorem of_append_one (given : List (String × Value)) (name : String) (value : Value) :
    Fields.of (given ++ [(name,value)]) = Fields.insert (Fields.of given) name value := by
  rw [Fields.of,Fields.of,List.foldl_append]
  rfl

theorem insertNonEmpty_of (given : List (String × Value)) (name : String) (values : List Value) :
    insertNonEmpty (Fields.of given) name values = Fields.of (given ++ condition name values) := by
  unfold insertNonEmpty condition
  split
  · rw [List.append_nil]
  · exact (of_append_one given name _).symm

theorem ruleSetReferences_values {unknown : String → String} {tags : List String} {references : List Value}
    (known : ruleSetReferences ruleSets unknown tags = .ok references) : references = ruleSetValues ruleSets tags := by
  induction tags generalizing references with
  | nil =>
    cases known
    rfl
  | cons tag rest ih =>
    rw [ruleSetReferences] at known
    split at known
    · cases known
    · next reference there =>
      obtain ⟨others,listed,known⟩ := bind_ok known
      cases known
      rw [ih listed,ruleSetValues,ruleSetValues,List.filterMap_cons,there]
      rfl

theorem insertIpVersion_eq {version : Nat} {versioned : Fields} (done : insertIpVersion matcher version = .ok versioned) :
    versioned = insertNonEmpty matcher "ip_version" (if version = 0 then [] else numbers [version]) := by
  unfold insertIpVersion at done
  split at done
  · next unset =>
    cases done
    rw [if_pos unset]
    rfl
  · next given =>
    split at done
    · cases done
    · cases done
      rw [if_neg given]
      rfl

theorem get_of_other {entries : List (String × Value)} (others : ∀ entry ∈ entries, entry.1 ≠ name) :
    Fields.get (Fields.of entries) name = none := by
  have general : ∀ (entries : List (String × Value)) (fields : Fields), (∀ entry ∈ entries, entry.1 ≠ name) →
      Fields.get (entries.foldl (fun fields entry => Fields.insert fields entry.1 entry.2) fields) name = Fields.get fields name := by
    intro entries
    induction entries with
    | nil => exact fun _ _ => rfl
    | cons entry rest ih =>
      intro fields others
      rw [List.foldl_cons,ih _ (fun later member => others later (List.mem_cons_of_mem _ member)),get_insert,if_neg (others entry List.mem_cons_self)]
  exact general entries [] others

theorem condition_name {entry : String × Value} (given : entry ∈ condition name values) : entry.1 = name := by
  unfold condition at given
  split at given
  · cases given
  · rw [List.mem_singleton.mp given]

theorem conditions_plain : Fields.get (Fields.of (conditions ruleSets rule)) "invert" = none := by
  refine get_of_other ?_
  intro entry given
  simp only [conditions,List.mem_append,or_assoc] at given
  rcases given with given | given | given | given | given | given | given | given | given | given | given
  all_goals
    rw [condition_name given]
    decide

/-- The conditions of a rule are the fields that they are compiled to. -/
theorem compileConditions_eq (compiled : compileConditions ext ruleSets rule = .ok matcher) : matcher = Fields.of (conditions ruleSets rule) := by
  obtain ⟨versioned,version,compiled⟩ := bind_ok compiled
  obtain ⟨ported,ports,compiled⟩ := bind_ok compiled
  obtain ⟨ranged,ranges,compiled⟩ := bind_ok compiled
  obtain ⟨networked,networks,compiled⟩ := bind_ok compiled
  obtain ⟨sniffed,protocols,compiled⟩ := bind_ok compiled
  obtain ⟨references,known,compiled⟩ := bind_ok compiled
  obtain ⟨_,_,ports⟩ := bind_ok ports
  obtain ⟨_,_,ranges⟩ := bind_ok ranges
  obtain ⟨_,_,networks⟩ := bind_ok networks
  obtain ⟨_,_,protocols⟩ := bind_ok protocols
  cases insertIpVersion_eq version
  cases ports
  cases ranges
  cases networks
  cases protocols
  cases ruleSetReferences_values known
  cases compiled
  have nothing : ([] : Fields) = Fields.of [] := rfl
  rw [nothing,conditions]
  simp only [insertNonEmpty_of,List.nil_append]

/-- The `match` object of a compiled rule is that of the rule. -/
theorem matchOf_compiled (compiled : compileRouteMatch ext ruleSets rule = .ok matcher) (bare : Fields.get fields "match" = none) :
    matchOf (if matcher.isEmpty then fields else Fields.insert fields "match" (.object matcher)) = ruleObject ruleSets rule := by
  obtain ⟨_,_,compiled⟩ := bind_ok compiled
  obtain ⟨asked,conditioned,compiled⟩ := bind_ok compiled
  cases compileConditions_eq conditioned
  have flagged : matcher = Fields.of (conditions ruleSets rule ++ if rule.invert then [("invert",.bool true)] else []) := by
    cases compiled
    split
    · exact (of_append_one ..).symm
    · rw [List.append_nil]
  rw [ruleObject,← flagged,matchObject]
  split
  · rw [matchOf,bare]
  · simp only [matchOf,get_insert,↓reduceIte]

end Conditions

/-! ### Rules -/

section Rules
variable {ext : Externals} {catalog : Catalog} {ruleSets : RuleSets} {rule : RouteRule} {value : Value}

/-- A compiled rule does what the rule does, and asks what the rule asks. -/
structure Compiled (ext : Externals) (catalog : Catalog) (ruleSets : RuleSets) (rule : RouteRule) (value : Value) : Prop where
  does : ∃ verdict, Does ext catalog rule verdict ∧ effect value = verdict.fields
  asks : ∃ fields, value = .object fields ∧ matchOf fields = ruleObject ruleSets rule

/-- A compiled rule that asks nothing. -/
structure CompiledFinal (ext : Externals) (catalog : Catalog) (route : Option Route) (value : Value) : Prop where
  does : ∃ verdict, DoesFinally ext catalog route verdict ∧ effect value = verdict.fields
  asks : ∃ fields, value = .object fields ∧ matchOf fields = none

theorem verdict_bare (verdict : Verdict) : Fields.get verdict.fields "match" = none := by
  cases verdict with
  | block => rfl
  | allow action =>
    cases action with
    | none => rfl
    | some action => cases selection : action.clientChainSelection <;> simp [Verdict.fields,applyOutboundAction,ruleWith,Fields.of,Fields.insertSome,selection,Fields.get]

/-- What a rule does is what its action and its outbound say. -/
theorem withOutbound_does (acc : Accepted ext catalog) {index : Nat} {action : String} {outbound : Option ValidatedOutbound}
    (acts : compileRuleAction ext catalog rule index = .ok (action,outbound)) :
    Delivers (Valid ext catalog) (fun fields => ∃ verdict, Does ext catalog rule verdict ∧ fields = verdict.fields)
      (withOutbound ext catalog (ruleWith action) outbound) := by
  unfold compileRuleAction at acts
  split at acts
  · next rejects =>
    split at acts
    · cases acts
    · cases acts
      exact .pure ⟨.block,.reject rejects,rfl⟩
  · split at acts
    · next routes =>
      split at acts
      · cases acts
      · split at acts
        · next unnamed =>
          cases acts
          exact .pure ⟨.allow none,.allow routes (by simpa using unnamed),rfl⟩
        · split at acts
          · cases acts
          · next o there =>
            cases acts
            have known : Known catalog o := by
              rw [Known,acc.indexed.tags _ _ there]
              exact there
            obtain ⟨action,bill,projects⟩ := exists_projection acc known
            exact (Follows.outboundClientAction acc known projects).delivers.bind (fun made same =>
              .pure ⟨.allow (some action),.route routes there projects,by rw [same]; rfl⟩)
    · cases acts

theorem compileRouteRule_compiles (acc : Accepted ext catalog) (index : Nat) :
    Delivers (Valid ext catalog) (Compiled ext catalog ruleSets rule) (compileRouteRule ext catalog ruleSets rule index) := by
  refine delivers_check (fun _ _ => delivers_check ?_)
  rintro ⟨action,outbound⟩ acts
  refine delivers_check (fun matcher matched => (withOutbound_does acc acts).bind ?_)
  rintro _ ⟨verdict,does,rfl⟩
  refine .pure ⟨⟨verdict,does,?_⟩,_,rfl,matchOf_compiled matched (verdict_bare verdict)⟩
  split
  · exact without_fresh (verdict_bare verdict)
  · exact without_insert (verdict_bare verdict)

/-- The rules of an inbound are the rules that apply to it, and the final one. -/
def RulesOf (ext : Externals) (catalog : Catalog) (ruleSets : RuleSets) (route : Option Route) (inboundTag : String) (values : List Value) : Prop :=
  ∃ compiled final, values = compiled ++ [final] ∧ List.Forall₂ (Compiled ext catalog ruleSets) ((routeRules route).filter (appliesTo inboundTag)) compiled ∧
    CompiledFinal ext catalog route final

theorem finalOutbound_named {route : Option Route} {o : ValidatedOutbound} (done : finalOutbound ext catalog route = .ok o) :
    catalog[finalTag route]? = some o := by
  unfold finalOutbound at done
  unfold finalTag
  dsimp only at done
  split at done
  · next unnamed =>
    rw [if_pos unnamed]
    split at done
    · cases done
    · next there =>
      cases done
      exact there
  · next named =>
    rw [if_neg named]
    split at done
    · cases done
    · next there =>
      cases done
      exact there

theorem compileRulesForInbound_rules (acc : Accepted ext catalog) (route : Option Route) (inboundTag : String) (sniffEnabled : Bool) :
    Delivers (Valid ext catalog) (RulesOf ext catalog ruleSets route inboundTag)
      (compileRulesForInbound ext catalog ruleSets route inboundTag sniffEnabled) := by
  have loop : Delivers (Valid ext catalog)
      (fun values => List.Forall₂ (Compiled ext catalog ruleSets) (((routeRules route).zipIdx.map Prod.fst).filter (appliesTo inboundTag)) values)
      (foldEach (addRule ext catalog ruleSets inboundTag sniffEnabled) [] (routeRules route).zipIdx) := by
    refine Delivers.foldEach (fun done values => List.Forall₂ (Compiled ext catalog ruleSets) ((done.map Prod.fst).filter (appliesTo inboundTag)) values)
      .nil ?_
    intro done entry rest values _ held
    rw [List.map_append,List.filter_append,List.map_singleton]
    unfold addRule
    cases applies : appliesTo inboundTag entry.1 with
    | false =>
      rw [List.filter_cons_of_neg (by rw [applies]; exact Bool.false_ne_true),List.filter_nil,List.append_nil]
      exact .pure held
    | true =>
      rw [List.filter_cons_of_pos applies,List.filter_nil,if_neg (by decide)]
      split
      · exact .fail _
      · exact (compileRouteRule_compiles acc entry.2).bind (fun value own => .pure (List.rel_append held (.cons own .nil)))
  rw [List.zipIdx_map_fst] at loop
  refine loop.bind (fun values held => delivers_check (fun o final => ?_))
  have named := finalOutbound_named final
  obtain ⟨action,bill,projects⟩ := exists_projection acc (finalOutbound_known acc.indexed final)
  have gives : Delivers (Valid ext catalog) (fun fields => fields = (Verdict.allow (some action)).fields)
      (withOutbound ext catalog (ruleWith "allow") (some o)) :=
    (Follows.outboundClientAction acc (finalOutbound_known acc.indexed final) projects).delivers.bind (fun made same => .pure (by rw [same]; rfl))
  refine gives.bind ?_
  rintro _ rfl
  have bare := verdict_bare (.allow (some action))
  refine .pure ⟨values,_,rfl,held,⟨_,.final named projects,without_fresh bare⟩,_,rfl,?_⟩
  rw [matchOf,bare]

end Rules

/-! ### The first rule -/

section First
variable {ext : Externals} {catalog : Catalog} {ruleSets : RuleSets} {route : Option Route} {inboundTag : String} {values : List Value}
  {C : Type} {accepts : Option Fields → C → Bool}

/-- The first compiled rule that matches is the image of the first rule that decides. -/
theorem RulesOf.first (bare : ∀ c, accepts none c = true) (own : RulesOf ext catalog ruleSets route inboundTag values) (c : C) :
    ∃ value verdict, values.find? (ruleMatches accepts c) = some value ∧ effect value = verdict.fields ∧
      Routes ext catalog ruleSets accepts route inboundTag c verdict := by
  obtain ⟨compiled,final,rfl,related,⟨⟨verdict,does,acts⟩,fields,rfl,asks_nothing⟩⟩ := own
  have always : ruleMatches accepts c (.object fields) = true := by rw [ruleMatches,asks_nothing,bare]
  unfold Routes
  generalize routeRules route = rules at related
  induction rules generalizing compiled with
  | nil =>
    cases related
    exact ⟨_,verdict,List.find?_cons_of_pos always,acts,does⟩
  | cons rule rest ih =>
    cases applies : appliesTo inboundTag rule with
    | false =>
      rw [List.filter_cons_of_neg (by rw [applies]; exact Bool.false_ne_true)] at related
      rw [List.find?_cons_of_neg (by simp [decides,applies])]
      exact ih compiled related
    | true =>
      rw [List.filter_cons_of_pos applies] at related
      obtain _ | ⟨own,others⟩ := related
      obtain ⟨asked,rfl,asks⟩ := own.asks
      have same : ruleMatches accepts c (.object asked) = decides accepts ruleSets inboundTag c rule := by
        rw [ruleMatches,asks,decides,applies,Bool.true_and]
      cases decided : decides accepts ruleSets inboundTag c rule with
      | false =>
        rw [List.cons_append,List.find?_cons_of_neg (by rw [same,decided]; exact Bool.false_ne_true),
          List.find?_cons_of_neg (by rw [decided]; exact Bool.false_ne_true)]
        exact ih _ others
      | true =>
        obtain ⟨own_verdict,own_does,own_acts⟩ := own.does
        rw [List.cons_append,List.find?_cons_of_pos (same.trans decided),List.find?_cons_of_pos decided]
        exact ⟨_,own_verdict,rfl,own_acts,own_does⟩

/-- Where the flag inverts, a rule for the inbound decides as it is written. -/
theorem decides_inverted (inverts : Inverts accepts) (c : C) (rule : RouteRule) : decides accepts ruleSets inboundTag c rule =
    (appliesTo inboundTag rule && (rule.invert ^^ accepts (matchObject (Fields.of (conditions ruleSets rule))) c)) := by
  rw [decides,ruleObject]
  cases rule.invert with
  | false =>
    rw [if_neg Bool.false_ne_true,List.append_nil,Bool.false_xor]
  | true =>
    have filled : (Fields.insert (Fields.of (conditions ruleSets rule)) "invert" (.bool true)).isEmpty = false := by
      rw [List.isEmpty_eq_false_iff]
      intro empty
      have impossible := congrArg (fun matcher => Fields.get matcher "invert") empty
      simp [Fields.get] at impossible
    rw [if_pos rfl,of_append_one,matchObject,filled,if_neg Bool.false_ne_true,inverts _ _ conditions_plain,Bool.true_xor]

/-- Rules decide as they are written if and only if the first one that does so as written applies to the inbound. -/
theorem written_iff (inverts : Inverts accepts) (rules : List RouteRule) (c : C) :
    rules.find? (decidesAsWritten accepts ruleSets inboundTag c) = rules.find? (decides accepts ruleSets inboundTag c) ↔
      ∀ rule, rules.find? (decidesAsWritten accepts ruleSets inboundTag c) = some rule → appliesTo inboundTag rule = true := by
  constructor
  · intro same rule first
    rw [same] at first
    have decided := List.find?_some first
    exact (Bool.and_eq_true _ _ ▸ decided).1
  · intro applies
    induction rules with
    | nil => rfl
    | cons rule rest ih =>
      have meant := @decides_inverted ruleSets inboundTag C accepts inverts c rule
      cases written : decidesAsWritten accepts ruleSets inboundTag c rule with
      | true =>
        rw [List.find?_cons_of_pos written] at applies ⊢
        have own := applies rule rfl
        have decided : decides accepts ruleSets inboundTag c rule = true := by
          rw [meant,own,Bool.true_and]
          rwa [decidesAsWritten,own,Bool.true_and] at written
        rw [List.find?_cons_of_pos decided]
      | false =>
        have undecided : decides accepts ruleSets inboundTag c rule = false := by
          rw [meant]
          unfold decidesAsWritten at written
          cases own : appliesTo inboundTag rule with
          | false => rfl
          | true =>
            rw [own,Bool.true_and] at written
            rw [written]
            rfl
        rw [List.find?_cons_of_neg (by rw [written]; exact Bool.false_ne_true)] at applies ⊢
        rw [List.find?_cons_of_neg (by rw [undecided]; exact Bool.false_ne_true)]
        exact ih applies

end First

/-! ### Topologies -/

section Topologies
variable {x : CompileExternals} {topology : MachineTopology} {route : Option Route} {surface : Surface}

/-- The rules of a completed inbound. -/
def HasRules (x : CompileExternals) (surface : Surface) (inbound : CompiledInbound Value) : Prop :=
  ∃ values, inbound.spec.config.get "rules" = some (.array values) ∧
    RulesOf x.ext surface.projection.outbounds surface.ruleSets surface.route inbound.spec.tag values

theorem completeInbound_rules (acc : Accepted x.ext surface.projection.outbounds) {sniffEnabled : Map String Bool} {inbound : CompiledInbound Value}
    (object : ∃ fields, inbound.spec.config = .object fields) :
    Delivers (Valid x.ext surface.projection.outbounds) (HasRules x surface) (completeInbound x surface sniffEnabled inbound) := by
  refine (compileRulesForInbound_rules acc _ _ _).bind (fun values own => (compileDns_planned _ _ _ acc).delivers.bind (fun dns _ => .pure ⟨values,?_,own⟩))
  obtain ⟨fields,shape⟩ := object
  simp [withRulesAndDns,shape]

theorem emitTopology_rules (acc : Accepted x.ext surface.projection.outbounds) {collected : Collected}
    (objects : ∀ inbound ∈ collected.inbounds, ∃ fields, inbound.spec.config = .object fields) :
    Delivers (Valid x.ext surface.projection.outbounds) (fun out => ∀ inbound ∈ out.runtime.inbounds, HasRules x surface inbound)
      (emitTopology x topology route collected surface) := by
  have inbounds : Delivers (Valid x.ext surface.projection.outbounds) (fun completed => ∀ inbound ∈ completed, HasRules x surface inbound)
      (foldEach (addInbound x surface collected.sniffEnabled) [] collected.inbounds) := by
    refine Delivers.foldEach (fun _ completed => ∀ inbound ∈ completed, HasRules x surface inbound) (fun _ member => absurd member List.not_mem_nil) ?_
    intro done inbound rest completed split held
    have listed : inbound ∈ collected.inbounds := by
      rw [split]
      exact List.mem_append_right _ List.mem_cons_self
    refine (completeInbound_rules acc (objects inbound listed)).bind (fun own rules => .pure ?_)
    intro other member
    rcases List.mem_append.mp member with old | new
    · exact held other old
    · exact List.mem_singleton.mp new ▸ rules
  exact (compileDns_planned _ _ _ acc).delivers.bind (fun _ _ => inbounds.bind (fun completed held => delivers_check (fun _ _ => .pure held)))

/-- On every inbound of a topology that compiles, the compiled rules are those of the route for the inbound, in order, and the
    final one, each with what the rule asks and does. So whatever `match` objects accept, the first compiled rule that matches a
    connection does what the first rule of the route that decides it does, or what the final outbound does when none decides it.
    Where the flag inverts, the rules decide as they are written if and only if the first one to do so as written is a rule for
    the inbound. -/
theorem first_match {out : CompileOutput} (done : compileWithRoute x topology route = .ok out) :
    ∃ surface, compileSurface x topology route = .ok surface ∧ ∀ inbound ∈ out.runtime.inbounds, ∃ values,
      inbound.spec.config.get "rules" = some (.array values) ∧
      RulesOf x.ext surface.projection.outbounds surface.ruleSets route inbound.spec.tag values ∧
      ∀ (C : Type) (accepts : Option Fields → C → Bool), (∀ c, accepts none c = true) → ∀ c,
        (∃ value verdict, values.find? (ruleMatches accepts c) = some value ∧ effect value = verdict.fields ∧
          Routes x.ext surface.projection.outbounds surface.ruleSets accepts route inbound.spec.tag c verdict) ∧
        (Inverts accepts →
          ((routeRules route).find? (decidesAsWritten accepts surface.ruleSets inbound.spec.tag c) =
              (routeRules route).find? (decides accepts surface.ruleSets inbound.spec.tag c) ↔
            ∀ rule, (routeRules route).find? (decidesAsWritten accepts surface.ruleSets inbound.spec.tag c) = some rule →
              appliesTo inbound.spec.tag rule = true)) := by
  unfold compileWithRoute at done
  obtain ⟨e,failed⟩ | ⟨collected,surface,nodes,surfaced,same⟩ := compileTopology_cases x topology route
  · rw [failed] at done
    cases done
  obtain ⟨catalog,passes⟩ := surface_passes surfaced
  obtain ⟨more,listed,compiled⟩ := collectNodes_inbounds nodes
  have objects : ∀ inbound ∈ collected.inbounds, ∃ fields, inbound.spec.config = .object fields := by
    rw [listed]
    exact forall₂_right (P := fun inbound : CompiledInbound Value => ∃ fields, inbound.spec.config = .object fields) compiled
      (fun _ _ _ from_node => compiledFrom_object from_node)
  rw [same] at done
  have rules := (emitTopology_rules passes.accepted objects).result valid_default done
  refine ⟨surface,surfaced,fun inbound member => ?_⟩
  obtain ⟨values,there,own⟩ := rules inbound member
  rw [passes.route_eq] at own
  exact ⟨values,there,own,fun C accepts bare c => ⟨own.first bare c,fun inverts => written_iff inverts _ c⟩⟩

end Topologies

/-- `match` objects on the protocol of a connection alone, with the flag. -/
def protocolAccepts (object : Option Fields) (protocol : String) : Bool :=
  match object with
  | none => true
  | some fields => (Fields.get fields "invert").isSome ^^ (match Fields.get fields "protocol" with
    | some (.array protocols) => protocols.any (fun own => own.asStr = some protocol)
    | _ => true)

/-- One rule for one inbound, for a connection that it decides. -/
theorem tagged_first_match : ∃ out, compileWithRoute sampleExternals (taggedTopology "a" ["tls"]) (some (taggedRoute "a" ["tls"])) = .ok out ∧
    ∃ inbound ∈ out.runtime.inbounds, inbound.spec.tag = "a" ∧ ∃ surface values value verdict,
      compileSurface sampleExternals (taggedTopology "a" ["tls"]) (some (taggedRoute "a" ["tls"])) = .ok surface ∧
      inbound.spec.config.get "rules" = some (.array values) ∧ values.find? (ruleMatches protocolAccepts "tls") = some value ∧
      effect value = verdict.fields ∧ ∃ rule ∈ (taggedRoute "a" ["tls"]).rules,
        decides protocolAccepts surface.ruleSets "a" "tls" rule = true ∧ Does sampleTexts surface.projection.outbounds rule verdict := by
  have compiles : (compileWithWarnings sampleExternals (taggedTopology "a" ["tls"])).toOption.map
      (fun out => out.runtime.inbounds.map (fun inbound => inbound.spec.tag)) = some ["a"] := by
    rw [tagged_decoding sample_parsed.1]
    decide +kernel
  obtain ⟨out,done,tags⟩ := Option.map_eq_some_iff.mp compiles
  have done : compileWithRoute sampleExternals (taggedTopology "a" ["tls"]) (some (taggedRoute "a" ["tls"])) = .ok out := by
    change (compileWithRoute sampleExternals (taggedTopology "a" ["tls"]) (some (taggedRoute "a" ["tls"]))).toOption = some out at done
    generalize compileWithRoute sampleExternals (taggedTopology "a" ["tls"]) (some (taggedRoute "a" ["tls"])) = result at done
    cases result with
    | error e => cases done
    | ok own => exact congrArg Except.ok (Option.some.inj done)
  obtain ⟨surface,surfaced,rules⟩ := first_match done
  obtain ⟨inbound,rest,all,tag,_⟩ := List.map_eq_cons_iff.mp tags
  have member : inbound ∈ out.runtime.inbounds := all ▸ List.mem_cons_self
  obtain ⟨values,there,_,meant⟩ := rules inbound member
  obtain ⟨⟨value,verdict,found,does,routes⟩,_⟩ := meant String protocolAccepts (fun _ => rfl) "tls"
  refine ⟨out,done,inbound,member,tag,surface,values,value,verdict,surfaced,there,found,does,?_⟩
  rw [tag,Routes] at routes
  have first : decides protocolAccepts surface.ruleSets "a" "tls"
      { RouteRule.default with inbound := ["a"], protocol := ["tls"], action := "route", outbound := "direct" } = true := by
    have without_rule_sets : ruleSetValues surface.ruleSets [] = ruleSetValues ∅ [] := rfl
    simp only [decides,ruleObject,conditions,RouteRule.default,without_rule_sets]
    decide +kernel
  rw [routeRules,Option.map_some,Option.getD_some,taggedRoute,List.find?_cons_of_pos first] at routes
  exact ⟨_,List.mem_singleton.mpr rfl,first,routes⟩

end NodeAgent.RouteMeaning
