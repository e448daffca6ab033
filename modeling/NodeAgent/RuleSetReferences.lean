import NodeAgent.PreparedContents

/-!
The references to rule sets in a configuration. A preparation leads them to snapshots and changes
nothing else, wherever in the configuration they are.
-/
namespace NodeAgent.RuleSetReferences
open NodeAgent.Json NodeAgent.FiniteMap NodeAgent.Disks NodeAgent.RuleSetSnapshots NodeAgent.SnapshotCrashes NodeAgent.PreparedContents
open NodeAgent.Transition
open NodeAgent.RuleSetFiles (PendingPublication)

/-! ### Rewriting -/

def isRuleSetReference (fields : Fields) : Bool := ((Fields.get fields "format").bind Value.asStr).any (fun format => format = "source" ∨ format = "binary")

def replacePath (replacements : Map String String) : Value → Value
  | .string path => .string (replacements[path]?.getD path)
  | value => value

mutual

/-- Strings are not changed by the recursion, so a path may be replaced after it. -/
def rewriteRuleSetPaths (replacements : Map String String) : Value → Value
  | .array values => .array (rewriteValues replacements values)
  | .object fields => .object (rewriteFields replacements (isRuleSetReference fields) fields)
  | value => value

def rewriteValues (replacements : Map String String) : List Value → List Value
  | [] => []
  | value :: rest => rewriteRuleSetPaths replacements value :: rewriteValues replacements rest

def rewriteFields (replacements : Map String String) (reference : Bool) : List (String × Value) → List (String × Value)
  | [] => []
  | (name,value) :: rest =>
    (name,if reference ∧ name = "path" then replacePath replacements (rewriteRuleSetPaths replacements value) else rewriteRuleSetPaths replacements value) ::
      rewriteFields replacements reference rest

end

def rewriteConfig (prepared : PreparedRuleSets) (value : Value) : Value := rewriteRuleSetPaths prepared.pathReplacements value

/-! ### Places -/

inductive Place
  | field (name : String)
  | item (index : Nat)
deriving DecidableEq

/-- What is found in a value at a place, from the outside to the inside. -/
def find : Value → List Place → Option Value
  | value, [] => some value
  | .object fields, .field name :: rest => (Fields.get fields name).bind (fun value => find value rest)
  | .array values, .item i :: rest => values[i]?.bind (fun value => find value rest)
  | _, _ :: _ => none

/-- The place is the path of a reference. -/
def referenced (value : Value) (place : List Place) : Bool :=
  match place.getLast?, find value place.dropLast with
  | some (.field name), some (.object fields) => name = "path" && isRuleSetReference fields
  | _, _ => false

def isScalar : Value → Bool
  | .array _ | .object _ => false
  | _ => true

section Places
variable {replacements : Map String String} {value : Value}

theorem get_rewriteFields (reference : Bool) (fields : Fields) (name : String) : Fields.get (rewriteFields replacements reference fields) name =
    (Fields.get fields name).map (fun value =>
      if reference ∧ name = "path" then replacePath replacements (rewriteRuleSetPaths replacements value) else rewriteRuleSetPaths replacements value) := by
  induction fields with
  | nil => simp [rewriteFields,Fields.get]
  | cons entry rest ih =>
    obtain ⟨own,value⟩ := entry
    rw [rewriteFields,Fields.get,Fields.get]
    by_cases same : own = name
    · subst same
      simp
    · rw [if_neg same,if_neg same,ih]

theorem rewriteValues_eq (values : List Value) : rewriteValues replacements values = values.map (rewriteRuleSetPaths replacements) := by
  induction values with
  | nil => simp [rewriteValues]
  | cons value rest ih => rw [rewriteValues,ih,List.map_cons]

theorem rewrite_scalar (scalar : isScalar value = true) : rewriteRuleSetPaths replacements value = value := by
  cases value with
  | array values => cases scalar
  | object fields => cases scalar
  | _ => rw [rewriteRuleSetPaths] <;> simp

/-- Inside of a path there is nothing but what is inside of any value. -/
theorem find_replacePath (place : Place) (rest : List Place) : find (replacePath replacements value) (place :: rest) = find value (place :: rest) := by
  cases value with
  | string path => cases place <;> rfl
  | _ => rfl

theorem referenced_cons_object (fields : Fields) (name : String) (next : Place) (rest : List Place) {inner : Value} (known : Fields.get fields name = some inner) :
    referenced (.object fields) (.field name :: next :: rest) = referenced inner (next :: rest) := by
  simp only [referenced,List.getLast?_cons_cons,List.dropLast_cons_cons,find,known,Option.bind_some]

theorem referenced_cons_array (values : List Value) (i : Nat) (next : Place) (rest : List Place) {inner : Value} (known : values[i]? = some inner) :
    referenced (.array values) (.item i :: next :: rest) = referenced inner (next :: rest) := by
  simp only [referenced,List.getLast?_cons_cons,List.dropLast_cons_cons,find,known,Option.bind_some]

/-- What the rewriting leaves at every place. -/
theorem find_rewrite (place : List Place) : find (rewriteRuleSetPaths replacements value) place = (find value place).map (fun found =>
    if referenced value place then replacePath replacements (rewriteRuleSetPaths replacements found) else rewriteRuleSetPaths replacements found) := by
  induction place generalizing value with
  | nil => rfl
  | cons first rest ih =>
    cases value with
    | object fields =>
      cases first with
      | field name =>
        rw [rewriteRuleSetPaths,find,find,get_rewriteFields]
        cases known : Fields.get fields name with
        | none => rfl
        | some inner =>
          simp only [Option.map_some,Option.bind_some]
          cases rest with
          | nil =>
            have own : referenced (.object fields) [.field name] = (isRuleSetReference fields && name = "path") := by
              simp [referenced,find,Bool.and_comm]
            simp only [find,Option.map_some,own,Bool.and_eq_true,decide_eq_true_eq]
          | cons next rest =>
            rw [referenced_cons_object fields name next rest known,← ih]
            split
            · exact find_replacePath next rest
            · rfl
      | item i =>
        rw [rewriteRuleSetPaths]
        rfl
    | array values =>
      cases first with
      | field name =>
        rw [rewriteRuleSetPaths]
        rfl
      | item i =>
        rw [rewriteRuleSetPaths,find,find,rewriteValues_eq,List.getElem?_map]
        cases known : values[i]? with
        | none => rfl
        | some inner =>
          simp only [Option.map_some,Option.bind_some]
          cases rest with
          | nil => simp [find,referenced]
          | cons next rest => rw [referenced_cons_array values i next rest known,← ih]
    | _ =>
      rw [rewrite_scalar rfl]
      cases first <;> rfl

end Places

/-! ### References and snapshots -/

section Resolved
variable {setting : Setting} {attempts : List Attempt} {replacements : Map String String} {publications : List PendingPublication} {contents : List Content}
  {config : Value} {place : List Place}

theorem find_reference (prepared : PreparedFrom setting attempts replacements publications contents) {content : Content} (listed : content ∈ contents)
    (found : find config place = some (.string content.resource.path)) (reference : referenced config place = true) :
    find (rewriteRuleSetPaths replacements config) place = some (.string (nameOf setting content.resource.format content.bytes)) := by
  have kept : rewriteRuleSetPaths replacements (.string content.resource.path) = .string content.resource.path := rewrite_scalar rfl
  rw [find_rewrite,found]
  simp only [reference,if_true,Option.map_some,kept,replacePath,prepared.replaced content listed,Option.getD_some]

theorem find_other (prepared : PreparedFrom setting attempts replacements publications contents) {value : Value} (found : find config place = some value)
    (scalar : isScalar value = true) (other : referenced config place = true → ∀ content ∈ contents, value ≠ .string content.resource.path) :
    find (rewriteRuleSetPaths replacements config) place = some value := by
  rw [find_rewrite,found]
  simp only [Option.map_some,rewrite_scalar scalar]
  split
  · next reference =>
    cases value with
    | string path =>
      cases known : replacements[path]? with
      | none => simp [replacePath,known]
      | some snapshot =>
        obtain ⟨content,listed,same⟩ := prepared.named path snapshot known
        exact absurd (by rw [same]) (other reference content listed)
    | _ => rfl
  · rfl

/-- Nothing is found in the rewritten value but what is found in the one before. -/
theorem find_none : find (rewriteRuleSetPaths replacements config) place = none ↔ find config place = none := by
  rw [find_rewrite,Option.map_eq_none_iff]

/-- After a preparation that works, every reference in a configuration to one of its resources leads to a snapshot that has, for good, the bytes
    that were validated; no other scalar is changed, and there are no other places than before. -/
theorem references_resolved (injective : Function.Injective setting.contentDigest) {disk : Disk} (empty : ∀ name, Inside setting.base name → disk name = none)
    {earlier later : List Action} {w w' w'' : World} {cancelled : Bool} {fates : List Fate}
    (run : Run (worldStep setting) (initial disk) earlier w) (taken : worldStep setting w (.prepare attempts cancelled fates) = some w')
    (more : Run (worldStep setting) w' later w'')
    (whole : ∀ before left after v, earlier ++ .prepare attempts cancelled fates :: later = before ++ .powerLoss left :: after →
      Run (worldStep setting) (initial disk) before v → Whole setting left v.disk)
    {prepared : PreparedRuleSets} (made : w'.prepared = w.prepared ++ [prepared]) (config : Value) :
    (∀ place path, find config place = some (.string path) → referenced config place = true → ∀ attempt ∈ attempts, attempt.resource.path = path →
      ∃ resource bytes file, resource ∈ attempts.map Attempt.resource ∧ resource.path = path ∧ validate setting resource bytes = .ok () ∧
        find (rewriteConfig prepared config) place = some (.string (nameOf setting resource.format bytes)) ∧
        w''.disk (nameOf setting resource.format bytes) = some file ∧ file.content = bytes) ∧
    (∀ place value, find config place = some value → isScalar value = true →
      (referenced config place = true → ∀ attempt ∈ attempts, value ≠ .string attempt.resource.path) → find (rewriteConfig prepared config) place = some value) ∧
    ∀ place, find (rewriteConfig prepared config) place = none ↔ find config place = none := by
  obtain ⟨contents,known,_,snapshots⟩ := prepared_for_good injective empty run taken more whole made
  have listed {resource : RuleSetResource} : resource ∈ attempts.map Attempt.resource ↔ ∃ content ∈ contents, content.resource = resource := by
    rw [← known.resources]
    exact List.mem_map
  refine ⟨?_,?_,fun _ => find_none⟩
  · rintro place path found reference attempt member rfl
    obtain ⟨content,own,same⟩ := listed.mp (List.mem_map_of_mem member)
    obtain ⟨file,here,right⟩ := snapshots content own
    refine ⟨content.resource,content.bytes,file,listed.mpr ⟨content,own,rfl⟩,by rw [same],known.valid content own,?_,here,right⟩
    exact find_reference known own (by rw [same]; exact found) reference
  · intro place value found scalar other
    refine find_other known found scalar ?_
    intro reference content own
    obtain ⟨attempt,member,same⟩ := List.mem_map.mp (listed.mpr ⟨content,own,rfl⟩)
    rw [← same]
    exact other reference attempt member

end Resolved

/-- A rule that names the rule set, and another entry with the same path. -/
def rulesConfig : Value := .object [("certificate",.string "agent/runtime/rule-sets/inline/ads-0.json"),
  ("rule_set",.array [.object [("format",.string "source"),("path",.string "agent/runtime/rule-sets/inline/ads-0.json")]])]

set_option maxRecDepth 4000 in
theorem empty_rules_reference_resolved : ∃ (w w' : World) (prepared : PreparedRuleSets),
    Run (worldStep plainSetting) (initial (fun _ => none)) [.start 7] w ∧ worldStep plainSetting w (.prepare [emptyRules] false []) = some w' ∧
    find (rewriteConfig prepared rulesConfig) [.field "certificate"] = some (.string "agent/runtime/rule-sets/inline/ads-0.json") ∧
    ∃ resource bytes file, resource ∈ [emptyRules].map Attempt.resource ∧ resource.path = "agent/runtime/rule-sets/inline/ads-0.json" ∧
      validate plainSetting resource bytes = .ok () ∧
      find (rewriteConfig prepared rulesConfig) [.field "rule_set",.item 0,.field "path"] = some (.string (nameOf plainSetting resource.format bytes)) ∧
      w'.disk (nameOf plainSetting resource.format bytes) = some file ∧ file.content = bytes := by
  have run : Run (worldStep plainSetting) (initial (fun _ => none)) [.start 7] ⟨fun _ => none,some 7,0,[]⟩ := Run.of_follow rfl
  have taken : ∃ w' prepared, worldStep plainSetting ⟨fun _ => none,some 7,0,[]⟩ (.prepare [emptyRules] false []) = some w' ∧ w'.prepared = [] ++ [prepared] := ⟨_,_,rfl,rfl⟩
  obtain ⟨w',prepared,taken,made⟩ := taken
  have quiet : ∀ before left after v, [.start 7] ++ .prepare [emptyRules] false [] :: [] = before ++ .powerLoss left :: after →
      Run (worldStep plainSetting) (initial (fun _ => none)) before v → Whole plainSetting left v.disk := by
    intro before left after v split
    have listed : Action.powerLoss left ∈ ([.start 7] ++ .prepare [emptyRules] false [] :: [] : List Action) := split ▸ (by simp)
    simp at listed
  obtain ⟨resolved,untouched,_⟩ := references_resolved Function.injective_id (fun _ _ => rfl) run taken .nil quiet made rulesConfig
  refine ⟨_,w',prepared,run,taken,?_,?_⟩
  · exact untouched _ _ (by simp [find,rulesConfig,Fields.get]) rfl (by simp [referenced,find,rulesConfig,isRuleSetReference,Fields.get])
  · exact resolved _ _ (by simp [find,rulesConfig,Fields.get]) (by simp [referenced,find,rulesConfig,isRuleSetReference,Fields.get,Value.asStr]) emptyRules (List.mem_singleton_self _) rfl

end NodeAgent.RuleSetReferences
