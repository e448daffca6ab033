import NodeAgent.Fallible
import NodeAgent.OutboundGraph

/-!
Client chains of outbounds. A selector stands for its selected member, a detour comes in
front of the hop that asks for it, and a URLTest becomes a list of chains with a policy to
choose between them. All projections of one configuration share caches and a budget.
-/
namespace NodeAgent.ClientChains
open NodeAgent.Api NodeAgent.Json NodeAgent.FiniteMap NodeAgent.OutboundAdapter NodeAgent.Outbounds NodeAgent.Fallible

def MAX_PROJECTED_CLIENT_CHAIN_HOPS : Nat := 65536
def MAX_PROJECTED_CLIENT_CHAIN_BYTES : Nat := 64 * 1024 * 1024
def MAX_PROJECTED_URLTEST_GROUPS : Nat := 256
def MAX_PROJECTED_URLTEST_CANDIDATES : Nat := 8192

/-- Why a projection fails. -/
inductive CompileError
  | message (text : String)
  /-- More hops or bytes than a configuration may have. -/
  | projection (context : String) (hops bytes : Nat)
  | urltestGroups (tag : String)
  | urltestCandidates (tag : String) (candidates : Nat)

variable (ext : Externals)

def CompileError.text : CompileError → String
  | .message text => text
  | .projection context hops bytes => s!"client-chain projection budget exceeded while compiling {context}: RuntimeConfig would contain {hops} projected hops and {bytes} projected JSON bytes; maximums are {MAX_PROJECTED_CLIENT_CHAIN_HOPS} hops and {MAX_PROJECTED_CLIENT_CHAIN_BYTES} bytes"
  | .urltestGroups tag => s!"active URLTest group budget exceeded while compiling {ext.quote tag}: maximum is {MAX_PROJECTED_URLTEST_GROUPS} distinct groups per RuntimeConfig"
  | .urltestCandidates tag candidates => s!"active URLTest candidate budget exceeded while compiling {ext.quote tag}: RuntimeConfig would schedule {candidates} candidates; maximum is {MAX_PROJECTED_URLTEST_CANDIDATES}"

/-- An exceeded limit, and no other reason. -/
def CompileError.isLimit : CompileError → Bool
  | .message _ => false
  | _ => true

/-! ### The adapter -/

/-- The selected outbound by the identity of its selector. -/
abbrev SelectorProjectionCache := Map Nat ValidatedOutbound

variable (catalog : Catalog)

abbrev Compiler := List Nat → ValidatedOutbound → Bool → Op SelectorProjectionCache String (List Value)

def lift {σ α : Type} : Except String α → Op σ String α
  | .ok a => pure a
  | .error e => fail e

/-- A selector that has not been met before. -/
def compileSelector (descend : ValidatedOutbound → Op SelectorProjectionCache String (List Value)) (outbound : ValidatedOutbound) :
    Op SelectorProjectionCache String (List Value) := do
  let selection ← lift (compileSelectorFields ext outbound.tag outbound.options)
  lift (resolveMembers ext catalog outbound.tag selection.members)
  let selected ← lift (resolveMember ext catalog outbound.tag selection.selected)
  let chain ← descend selected
  change (fun cache => cache.insert outbound.id selected)
  return chain

/-- An outbound with options of its own, and what comes in front of it. -/
def compileClient (descend : ValidatedOutbound → Op SelectorProjectionCache String (List Value)) (outbound : ValidatedOutbound) :
    Op SelectorProjectionCache String (List Value) := do
  let hop ← lift (compileHop ext outbound.kind outbound.tag outbound.options)
  match hop.detour with
  | none => return [hop.config outbound.shoesDnsResolver]
  | some detour => do
    let behind ← lift (resolveDetour ext catalog outbound.tag detour)
    let chain ← descend behind
    return chain ++ [hop.config outbound.shoesDnsResolver]

/-- `Adapter::compile_with_dns`: nothing can be compiled from here when the active outbounds
    fill the maximum depth. -/
def compileFrom (descend : Option Compiler) : Compiler := fun active outbound validateTag =>
  if validateTag && blank outbound.tag then fail s!"outbound {ext.quote outbound.kind.name} tag is required"
  else if outbound.id ∈ active then fail s!"outbound reference cycle at outbound {ext.quote outbound.tag}"
  else
    match descend with
    | none => fail s!"outbound reference depth exceeds maximum {MAX_OUTBOUND_REFERENCE_DEPTH} at outbound {ext.quote outbound.tag}"
    | some descend =>
      if outbound.kind = .selector then do
        match (← look)[outbound.id]? with
        -- Cached entries were checked when they were made.
        | some selected => descend (outbound.id :: active) selected false
        | none => compileSelector ext catalog (fun next => descend (outbound.id :: active) next true) outbound
      else compileClient ext catalog (fun next => descend (outbound.id :: active) next true) outbound

def compileWithDns : Nat → Compiler
  | 0 => compileFrom ext catalog none
  | room + 1 => compileFrom ext catalog (some (compileWithDns room))

/-- The client chains of an outbound: one chain. -/
def clientChains (chains : List (List Value)) : Value := .array (chains.map (fun hops => .object [("chain",.array hops)]))

def compileClientChainsCached (outbound : ValidatedOutbound) : Op SelectorProjectionCache String Value := do
  let hops ← compileWithDns ext catalog MAX_OUTBOUND_REFERENCE_DEPTH [] outbound true
  return clientChains [hops]

/-! ### The budget -/

structure ClientChainProjectionCost where
  hops : Nat
  bytes : Nat
deriving DecidableEq

structure ClientChainsProjection where
  hops : Nat
  chainCount : Nat
  chainElementBytes : Nat
deriving DecidableEq

def ClientChainsProjection.default : ClientChainsProjection := ⟨0,0,0⟩

def ClientChainsProjection.append (p q : ClientChainsProjection) : ClientChainsProjection :=
  ⟨p.hops + q.hops,p.chainCount + q.chainCount,p.chainElementBytes + q.chainElementBytes⟩

def serializedJsonLen (value : Value) : Nat := (ext.serialize value).utf8ByteSize

def inspectChain (chain : Value) : Except String ClientChainsProjection :=
  match chain.get "chain" with
  | some (.array hops) => .ok ⟨hops.length,1,serializedJsonLen ext chain⟩
  | _ => .error "compiled outbound produced an invalid client-chain entry"

def inspectChains (projection : ClientChainsProjection) : List Value → Except String ClientChainsProjection
  | [] => .ok projection
  | chain :: rest => do
    let one ← inspectChain ext chain
    inspectChains (projection.append one) rest

def ClientChainsProjection.inspect (value : Value) : Except String ClientChainsProjection :=
  match value with
  | .array chains => inspectChains ext .default chains
  | _ => .error "compiled outbound did not produce a client-chain array"

/-- JSON array brackets and the commas between chains are counted too. -/
def ClientChainsProjection.cost (p : ClientChainsProjection) (selectionBytes : Nat) : ClientChainProjectionCost :=
  ⟨p.hops,p.chainElementBytes + 2 + (p.chainCount - 1) + selectionBytes⟩

structure CompiledClientChainSample where
  value : Value
  projection : ClientChainsProjection

structure CompiledOutboundAction where
  clientChains : Value
  clientChainSelection : Option Fields

structure CachedUrltestAction where
  action : CompiledOutboundAction
  cost : ClientChainProjectionCost

structure ClientChainProjectionBudget where
  used : ClientChainProjectionCost
  selectorImmediate : Map Nat ValidatedOutbound
  selectorTerminals : Map Nat ValidatedOutbound
  compiledSamples : Map Nat CompiledClientChainSample
  urltestSamples : Map Nat CachedUrltestAction
  urltestCandidates : Nat
  adapterCache : SelectorProjectionCache

def ClientChainProjectionBudget.default : ClientChainProjectionBudget := ⟨⟨0,0⟩,∅,∅,∅,∅,0,∅⟩

abbrev Projecting := Op ClientChainProjectionBudget CompileError

def ensureCanReserve (additional : ClientChainProjectionCost) (context : String) : Projecting Unit := do
  let used := (← look).used
  let hops := used.hops + additional.hops
  let bytes := used.bytes + additional.bytes
  if hops > MAX_PROJECTED_CLIENT_CHAIN_HOPS ∨ bytes > MAX_PROJECTED_CLIENT_CHAIN_BYTES then fail (.projection context hops bytes)
  else return ()

def reserve (additional : ClientChainProjectionCost) (context : String) : Projecting Unit := do
  ensureCanReserve additional context
  change (fun budget => { budget with used := ⟨budget.used.hops + additional.hops,budget.used.bytes + additional.bytes⟩ })

def check {α : Type} : Except String α → Projecting α
  | .ok a => pure a
  | .error e => fail (.message e)

/-- The adapter works on its own cache. -/
def adapt {α : Type} (tag : String) (p : Op SelectorProjectionCache String α) : Projecting α := fun budget =>
  match p budget.adapterCache with
  | (.ok a,cache) => (.ok a,{ budget with adapterCache := cache })
  | (.error e,cache) => (.error (.message s!"compile outbound {ext.quote tag}: {e}"),{ budget with adapterCache := cache })

def prepareOutboundClientChains (outbound : ValidatedOutbound) : Projecting Unit := do
  if ((← look).compiledSamples[outbound.id]?).isSome then return ()
  else do
    let compiled ← adapt ext outbound.tag (compileClientChainsCached ext catalog outbound)
    let projection ← check (ClientChainsProjection.inspect ext compiled)
    change (fun budget => { budget with compiledSamples := budget.compiledSamples.insert outbound.id ⟨compiled,projection⟩ })

def immediateSelectorOutbound (outbound : ValidatedOutbound) : Projecting ValidatedOutbound := do
  match (← look).selectorImmediate[outbound.id]? with
  | some selected => return selected
  | none => do
    let definition ← check (parseSelectorDefinition ext outbound)
    match catalog[definition.selected]? with
    | none => fail (.message s!"selector outbound {ext.quote outbound.tag} references unknown member {ext.quote definition.selected}")
    | some selected => do
      change (fun budget => { budget with
        selectorImmediate := budget.selectorImmediate.insert outbound.id selected
        adapterCache := budget.adapterCache.insert outbound.id selected })
      return selected

/-- All outbounds on a path end at the same one. -/
def compress (terminal : ValidatedOutbound) (path : List ValidatedOutbound) (terminals : Map Nat ValidatedOutbound) : Map Nat ValidatedOutbound :=
  path.foldl (fun terminals outbound => terminals.insert outbound.id terminal) terminals

def tagPath (path : List ValidatedOutbound) : String := pathText (path.map ValidatedOutbound.tag)

/-- Follows selectors to an outbound that is none; the path is kept from its end. -/
def resolveStaticSelectorOutbound (outbound : ValidatedOutbound) : Nat → List ValidatedOutbound → Projecting ValidatedOutbound
  | room, path => do
    match (← look).selectorTerminals[outbound.id]? with
    | some terminal => do
      change (fun budget => { budget with selectorTerminals := compress terminal path.reverse budget.selectorTerminals })
      return terminal
    | none =>
      if path.any (fun active => active.id = outbound.id) then
        fail (.message s!"outbound reference cycle: {tagPath ((path.takeWhile (fun active => active.id ≠ outbound.id) ++ [outbound]).reverse ++ [outbound])}")
      else
        match room with
        | 0 => fail (.message s!"outbound reference depth exceeds maximum {MAX_OUTBOUND_REFERENCE_DEPTH}: {tagPath (path.reverse ++ [outbound])}")
        | room + 1 =>
          if outbound.kind ≠ .selector then do
            change (fun budget => { budget with
              selectorTerminals := compress outbound path.reverse (budget.selectorTerminals.insert outbound.id outbound) })
            return outbound
          else do
            let next ← immediateSelectorOutbound ext catalog outbound
            resolveStaticSelectorOutbound next room (outbound :: path)

/-! ### URLTests -/

/-- The members of a URLTest that are probed: each with the outbound that it stands for,
    which nobody before it does. -/
structure Candidate where
  member : ValidatedOutbound
  real : ValidatedOutbound

/-- A selector stands for its immediate selection, anything else for itself. -/
def realOutbound (member : ValidatedOutbound) : Projecting ValidatedOutbound :=
  if member.kind = .selector then immediateSelectorOutbound ext catalog member else pure member

def addCandidate (outbound : ValidatedOutbound) (candidates : List Candidate) (memberTag : String) : Projecting (List Candidate) :=
  match catalog[memberTag]? with
  | none => fail (.message s!"urltest outbound {ext.quote outbound.tag} references unknown member {ext.quote memberTag}")
  | some member => do
    let real ← realOutbound ext catalog member
    if candidates.any (fun c => c.real.id = real.id) then return candidates
    else do
      let projected := (← look).urltestCandidates + (candidates.length + 1)
      if projected > MAX_PROJECTED_URLTEST_CANDIDATES then fail (.urltestCandidates outbound.tag projected)
      else return candidates ++ [⟨member,real⟩]

/-- The policy with the names under which the candidates are measured. -/
def withHistory (selection : Fields) (candidates : List Candidate) : Fields :=
  Fields.insert (Fields.insert selection "history_keys" (.array (candidates.map (fun c => .string c.real.tag))))
    "failure_history_keys" (.array (candidates.map (fun c => .string c.member.tag)))

/-- The samples of the members so far and their projection. -/
structure Expansion where
  projection : ClientChainsProjection
  compiled : List Value

def urltestContext (outbound : ValidatedOutbound) : String := s!"urltest outbound {ext.quote outbound.tag}"

def expandMember (outbound : ValidatedOutbound) (selectionBytes : Nat) (so_far : Expansion) (candidate : Candidate) : Projecting Expansion := do
  let selected ← resolveStaticSelectorOutbound ext catalog candidate.member MAX_OUTBOUND_REFERENCE_DEPTH []
  if selected.kind = .urltest then
    fail (.message s!"urltest outbound {ext.quote outbound.tag} contains nested active urltest through member {ext.quote candidate.member.tag}")
  else do
    prepareOutboundClientChains ext catalog selected
    match (← look).compiledSamples[selected.id]? with
    | none => fail (.message "prepared URLTest chain sample is cached")
    | some sample => do
      let projection := so_far.projection.append sample.projection
      ensureCanReserve (projection.cost selectionBytes) (urltestContext ext outbound)
      return ⟨projection,so_far.compiled ++ [sample.value]⟩

def chainsOf : Value → List Value
  | .array chains => chains
  | _ => []

/-- The action with its identity, which is a digest of all that it consists of. -/
def identified (outbound : ValidatedOutbound) (chains : List Value) (selection : Fields) : CompiledOutboundAction :=
  let fingerprint := ext.sha256 (ext.serialize (.array [.string outbound.tag,.array chains,.object selection]))
  ⟨.array chains,some (Fields.insert selection "shared_id" (.string s!"node-agent-urltest-v1:{fingerprint}"))⟩

def compileUrltestAction (outbound : ValidatedOutbound) : Projecting CompiledOutboundAction := do
  match (← look).urltestSamples[outbound.id]? with
  | some sample => do
    reserve sample.cost (urltestContext ext outbound)
    return sample.action
  | none =>
    if (← look).urltestSamples.size ≥ MAX_PROJECTED_URLTEST_GROUPS then fail (.urltestGroups outbound.tag)
    else do
      let definition ← check (parseUrltestDefinition ext outbound)
      let candidates ← foldEach (addCandidate ext catalog outbound) [] definition.members
      let selection := withHistory definition.selection candidates
      let selectionBytes := serializedJsonLen ext (.object selection)
      let expansion ← foldEach (expandMember ext catalog outbound selectionBytes) ⟨.default,[]⟩ candidates
      let cost := expansion.projection.cost selectionBytes
      reserve cost (urltestContext ext outbound)
      let action := identified ext outbound (expansion.compiled.flatMap chainsOf) selection
      change (fun budget => { budget with
        urltestSamples := budget.urltestSamples.insert outbound.id ⟨action,cost⟩
        urltestCandidates := budget.urltestCandidates + candidates.length })
      return action

def outboundClientAction (outbound : ValidatedOutbound) : Projecting CompiledOutboundAction := do
  let selected ← resolveStaticSelectorOutbound ext catalog outbound MAX_OUTBOUND_REFERENCE_DEPTH []
  if selected.kind = .urltest then compileUrltestAction ext catalog selected
  else do
    prepareOutboundClientChains ext catalog selected
    match (← look).compiledSamples[selected.id]? with
    | none => fail (.message "prepared outbound chain sample is cached")
    | some sample => do
      reserve (sample.projection.cost 0) s!"outbound {ext.quote outbound.tag}"
      return ⟨sample.value,none⟩

end NodeAgent.ClientChains
