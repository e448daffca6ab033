import Mathlib.Data.Finset.Basic
import Mathlib.Logic.Function.Basic

/-!
Locks that exist per key and only while somebody uses them. A registry holds a weak reference
to the gate of a key; a participant upgrades it or creates another gate, waits for the lock of
its gate, unlocks and releases its strong reference. When the last reference is gone the
destructor of the gate takes the registry entry out, unless another gate stands there by then.
The gate may be replaced between these events, and still no two participants own gates of one
key.
-/
namespace NodeAgent.KeyedGates
universe u v
variable {κ : Type u} {ι : Type v} [DecidableEq κ] [DecidableEq ι]

structure Gate (κ : Type u) (ι : Type v) where
  key : κ
  /-- The participants with a strong reference. -/
  holders : Finset ι
  /-- The participant that has the lock. -/
  owner : Option ι
  /-- The destructor has run. -/
  dropped : Bool

/-- A gate is referred to by its place among all gates that were ever created. -/
structure Gates (κ : Type u) (ι : Type v) where
  registry : κ → Option Nat
  gates : List (Gate κ ι)

def Gates.empty : Gates κ ι := ⟨fun _ => none,[]⟩

/-- A weak reference to the gate can be upgraded. -/
def Gates.live (t : Gates κ ι) (g : Nat) : Bool := t.gates[g]?.any (fun gate => gate.holders ≠ ∅)

def Gates.update (t : Gates κ ι) (g : Nat) (f : Gate κ ι → Gate κ ι) : Gates κ ι := { t with gates := t.gates.modify g f }

/-- The gate of the key, with one more strong reference; another gate when the registered one is gone. -/
def Gates.enter (t : Gates κ ι) (k : κ) (p : ι) : Nat × Gates κ ι :=
  match (t.registry k).filter t.live with
  | some g => (g,t.update g (fun gate => { gate with holders := insert p gate.holders }))
  | none => (t.gates.length,⟨Function.update t.registry k (some t.gates.length),t.gates ++ [⟨k,{p},none,false⟩]⟩)

/-- Nothing happens as long as another participant has the lock. -/
def Gates.lock (t : Gates κ ι) (g : Nat) (p : ι) : Option (Gates κ ι) :=
  if t.gates[g]?.any (fun gate => gate.owner = none) then some (t.update g (fun gate => { gate with owner := some p })) else none

def Gates.unlock (t : Gates κ ι) (g : Nat) : Gates κ ι := t.update g (fun gate => { gate with owner := none })

def Gates.release (t : Gates κ ι) (g : Nat) (p : ι) : Gates κ ι :=
  t.update g (fun gate => { gate with holders := gate.holders.erase p })

/-- The destructor of a gate without references. -/
def Gates.destroy (t : Gates κ ι) (g : Nat) : Option (Gates κ ι) :=
  match t.gates[g]? with
  | none => none
  | some gate =>
    if gate.holders = ∅ ∧ gate.dropped = false then
      let t := t.update g (fun gate => { gate with dropped := true })
      some (if t.registry gate.key = some g then { t with registry := Function.update t.registry gate.key none } else t)
    else none

/-- How far a participant is in using a gate. -/
inductive Stage
  | out
  | holds (g : Nat)
  | owns (g : Nat)

/-- The gate that the participant has a strong reference to. -/
def Stage.gate : Stage → Option Nat
  | .out => none
  | .holds g => some g
  | .owns g => some g

/-- The gates agree with what their participants do, and every gate in use is the registered one. -/
structure Sound (t : Gates κ ι) (stage : ι → Stage) : Prop where
  registered : ∀ g gate, t.gates[g]? = some gate → gate.holders ≠ ∅ → t.registry gate.key = some g
  keyed : ∀ k g, t.registry k = some g → ∃ gate, t.gates[g]? = some gate ∧ gate.key = k
  holders : ∀ g gate, t.gates[g]? = some gate → ∀ p, p ∈ gate.holders ↔ (stage p).gate = some g
  owner : ∀ g gate, t.gates[g]? = some gate → ∀ p, gate.owner = some p ↔ stage p = .owns g
  exists_gate : ∀ p g, (stage p).gate = some g → ∃ gate, t.gates[g]? = some gate

omit [DecidableEq κ] [DecidableEq ι] in
theorem sound_empty : Sound (Gates.empty : Gates κ ι) (fun _ => .out) where
  registered g gate found := by simp [Gates.empty] at found
  keyed k g found := by simp [Gates.empty] at found
  holders g gate found := by simp [Gates.empty] at found
  owner g gate found := by simp [Gates.empty] at found
  exists_gate p g found := by simp [Stage.gate] at found

/-- The key of a gate. -/
def Gates.keyOf (t : Gates κ ι) (g : Nat) : Option κ := t.gates[g]?.map Gate.key

variable {t t' : Gates κ ι} {stage : ι → Stage} {p q : ι} {g h : Nat} {k : κ}

omit [DecidableEq κ] [DecidableEq ι] in
/-- No two participants own gates of one key. -/
theorem Sound.exclusive (sound : Sound t stage) (first : stage p = .owns g) (second : stage q = .owns h)
    (same : t.keyOf g = t.keyOf h) : p = q := by
  obtain ⟨gate,at_g⟩ := sound.exists_gate p g (by rw [first]; rfl)
  obtain ⟨gate',at_h⟩ := sound.exists_gate q h (by rw [second]; rfl)
  have keys : gate.key = gate'.key := by simpa [Gates.keyOf,at_g,at_h] using same
  have used : gate.holders ≠ ∅ := Finset.ne_empty_of_mem ((sound.holders g gate at_g p).mpr (by rw [first]; rfl))
  have used' : gate'.holders ≠ ∅ := Finset.ne_empty_of_mem ((sound.holders h gate' at_h q).mpr (by rw [second]; rfl))
  have one : some g = some h := by
    rw [← sound.registered g gate at_g used,keys]
    exact sound.registered h gate' at_h used'
  cases one
  have owned := (sound.owner g gate at_g p).mpr first
  have owned' := (sound.owner g gate at_g q).mpr second
  exact Option.some.inj (owned.symm.trans owned')

omit [DecidableEq κ] [DecidableEq ι] in
theorem lookup_update {f : Gate κ ι → Gate κ ι} {gate' : Gate κ ι} (found : (t.update g f).gates[h]? = some gate') :
    ∃ gate, t.gates[h]? = some gate ∧ gate' = if g = h then f gate else gate := by
  unfold Gates.update at found
  rw [List.getElem?_modify] at found
  obtain ⟨gate,at_h,rfl⟩ := Option.map_eq_some_iff.mp found
  exact ⟨gate,at_h,rfl⟩

omit [DecidableEq κ] [DecidableEq ι] in
theorem keyOf_update {f : Gate κ ι → Gate κ ι} (keeps : ∀ gate, (f gate).key = gate.key) : (t.update g f).keyOf h = t.keyOf h := by
  unfold Gates.keyOf Gates.update
  rw [List.getElem?_modify]
  cases t.gates[h]? with
  | none => rfl
  | some gate =>
    by_cases same : g = h
    · simp [same,keeps]
    · simp [same]

/-! ### Steps of one participant -/

/-- The participant uses the gate or none. -/
def Stage.Near (g : Nat) (s : Stage) : Prop := s = .out ∨ s = .holds g ∨ s = .owns g

theorem Stage.Near.elsewhere {s : Stage} (near : s.Near g) (apart : h ≠ g) : s.gate ≠ some h ∧ s ≠ .owns h := by
  rcases near with rfl | rfl | rfl
  · simp [Stage.gate]
  · simp [Stage.gate,apart.symm]
  · simp [Stage.gate,apart.symm]

omit [DecidableEq κ] in
/-- One participant changes how it uses one gate; the others stay as they are. -/
theorem Sound.moves (sound : Sound t stage) {f : Gate κ ι → Gate κ ι} {s' : Stage} (before : (stage p).Near g) (after : s'.Near g)
    (found : ∃ gate, t.gates[g]? = some gate) (key : ∀ gate, (f gate).key = gate.key)
    (holders : ∀ gate, t.gates[g]? = some gate → ∀ q, q ∈ (f gate).holders ↔ if q = p then s'.gate = some g else q ∈ gate.holders)
    (owner : ∀ gate, t.gates[g]? = some gate → ∀ q, (f gate).owner = some q ↔ if q = p then s' = .owns g else gate.owner = some q)
    (used : ∀ gate, t.gates[g]? = some gate → (f gate).holders ≠ ∅ → t.registry gate.key = some g) :
    Sound (t.update g f) (Function.update stage p s') := by
  have elsewhere (q : ι) {h : Nat} (apart : h ≠ g) : ((Function.update stage p s' q).gate = some h ↔ (stage q).gate = some h) ∧
      (Function.update stage p s' q = .owns h ↔ stage q = .owns h) := by
    by_cases same : q = p
    · subst same
      rw [Function.update_self]
      simp [after.elsewhere apart,before.elsewhere apart]
    · rw [Function.update_of_ne same]
      exact ⟨Iff.rfl,Iff.rfl⟩
  constructor
  · intro h gate' at_h busy
    obtain ⟨gate,was,rfl⟩ := lookup_update at_h
    by_cases same : g = h
    · subst same
      rw [if_pos rfl] at busy ⊢
      rw [key]
      exact used gate was busy
    · rw [if_neg same] at busy ⊢
      exact sound.registered h gate was busy
  · intro k h entry
    obtain ⟨gate,at_h,rfl⟩ := sound.keyed k h entry
    by_cases same : g = h
    · subst same
      exact ⟨f gate,by simp [Gates.update,at_h],key gate⟩
    · exact ⟨gate,by simp [Gates.update,at_h,same],rfl⟩
  · intro h gate' at_h q
    obtain ⟨gate,was,rfl⟩ := lookup_update at_h
    by_cases same : g = h
    · subst same
      rw [if_pos rfl,holders gate was q]
      by_cases own : q = p
      · simp [own]
      · rw [if_neg own,Function.update_of_ne own]
        exact sound.holders g gate was q
    · rw [if_neg same,(elsewhere q (Ne.symm same)).1]
      exact sound.holders h gate was q
  · intro h gate' at_h q
    obtain ⟨gate,was,rfl⟩ := lookup_update at_h
    by_cases same : g = h
    · subst same
      rw [if_pos rfl,owner gate was q]
      by_cases own : q = p
      · simp [own]
      · rw [if_neg own,Function.update_of_ne own]
        exact sound.owner g gate was q
    · rw [if_neg same,(elsewhere q (Ne.symm same)).2]
      exact sound.owner h gate was q
  · intro q h uses
    by_cases same : h = g
    · subst same
      obtain ⟨gate,at_h⟩ := found
      exact ⟨f gate,by simp [Gates.update,at_h]⟩
    · obtain ⟨gate,at_h⟩ := sound.exists_gate q h ((elsewhere q same).1.mp uses)
      exact ⟨gate,by simp [Gates.update,at_h,Ne.symm same]⟩

omit [DecidableEq κ] [DecidableEq ι] in
/-- A gate that is in use is registered. -/
theorem Sound.in_use {gate : Gate κ ι} (sound : Sound t stage) (uses : (stage p).gate = some g) (found : t.gates[g]? = some gate) :
    t.registry gate.key = some g :=
  sound.registered g gate found (Finset.ne_empty_of_mem ((sound.holders g gate found p).mpr uses))

omit [DecidableEq κ] in
theorem Sound.lock (sound : Sound t stage) (waits : stage p = .holds g) (locked : t.lock g p = some t') :
    Sound t' (Function.update stage p (.owns g)) := by
  have uses : (stage p).gate = some g := by rw [waits]; rfl
  unfold Gates.lock at locked
  split at locked
  · next free =>
    cases locked
    refine sound.moves (Or.inr (Or.inl waits)) (Or.inr (Or.inr rfl)) (sound.exists_gate p g uses) (fun _ => rfl) ?_ ?_ ?_
    · intro gate at_g q
      split
      · next own => simp [own,Stage.gate,(sound.holders g gate at_g p).mpr uses]
      · exact Iff.rfl
    · intro gate at_g q
      have unowned : gate.owner = none := by simpa [at_g] using free
      by_cases own : q = p
      · simp [own]
      · simp [own,unowned,Ne.symm own]
    · intro gate at_g _
      exact sound.in_use uses at_g
  · cases locked

omit [DecidableEq κ] in
theorem Sound.unlock (sound : Sound t stage) (owns : stage p = .owns g) :
    Sound (t.unlock g) (Function.update stage p (.holds g)) := by
  have uses : (stage p).gate = some g := by rw [owns]; rfl
  refine sound.moves (Or.inr (Or.inr owns)) (Or.inr (Or.inl rfl)) (sound.exists_gate p g uses) (fun _ => rfl) ?_ ?_ ?_
  · intro gate at_g q
    split
    · next own => simp [own,Stage.gate,(sound.holders g gate at_g p).mpr uses]
    · exact Iff.rfl
  · intro gate at_g q
    have owned := (sound.owner g gate at_g p).mpr owns
    by_cases own : q = p
    · simp [own]
    · simp [own,owned,Ne.symm own]
  · intro gate at_g _
    exact sound.in_use uses at_g

omit [DecidableEq κ] in
theorem Sound.release (sound : Sound t stage) (holds : stage p = .holds g) :
    Sound (t.release g p) (Function.update stage p .out) := by
  have uses : (stage p).gate = some g := by rw [holds]; rfl
  refine sound.moves (Or.inr (Or.inl holds)) (Or.inl rfl) (sound.exists_gate p g uses) (fun _ => rfl) ?_ ?_ ?_
  · intro gate at_g q
    by_cases own : q = p
    · simp [own,Stage.gate]
    · simp [own]
  · intro gate at_g q
    have unowned : gate.owner ≠ some p := by
      rw [ne_eq,sound.owner g gate at_g p,holds]
      nofun
    by_cases own : q = p
    · simpa [own] using unowned
    · simp [own]
  · intro gate at_g _
    exact sound.in_use uses at_g

omit [DecidableEq κ] [DecidableEq ι] in
/-- A change of a gate that concerns no participant. -/
theorem Sound.marked (sound : Sound t stage) {f : Gate κ ι → Gate κ ι}
    (same : ∀ gate, (f gate).key = gate.key ∧ (f gate).holders = gate.holders ∧ (f gate).owner = gate.owner) :
    Sound (t.update g f) stage := by
  have kept {h : Nat} {gate' : Gate κ ι} (at_h : (t.update g f).gates[h]? = some gate') :
      ∃ gate, t.gates[h]? = some gate ∧ gate'.key = gate.key ∧ gate'.holders = gate.holders ∧ gate'.owner = gate.owner := by
    obtain ⟨gate,was,rfl⟩ := lookup_update at_h
    refine ⟨gate,was,?_⟩
    split
    · exact same gate
    · exact ⟨rfl,rfl,rfl⟩
  have found {h : Nat} {gate : Gate κ ι} (at_h : t.gates[h]? = some gate) :
      ∃ gate', (t.update g f).gates[h]? = some gate' ∧ gate'.key = gate.key := by
    by_cases here : g = h
    · exact ⟨f gate,by simp [Gates.update,at_h,here],(same gate).1⟩
    · exact ⟨gate,by simp [Gates.update,at_h,here],rfl⟩
  constructor
  · intro h gate' at_h busy
    obtain ⟨gate,was,key,holders,-⟩ := kept at_h
    rw [key]
    exact sound.registered h gate was (by rwa [← holders])
  · intro k h entry
    obtain ⟨gate,at_h,rfl⟩ := sound.keyed k h entry
    exact found at_h
  · intro h gate' at_h q
    obtain ⟨gate,was,-,holders,-⟩ := kept at_h
    rw [holders]
    exact sound.holders h gate was q
  · intro h gate' at_h q
    obtain ⟨gate,was,-,-,owner⟩ := kept at_h
    rw [owner]
    exact sound.owner h gate was q
  · intro q h uses
    obtain ⟨gate,at_h⟩ := sound.exists_gate q h uses
    obtain ⟨gate',at_h',-⟩ := found at_h
    exact ⟨gate',at_h'⟩

/-- No gate of the key is in use. -/
def Gates.Unused (t : Gates κ ι) (k : κ) : Prop := ∀ (g : Nat) (gate : Gate κ ι), t.gates[g]? = some gate → gate.holders ≠ ∅ → gate.key ≠ k

omit [DecidableEq ι] in
/-- The entry of a key can go when no gate of the key is in use. -/
theorem Sound.unregistered (sound : Sound t stage)
    (unused : t.Unused k) :
    Sound { t with registry := Function.update t.registry k none } stage := by
  refine ⟨?_,?_,sound.holders,sound.owner,sound.exists_gate⟩
  · intro h gate at_h busy
    show Function.update t.registry k none gate.key = some h
    rw [Function.update_of_ne (unused h gate at_h busy)]
    exact sound.registered h gate at_h busy
  · intro k' h entry
    by_cases same : k' = k
    · subst same
      simp at entry
    · have entry : t.registry k' = some h := (Function.update_of_ne same _ t.registry).symm.trans entry
      exact sound.keyed k' h entry

theorem Sound.destroy (sound : Sound t stage) (destroyed : t.destroy g = some t') : Sound t' stage := by
  unfold Gates.destroy at destroyed
  split at destroyed
  · cases destroyed
  · next gate at_g =>
    split at destroyed
    · next unused =>
      cases destroyed
      have marked : Sound (t.update g (fun gate => { gate with dropped := true })) stage := sound.marked (fun _ => ⟨rfl,rfl,rfl⟩)
      split
      · next entry =>
        -- A gate of this key in use would be the registered one, and that has no references.
        refine marked.unregistered ?_
        intro h gate' at_h busy same
        have registered := marked.registered h gate' at_h busy
        rw [same,entry] at registered
        cases registered
        obtain ⟨was,at_g',rfl⟩ := lookup_update at_h
        rw [at_g] at at_g'
        cases at_g'
        rw [if_pos rfl] at busy
        exact busy unused.1
      · exact marked
    · cases destroyed

/-- A new gate for a key of which no gate is in use. -/
theorem Sound.created (sound : Sound t stage) (out : stage p = .out)
    (unused : t.Unused k) :
    Sound ⟨Function.update t.registry k (some t.gates.length),t.gates ++ [⟨k,{p},none,false⟩]⟩
      (Function.update stage p (.holds t.gates.length)) := by
  have inside {h : Nat} {gate : Gate κ ι} (at_h : t.gates[h]? = some gate) : h < t.gates.length :=
    (List.getElem?_eq_some_iff.mp at_h).1
  -- Every gate is an old one or the new one.
  have split {h : Nat} {gate' : Gate κ ι} (at_h : (t.gates ++ [⟨k,{p},none,false⟩])[h]? = some gate') :
      t.gates[h]? = some gate' ∨ (h = t.gates.length ∧ gate' = ⟨k,{p},none,false⟩) := by
    rcases Nat.lt_or_ge h t.gates.length with old | new
    · left
      rwa [List.getElem?_append_left old] at at_h
    · right
      have here : h = t.gates.length := by
        have bound := (List.getElem?_eq_some_iff.mp at_h).1
        simp at bound
        omega
      subst here
      simp at at_h
      exact ⟨rfl,at_h.symm⟩
  have old {h : Nat} {gate : Gate κ ι} (at_h : t.gates[h]? = some gate) :
      (t.gates ++ [(⟨k,{p},none,false⟩ : Gate κ ι)])[h]? = some gate := by
    rw [List.getElem?_append_left (inside at_h)]
    exact at_h
  have others {q : ι} {h : Nat} (before : h < t.gates.length) :
      ((Function.update stage p (.holds t.gates.length) q).gate = some h ↔ (stage q).gate = some h) ∧
      (Function.update stage p (.holds t.gates.length) q = .owns h ↔ stage q = .owns h) := by
    by_cases own : q = p
    · subst own
      simp [out,Stage.gate]
      omega
    · rw [Function.update_of_ne own]
      exact ⟨Iff.rfl,Iff.rfl⟩
  constructor
  · intro h gate' at_h busy
    rcases split at_h with at_h | ⟨rfl,rfl⟩
    · show Function.update t.registry k _ gate'.key = some h
      rw [Function.update_of_ne (unused h gate' at_h busy)]
      exact sound.registered h gate' at_h busy
    · exact Function.update_self ..
  · intro k' h entry
    by_cases same : k' = k
    · subst same
      have here : some t.gates.length = some h := (Function.update_self k' _ t.registry).symm.trans entry
      cases here
      exact ⟨⟨k',{p},none,false⟩,by simp,rfl⟩
    · have entry : t.registry k' = some h := (Function.update_of_ne same _ t.registry).symm.trans entry
      obtain ⟨gate,at_h,key⟩ := sound.keyed k' h entry
      exact ⟨gate,old at_h,key⟩
  · intro h gate' at_h q
    rcases split at_h with at_h | ⟨rfl,rfl⟩
    · rw [(others (inside at_h)).1]
      exact sound.holders h gate' at_h q
    · by_cases own : q = p
      · simp [own,Stage.gate]
      · rw [Function.update_of_ne own]
        simp only [Finset.mem_singleton,own,false_iff]
        intro uses
        obtain ⟨gate,at_h⟩ := sound.exists_gate q _ uses
        exact absurd (inside at_h) (Nat.lt_irrefl _)
  · intro h gate' at_h q
    rcases split at_h with at_h | ⟨rfl,rfl⟩
    · rw [(others (inside at_h)).2]
      exact sound.owner h gate' at_h q
    · by_cases own : q = p
      · simp [own]
      · rw [Function.update_of_ne own]
        simp only [reduceCtorEq,false_iff]
        intro owns
        obtain ⟨gate,at_h⟩ := sound.exists_gate q _ (by rw [owns]; rfl)
        exact absurd (inside at_h) (Nat.lt_irrefl _)
  · intro q h uses
    by_cases own : q = p
    · subst own
      rw [Function.update_self] at uses
      cases uses
      exact ⟨⟨k,{q},none,false⟩,by simp⟩
    · rw [Function.update_of_ne own] at uses
      obtain ⟨gate,at_h⟩ := sound.exists_gate q h uses
      exact ⟨gate,old at_h⟩

theorem Sound.enter (sound : Sound t stage) (out : stage p = .out) (k : κ) :
    Sound (t.enter k p).2 (Function.update stage p (.holds (t.enter k p).1)) ∧ (t.enter k p).2.keyOf (t.enter k p).1 = some k := by
  unfold Gates.enter
  cases upgraded : (t.registry k).filter t.live with
  | some g =>
    obtain ⟨entry,live⟩ := Option.filter_eq_some_iff.mp upgraded
    obtain ⟨gate,at_g,key⟩ := sound.keyed k g entry
    refine ⟨sound.moves (Or.inl out) (Or.inr (Or.inl rfl)) ⟨gate,at_g⟩ (fun _ => rfl) ?_ ?_ ?_,?_⟩
    · intro gate' _ q
      by_cases own : q = p
      · simp [own,Stage.gate]
      · simp [own]
    · intro gate' at_g' q
      have unowned : gate'.owner ≠ some p := by
        rw [ne_eq,sound.owner g gate' at_g' p,out]
        nofun
      by_cases own : q = p
      · simpa [own] using unowned
      · simp [own]
    · intro gate' at_g' _
      rw [at_g] at at_g'
      cases at_g'
      rw [key]
      exact entry
    · simp only
      rw [keyOf_update (by intro gate; rfl)]
      simp [Gates.keyOf,at_g,key]
  | none =>
    refine ⟨sound.created out ?_,by simp [Gates.keyOf]⟩
    intro g gate at_g busy same
    have entry := sound.registered g gate at_g busy
    rw [same] at entry
    have live : t.live g = true := by simpa [Gates.live,at_g] using busy
    simp [entry,live] at upgraded

/-- The gates that are there keep their keys. -/
theorem keyOf_enter (found : t.keyOf g = some k) (k' : κ) (p : ι) : (t.enter k' p).2.keyOf g = some k := by
  unfold Gates.enter
  split
  · simp only
    rw [keyOf_update (by intro gate; rfl)]
    exact found
  · obtain ⟨gate,at_g,key⟩ := Option.map_eq_some_iff.mp found
    show ((t.gates ++ [_])[g]?).map Gate.key = some k
    rw [List.getElem?_append_left (List.getElem?_eq_some_iff.mp at_g).1,at_g]
    exact congrArg some key

omit [DecidableEq κ] [DecidableEq ι] in
theorem keyOf_lock (locked : t.lock g p = some t') (h : Nat) : t'.keyOf h = t.keyOf h := by
  unfold Gates.lock at locked
  split at locked
  · cases locked
    exact keyOf_update (fun _ => rfl)
  · cases locked

theorem keyOf_destroy (destroyed : t.destroy g = some t') (h : Nat) : t'.keyOf h = t.keyOf h := by
  have marked : (t.update g (fun gate => { gate with dropped := true })).keyOf h = t.keyOf h := keyOf_update (fun _ => rfl)
  unfold Gates.destroy at destroyed
  split at destroyed
  · cases destroyed
  · split at destroyed
    · cases destroyed
      split <;> exact marked
    · cases destroyed

end NodeAgent.KeyedGates
