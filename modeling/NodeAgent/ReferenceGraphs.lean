import Mathlib.Logic.Relation
import Mathlib.Data.List.Chain
import Mathlib.Logic.Equiv.Defs

/-!
Graphs of references between named things, some of which stand for one of the others. A
graph is well-formed when references lead to known things, never in a circle and never
too far, and when nothing is built on a choice that is still open.
-/
namespace NodeAgent.ReferenceGraphs

structure ReferenceGraph (T : Type) where
  known : T → Prop
  refers : T → T → Prop
  selects : T → T → Prop
  embeds : T → T → Prop
  choice : T → Prop

variable {T U : Type} {g : ReferenceGraph T} {limit : Nat}

variable (g) in
/-- What is selected in the end is a choice that is still open. -/
inductive Chooses : T → Prop
  | choice {a : T} (choice : g.choice a) : Chooses a
  | selected {a b : T} (selects : g.selects a b) (chooses : Chooses b) : Chooses a

variable (g limit) in
structure WellFormed : Prop where
  closed : ∀ a b, g.refers a b → g.known b
  acyclic : ∀ a, ¬ Relation.TransGen g.refers a a
  short : ∀ path : List T, path.IsChain g.refers → path.length ≤ limit
  plain : ∀ a b, g.embeds a b → ¬ Chooses g b

/-! ### Walks -/

variable (g) in
/-- A walk of so many things that starts here. -/
def Walk (a : T) (n : Nat) : Prop := ∃ rest : List T, (a :: rest).IsChain g.refers ∧ rest.length + 1 = n

theorem Walk.one (a : T) : Walk g a 1 := ⟨[],List.isChain_singleton a,rfl⟩

theorem Walk.step {a b : T} {n : Nat} (refers : g.refers a b) (walk : Walk g b n) : Walk g a (n + 1) := by
  obtain ⟨rest,chain,length⟩ := walk
  exact ⟨b :: rest,List.isChain_cons_cons.mpr ⟨refers,chain⟩,by rw [List.length_cons,length]⟩

theorem WellFormed.walk_le (formed : WellFormed g limit) {a : T} {n : Nat} (walk : Walk g a n) : n ≤ limit := by
  obtain ⟨rest,chain,length⟩ := walk
  have short := formed.short _ chain
  rw [List.length_cons] at short
  omega

/-- The things on a stack lead to the one on its top. -/
theorem stack_leads {a : T} {stack : List T} (chain : (a :: stack).IsChain (fun x y => g.refers y x)) :
    ∀ b ∈ stack, Relation.TransGen g.refers b a := by
  have leads : (a :: stack).IsChain (fun x y => Relation.TransGen g.refers y x) := chain.imp (fun _ _ => .single)
  have : IsTrans T (fun x y => Relation.TransGen g.refers y x) := ⟨fun _ _ _ first second => second.trans first⟩
  exact (List.pairwise_cons.mp (List.isChain_iff_pairwise.mp leads)).1

theorem WellFormed.fresh (formed : WellFormed g limit) {a : T} {stack : List T} (chain : (a :: stack).IsChain (fun x y => g.refers y x)) : a ∉ stack :=
  fun member => formed.acyclic a (stack_leads chain a member)

theorem WellFormed.stack_lt (formed : WellFormed g limit) {a : T} {stack : List T} (chain : (a :: stack).IsChain (fun x y => g.refers y x)) :
    stack.length < limit := by
  have short := formed.short (a :: stack).reverse (List.isChain_reverse.mpr chain)
  rw [List.length_reverse,List.length_cons] at short
  omega

/-- There is no way back to where all references come to an end. -/
theorem acyclic_of_acc {a : T} (acc : Acc (fun b a => g.refers a b) a) : ¬ Relation.TransGen g.refers a a := by
  induction acc with
  | intro a _ ih =>
    intro cycle
    obtain ⟨b,first,back⟩ := Relation.TransGen.head'_iff.mp cycle
    exact ih b first (Relation.TransGen.tail' back first)

/-! ### Renaming -/

/-- The graph under other names. -/
structure Renames (f : T ≃ U) (g : ReferenceGraph T) (h : ReferenceGraph U) : Prop where
  known : ∀ a, g.known a ↔ h.known (f a)
  refers : ∀ a b, g.refers a b ↔ h.refers (f a) (f b)
  selects : ∀ a b, g.selects a b ↔ h.selects (f a) (f b)
  embeds : ∀ a b, g.embeds a b ↔ h.embeds (f a) (f b)
  choice : ∀ a, g.choice a ↔ h.choice (f a)

variable {h : ReferenceGraph U} {f : T ≃ U}

theorem Renames.symm (renames : Renames f g h) : Renames f.symm h g where
  known a := by rw [renames.known,f.apply_symm_apply]
  refers a b := by rw [renames.refers,f.apply_symm_apply,f.apply_symm_apply]
  selects a b := by rw [renames.selects,f.apply_symm_apply,f.apply_symm_apply]
  embeds a b := by rw [renames.embeds,f.apply_symm_apply,f.apply_symm_apply]
  choice a := by rw [renames.choice,f.apply_symm_apply]

theorem Renames.chooses (renames : Renames f g h) {a : T} (chooses : Chooses g a) : Chooses h (f a) := by
  induction chooses with
  | choice choice => exact .choice ((renames.choice _).mp choice)
  | selected selects _ ih => exact .selected ((renames.selects _ _).mp selects) ih

theorem Renames.wellFormed (renames : Renames f g h) (formed : WellFormed g limit) : WellFormed h limit := by
  have back := renames.symm
  refine ⟨?_,?_,?_,?_⟩
  · intro a b refers
    exact (back.known b).mpr (formed.closed _ _ ((back.refers a b).mp refers))
  · intro a cycle
    exact formed.acyclic (f.symm a) (cycle.lift f.symm (fun x y => (back.refers x y).mp))
  · intro path chain
    have short := formed.short (path.map f.symm) ((List.isChain_map f.symm).mpr (chain.imp (fun x y => (back.refers x y).mp)))
    rwa [List.length_map] at short
  · intro a b embeds chooses
    exact formed.plain _ _ ((back.embeds a b).mp embeds) (back.chooses chooses)

theorem Renames.wellFormed_iff (renames : Renames f g h) : WellFormed h limit ↔ WellFormed g limit :=
  ⟨renames.symm.wellFormed,renames.wellFormed⟩

end NodeAgent.ReferenceGraphs
