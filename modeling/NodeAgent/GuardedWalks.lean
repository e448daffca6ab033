import Mathlib.Logic.Relation
import Mathlib.Data.List.Basic

/-!
Walks through a graph that enter no node twice. At a node a list of steps is taken, each of
which fails and ends the walk, or leads to another node. A walk over finitely many nodes comes
to an end, and fails exactly if it can reach a node that fails.
-/
namespace NodeAgent.GuardedWalks

inductive Step (N E : Type)
  | fail (e : E)
  | go (n : N)

variable {N E : Type}

/-- A step that leads on; `enter` walks from the next node with the nodes entered so far. -/
def take (enter : List N → N → Except E (List N)) (visited : List N) : Step N E → Except E (List N)
  | .fail e => .error e
  | .go n => enter visited n

/-- The steps of several lists are taken list by list. -/
theorem foldlM_flatMap {α β γ : Type} (f : β → α → Except E β) (g : γ → List α) (xs : List γ) (start : β) :
    (xs.flatMap g).foldlM f start = xs.foldlM (fun found x => (g x).foldlM f found) start := by
  induction xs generalizing start with
  | nil => rfl
  | cons x rest ih =>
    rw [List.flatMap_cons,List.foldlM_append,List.foldlM_cons]
    exact congrArg _ (funext ih)

section Walks
variable (steps : N → List (Step N E))

/-- The fuel is for nodes that are entered from each other. -/
def walk [DecidableEq N] : Nat → List N → N → Except E (List N)
  | 0, visited, _ => .ok visited
  | fuel + 1, visited, n => if n ∈ visited then .ok visited else (steps n).foldlM (take (walk fuel)) (n :: visited)

/-- The walk itself, without fuel: how steps end, with the nodes that are entered by then. -/
inductive Ends : List N → List (Step N E) → Except E (List N) → Prop
  | done {visited : List N} : Ends visited [] (.ok visited)
  | failed {visited : List N} {rest : List (Step N E)} {e : E} : Ends visited (.fail e :: rest) (.error e)
  | seen {visited : List N} {rest : List (Step N E)} {n : N} {result : Except E (List N)} (member : n ∈ visited)
      (outer : Ends visited rest result) : Ends visited (.go n :: rest) result
  | failing {visited : List N} {rest : List (Step N E)} {n : N} {e : E} (fresh : n ∉ visited)
      (inner : Ends (n :: visited) (steps n) (.error e)) : Ends visited (.go n :: rest) (.error e)
  | entered {visited later : List N} {rest : List (Step N E)} {n : N} {result : Except E (List N)} (fresh : n ∉ visited)
      (inner : Ends (n :: visited) (steps n) (.ok later)) (outer : Ends later rest result) : Ends visited (.go n :: rest) result

def Leads (a b : N) : Prop := .go b ∈ steps a

end Walks

section Ends
variable {steps : N → List (Step N E)} {visited : List N} {todo : List (Step N E)} {result : Except E (List N)}

/-- What is entered stays so. -/
theorem Ends.grows (ends : Ends steps visited todo result) {later : List N} (ok : result = .ok later) : visited ⊆ later := by
  induction ends generalizing later with
  | done =>
    cases ok
    exact fun _ member => member
  | failed => cases ok
  | seen _ _ ih => exact ih ok
  | failing => cases ok
  | entered _ _ _ first second => exact fun n member => second ok (first rfl (List.mem_cons_of_mem _ member))

/-! ### Walks that end -/

section Ending
variable [DecidableEq N]

/-- The nodes that can still be entered. -/
def left (nodes visited : List N) : Nat := (nodes.filter (fun n => n ∉ visited)).length

theorem left_le {nodes later : List N} (grows : visited ⊆ later) : left nodes later ≤ left nodes visited := by
  refine (List.monotone_filter_right nodes ?_).length_le
  intro n outside
  rw [decide_eq_true_eq] at outside ⊢
  exact fun member => outside (grows member)

theorem left_lt {nodes : List N} {n : N} (known : n ∈ nodes) (fresh : n ∉ visited) : left nodes (n :: visited) < left nodes visited := by
  have smaller : nodes.filter (fun m => m ∉ n :: visited) = (nodes.filter (fun m => m ∉ visited)).filter (fun m => m ≠ n) := by
    rw [List.filter_filter]
    refine List.filter_congr (fun m _ => ?_)
    simp [not_or]
  rw [left,left,smaller]
  exact List.length_filter_lt_length_iff_exists.mpr ⟨n,List.mem_filter.mpr ⟨known,decide_eq_true fresh⟩,by simp⟩

/-- The induction is on the fuel, and within it on the steps; every node that is entered leaves fewer to enter. -/
theorem walk_ends {nodes : List N} (closed : ∀ n ∈ nodes, ∀ m, .go m ∈ steps n → m ∈ nodes) {fuel : Nat} (enough : left nodes visited < fuel)
    (known : ∀ n, .go n ∈ todo → n ∈ nodes) : Ends steps visited todo (todo.foldlM (take (walk steps fuel)) visited) := by
  induction fuel generalizing visited todo with
  | zero => omega
  | succ fuel walks =>
    induction todo generalizing visited with
    | nil => exact .done
    | cons step rest ih =>
      have later_known : ∀ n, .go n ∈ rest → n ∈ nodes := fun n later => known n (List.mem_cons_of_mem _ later)
      rw [List.foldlM_cons]
      cases step with
      | fail e => exact .failed
      | go n =>
        rw [take,walk]
        by_cases member : n ∈ visited
        · rw [if_pos member]
          exact .seen member (ih enough later_known)
        · rw [if_neg member]
          have here := known n List.mem_cons_self
          have fewer := left_lt here member
          have inner := walks (show left nodes (n :: visited) < fuel by omega) (closed n here)
          cases entered : (steps n).foldlM (take (walk steps fuel)) (n :: visited) with
          | error e =>
            rw [entered] at inner
            exact .failing member inner
          | ok later =>
            rw [entered] at inner
            have smaller : left nodes later ≤ left nodes (n :: visited) := left_le (inner.grows rfl)
            exact .entered member inner (ih (by omega) later_known)

end Ending

/-! ### What a walk finds -/

/-- A walk that fails has reached a node that does. -/
theorem Ends.sound (ends : Ends steps visited todo result) {e : E} (fails : result = .error e) :
    .fail e ∈ todo ∨ ∃ n, .go n ∈ todo ∧ ∃ m, Relation.ReflTransGen (Leads steps) n m ∧ .fail e ∈ steps m := by
  induction ends with
  | done => cases fails
  | failed =>
    cases fails
    exact .inl List.mem_cons_self
  | seen _ _ ih =>
    rcases ih fails with here | ⟨n,member,found⟩
    · exact .inl (List.mem_cons_of_mem _ here)
    · exact .inr ⟨n,List.mem_cons_of_mem _ member,found⟩
  | @failing _ _ n _ _ _ ih =>
    refine .inr ⟨n,List.mem_cons_self,?_⟩
    rcases ih fails with here | ⟨next,member,m,reaches,found⟩
    · exact ⟨n,.refl,here⟩
    · exact ⟨m,.head member reaches,found⟩
  | entered _ _ _ _ ih =>
    rcases ih fails with here | ⟨n,member,found⟩
    · exact .inl (List.mem_cons_of_mem _ here)
    · exact .inr ⟨n,List.mem_cons_of_mem _ member,found⟩

/-- A step that does not fail, and leads to a node that has been entered. -/
def Taken (visited : List N) : Step N E → Prop
  | .fail _ => False
  | .go n => n ∈ visited

theorem Taken.mono {later : List N} {step : Step N E} (taken : Taken visited step) (grows : visited ⊆ later) : Taken later step := by
  cases step with
  | fail e => exact taken
  | go n => exact grows taken

/-- A walk that does not fail has taken all steps, and those of all nodes that it has entered. -/
theorem Ends.complete (ends : Ends steps visited todo result) {later : List N} (ok : result = .ok later) :
    (∀ step ∈ todo, Taken later step) ∧ ∀ n ∈ later, n ∈ visited ∨ ∀ step ∈ steps n, Taken later step := by
  induction ends generalizing later with
  | done =>
    cases ok
    exact ⟨by simp,fun n member => .inl member⟩
  | failed => cases ok
  | seen member outer ih =>
    obtain ⟨taken,closed⟩ := ih ok
    exact ⟨List.forall_mem_cons.mpr ⟨outer.grows ok member,taken⟩,closed⟩
  | failing => cases ok
  | @entered visited between rest n _ fresh inner outer first second =>
    obtain ⟨own,inside⟩ := first rfl
    obtain ⟨taken,outside⟩ := second ok
    have grows := outer.grows ok
    refine ⟨List.forall_mem_cons.mpr ⟨grows (inner.grows rfl List.mem_cons_self),taken⟩,?_⟩
    intro m member
    rcases outside m member with between | after
    · rcases inside m between with before | after
      · rcases List.mem_cons.mp before with rfl | before
        · exact .inr (fun step listed => (own step listed).mono grows)
        · exact .inl before
      · exact .inr (fun step listed => (after step listed).mono grows)
    · exact .inr after

/-- A walk fails exactly if a node that fails can be reached from where it starts. -/
theorem Ends.fails_iff {starts : List N} (ends : Ends steps [] (starts.map .go) result) :
    (∃ e, result = .error e) ↔ ∃ s ∈ starts, ∃ n, Relation.ReflTransGen (Leads steps) s n ∧ ∃ e, .fail e ∈ steps n := by
  constructor
  · rintro ⟨e,fails⟩
    rcases ends.sound fails with here | ⟨s,member,n,reaches,found⟩
    · obtain ⟨_,_,impossible⟩ := List.mem_map.mp here
      cases impossible
    · obtain ⟨_,listed,same⟩ := List.mem_map.mp member
      cases same
      exact ⟨s,listed,n,reaches,e,found⟩
  · rintro ⟨s,member,n,reaches,e,found⟩
    cases final : result with
    | error e => exact ⟨e,rfl⟩
    | ok later =>
      obtain ⟨started,closed⟩ := ends.complete final
      have all : ∀ n ∈ later, ∀ step ∈ steps n, Taken later step := fun n entered => (closed n entered).resolve_left List.not_mem_nil
      have entered : n ∈ later := by
        clear found
        induction reaches with
        | refl => exact started _ (List.mem_map_of_mem member)
        | tail _ next ih => exact all _ ih _ next
      exact (all n entered _ found).elim

end Ends

end NodeAgent.GuardedWalks
