import Mathlib.Data.Set.Lattice
import Mathlib.Order.CompletePartialOrder
import Mathlib.Order.Interval.Set.Basic
import Mathlib.Data.List.Basic
import Mathlib.Order.MinMax

/-!
Lists of closed intervals of a linear order. A list with gaps between its intervals is known
from the set that it denotes; merging the intervals of a sorted list that leave no gap gives
such a list.
-/
namespace NodeAgent.Intervals

@[ext] structure Interval (α : Type) where
  start : α
  stop : α
deriving DecidableEq, Repr

variable {α : Type} [LinearOrder α] {i j : Interval α} {listed others : List (Interval α)} {x : α}

def Interval.set (i : Interval α) : Set α := Set.Icc i.start i.stop

/-- The elements of the intervals of a list. -/
def denoted (listed : List (Interval α)) : Set α := {x | ∃ i ∈ listed, x ∈ i.set}

/-- There is an element between the first interval and the second. -/
def Apart (i j : Interval α) : Prop := ∃ x, i.stop < x ∧ x < j.start

/-- Intervals in order, none of them empty, with gaps between them. -/
structure Gapped (listed : List (Interval α)) : Prop where
  filled : ∀ i ∈ listed, i.start ≤ i.stop
  apart : listed.Pairwise Apart

/-- Intervals in order, none of them empty, that have no element in common. -/
structure Ordered (listed : List (Interval α)) : Prop where
  filled : ∀ i ∈ listed, i.start ≤ i.stop
  before : listed.Pairwise (fun i j => i.stop < j.start)

@[simp] theorem denoted_nil : denoted ([] : List (Interval α)) = ∅ := by
  ext x
  simp [denoted]

@[simp] theorem denoted_cons : denoted (i :: listed) = i.set ∪ denoted listed := by
  ext x
  simp [denoted]

@[simp] theorem denoted_append : denoted (listed ++ others) = denoted listed ∪ denoted others := by
  ext x
  simp only [denoted,List.mem_append,Set.mem_ofPred_eq,Set.mem_union,or_and_right,exists_or]

theorem Apart.before (apart : Apart i j) : i.stop < j.start := by
  obtain ⟨x,after,before⟩ := apart
  exact after.trans before

theorem Gapped.ordered (gapped : Gapped listed) : Ordered listed := ⟨gapped.filled,gapped.apart.imp Apart.before⟩

theorem Ordered.tail (ordered : Ordered (i :: listed)) : Ordered listed :=
  ⟨fun j member => ordered.filled j (List.mem_cons_of_mem _ member),(List.pairwise_cons.mp ordered.before).2⟩

theorem Gapped.tail (gapped : Gapped (i :: listed)) : Gapped listed :=
  ⟨fun j member => gapped.filled j (List.mem_cons_of_mem _ member),(List.pairwise_cons.mp gapped.apart).2⟩

theorem Ordered.append (first : Ordered listed) (second : Ordered others) (before : ∀ i ∈ listed, ∀ j ∈ others, i.stop < j.start) :
    Ordered (listed ++ others) := by
  refine ⟨fun i member => ?_,List.pairwise_append.mpr ⟨first.before,second.before,before⟩⟩
  rcases List.mem_append.mp member with here | there
  · exact first.filled i here
  · exact second.filled i there

/-- A list of no elements is empty. -/
theorem Ordered.denoted_nonempty (ordered : Ordered listed) : (denoted listed).Nonempty ↔ listed ≠ [] := by
  cases listed with
  | nil => simp
  | cons i rest => exact ⟨fun _ => List.cons_ne_nil _ _,fun _ => ⟨i.start,i,List.mem_cons_self,le_rfl,ordered.filled i List.mem_cons_self⟩⟩

/-- The first interval comes before all others. -/
theorem Ordered.head_lt (ordered : Ordered (i :: listed)) (member : x ∈ denoted listed) : i.stop < x := by
  obtain ⟨j,there,inside⟩ := member
  exact ((List.pairwise_cons.mp ordered.before).1 j there).trans_le inside.1

theorem Ordered.head_le (ordered : Ordered (i :: listed)) (member : x ∈ denoted (i :: listed)) : i.start ≤ x := by
  rw [denoted_cons] at member
  rcases member with inside | later
  · exact inside.1
  · exact (ordered.filled i List.mem_cons_self).trans (ordered.head_lt later).le

/-- The elements after the first interval. -/
theorem Ordered.denoted_tail (ordered : Ordered (i :: listed)) : denoted listed = {x ∈ denoted (i :: listed) | i.stop < x} := by
  ext x
  rw [denoted_cons]
  constructor
  · exact fun later => ⟨.inr later,ordered.head_lt later⟩
  · rintro ⟨inside | later,after⟩
    · exact absurd inside.2 (not_le.mpr after)
    · exact later

/-! ### Uniqueness -/

/-- The first interval ends where that of a list with the same elements ends, or later. -/
theorem Gapped.head_stop (gapped : Gapped (i :: listed)) (start : i.start = j.start)
    (same : denoted (i :: listed) = denoted (j :: others)) : j.stop ≤ i.stop := by
  by_contra longer
  rw [not_le] at longer
  have filled := gapped.filled i List.mem_cons_self
  -- What the second interval has after the first one is in the rest of the first list.
  have later (x : α) (after : i.stop < x) (inside : x ≤ j.stop) : x ∈ denoted listed := by
    have among : x ∈ denoted (i :: listed) := by
      rw [same,denoted_cons]
      exact .inl ⟨start ▸ filled.trans after.le,inside⟩
    rw [denoted_cons] at among
    exact among.resolve_left (fun own => absurd own.2 (not_le.mpr after))
  cases listed with
  | nil => simpa using later j.stop longer le_rfl
  | cons k rest =>
    obtain ⟨x,after,before⟩ := (List.pairwise_cons.mp gapped.apart).1 k List.mem_cons_self
    have tail := gapped.tail.ordered
    have reached := tail.head_le (later j.stop longer le_rfl)
    have early := tail.head_le (later x after (before.trans_le reached).le)
    exact absurd before (not_lt.mpr early)

theorem Ordered.start_le (ordered : Ordered (i :: listed)) (ordered' : Ordered (j :: others)) (same : denoted (i :: listed) = denoted (j :: others)) :
    i.start ≤ j.start := by
  have among : j.start ∈ denoted (i :: listed) := by
    rw [same,denoted_cons]
    exact .inl ⟨le_rfl,ordered'.filled j List.mem_cons_self⟩
  exact ordered.head_le among

/-- A list with gaps is known from its elements. -/
theorem Gapped.unique (gapped : Gapped listed) (gapped' : Gapped others) (same : denoted listed = denoted others) : listed = others := by
  induction listed generalizing others with
  | nil =>
    cases others with
    | nil => rfl
    | cons j rest =>
      have among : j.start ∈ denoted (j :: rest) := by
        rw [denoted_cons]
        exact .inl ⟨le_rfl,gapped'.filled j List.mem_cons_self⟩
      rw [← same,denoted_nil] at among
      exact absurd among (Set.notMem_empty _)
  | cons i rest ih =>
    cases others with
    | nil =>
      have among : i.start ∈ denoted (i :: rest) := by
        rw [denoted_cons]
        exact .inl ⟨le_rfl,gapped.filled i List.mem_cons_self⟩
      rw [same,denoted_nil] at among
      exact absurd among (Set.notMem_empty _)
    | cons j rest' =>
      have ordered := gapped.ordered
      have ordered' := gapped'.ordered
      have start : i.start = j.start := le_antisymm (ordered.start_le ordered' same) (ordered'.start_le ordered same.symm)
      have stop : i.stop = j.stop := le_antisymm (gapped'.head_stop start.symm same.symm) (gapped.head_stop start same)
      have tails : denoted rest = denoted rest' := by rw [ordered.denoted_tail,ordered'.denoted_tail,same,stop]
      rw [Interval.ext start stop,ih gapped.tail gapped'.tail tails]

/-! ### Merging -/

section Merging
variable (touches : α → α → Bool)

/-- The rest of a sorted list is merged into the last interval, and what leaves a gap comes after it. -/
def mergeFrom (last : Interval α) : List (Interval α) → List (Interval α)
  | [] => [last]
  | current :: rest =>
    if touches last.stop current.start then mergeFrom ⟨last.start,max last.stop current.stop⟩ rest
    else last :: mergeFrom current rest

def merge : List (Interval α) → List (Interval α)
  | [] => []
  | first :: rest => mergeFrom touches first rest

variable {touches} {last : Interval α}

theorem mergeFrom_starts (sorted : (last :: listed).Pairwise (fun i j => i.start ≤ j.start)) : ∀ i ∈ mergeFrom touches last listed, last.start ≤ i.start := by
  induction listed generalizing last with
  | nil =>
    intro i member
    rw [List.mem_singleton.mp member]
  | cons current rest ih =>
    obtain ⟨first,others⟩ := List.pairwise_cons.mp sorted
    intro i member
    rw [mergeFrom] at member
    split at member
    · refine @ih ⟨last.start,max last.stop current.stop⟩ ?_ i member
      exact List.pairwise_cons.mpr ⟨fun j there => first j (List.mem_cons_of_mem _ there),(List.pairwise_cons.mp others).2⟩
    · rcases List.mem_cons.mp member with rfl | later
      · exact le_rfl
      · exact (first current List.mem_cons_self).trans (ih others i later)

variable (gapless : ∀ x y, touches x y = true ↔ ¬ ∃ z, x < z ∧ z < y)
include gapless

/-- Two intervals without a gap make one. -/
theorem joined (next : i.start ≤ j.start) (touching : touches i.stop j.start = true) :
    (Interval.mk i.start (max i.stop j.stop)).set = i.set ∪ j.set := by
  have none := (gapless _ _).mp touching
  ext x
  simp only [Interval.set,Set.mem_Icc,Set.mem_union,le_max_iff]
  constructor
  · rintro ⟨after,before | before⟩
    · exact .inl ⟨after,before⟩
    · by_cases own : x ≤ i.stop
      · exact .inl ⟨after,own⟩
      · refine .inr ⟨?_,before⟩
        by_contra early
        exact none ⟨x,not_le.mp own,not_le.mp early⟩
  · rintro (⟨after,before⟩ | ⟨after,before⟩)
    · exact ⟨after,.inl before⟩
    · exact ⟨next.trans after,.inr before⟩

theorem mergeFrom_spec (filled : ∀ i ∈ last :: listed, i.start ≤ i.stop) (sorted : (last :: listed).Pairwise (fun i j => i.start ≤ j.start)) :
    Gapped (mergeFrom touches last listed) ∧ denoted (mergeFrom touches last listed) = denoted (last :: listed) := by
  induction listed generalizing last with
  | nil => exact ⟨⟨filled,List.pairwise_singleton _ _⟩,rfl⟩
  | cons current rest ih =>
    obtain ⟨first,others⟩ := List.pairwise_cons.mp sorted
    have own := filled last List.mem_cons_self
    have later := fun i there => filled i (List.mem_cons_of_mem last there)
    rw [mergeFrom]
    split
    · next touching =>
      have merged : ∀ i ∈ (⟨last.start,max last.stop current.stop⟩ : Interval α) :: rest, i.start ≤ i.stop := by
        intro i member
        rcases List.mem_cons.mp member with rfl | there
        · exact own.trans (le_max_left _ _)
        · exact later i (List.mem_cons_of_mem _ there)
      have sorted_merged : ((⟨last.start,max last.stop current.stop⟩ : Interval α) :: rest).Pairwise (fun i j => i.start ≤ j.start) :=
        List.pairwise_cons.mpr ⟨fun j there => first j (List.mem_cons_of_mem _ there),(List.pairwise_cons.mp others).2⟩
      obtain ⟨gapped,same⟩ := ih merged sorted_merged
      refine ⟨gapped,?_⟩
      rw [same,denoted_cons,denoted_cons,denoted_cons,joined gapless (first current List.mem_cons_self) touching,Set.union_assoc]
    · next separate =>
      obtain ⟨gapped,same⟩ := ih later others
      obtain ⟨x,after,before⟩ := not_not.mp (mt (gapless last.stop current.start).mpr separate)
      refine ⟨⟨?_,List.pairwise_cons.mpr ⟨?_,gapped.apart⟩⟩,?_⟩
      · intro i member
        rcases List.mem_cons.mp member with rfl | there
        · exact own
        · exact gapped.filled i there
      · intro i member
        exact ⟨x,after,before.trans_le (mergeFrom_starts others i member)⟩
      · rw [denoted_cons,same,denoted_cons (i := last)]

/-- A sorted list is merged into one with gaps and the same elements. -/
theorem merge_spec (filled : ∀ i ∈ listed, i.start ≤ i.stop) (sorted : listed.Pairwise (fun i j => i.start ≤ j.start)) :
    Gapped (merge touches listed) ∧ denoted (merge touches listed) = denoted listed := by
  cases listed with
  | nil => exact ⟨⟨by simp [merge],.nil⟩,rfl⟩
  | cons first rest => exact mergeFrom_spec gapless filled sorted

end Merging

/-! ### Common elements -/

/-- Two intervals have an element in common if the later start is not after the earlier stop. -/
theorem overlap_iff : (i.set ∩ j.set).Nonempty ↔ max i.start j.start ≤ min i.stop j.stop := by
  simp only [Interval.set,Set.Icc_inter_Icc,Set.nonempty_Icc]

/-- Two lists have no element in common if no two of their intervals have. -/
theorem disjoint_iff : Disjoint (denoted listed) (denoted others) ↔ ∀ i ∈ listed, ∀ j ∈ others, ¬ max i.start j.start ≤ min i.stop j.stop := by
  rw [Set.disjoint_left]
  constructor
  · intro apart i here j there overlap
    obtain ⟨x,left,right⟩ := overlap_iff.mpr overlap
    exact apart ⟨i,here,left⟩ ⟨j,there,right⟩
  · rintro apart x ⟨i,here,left⟩ ⟨j,there,right⟩
    exact apart i here j there (overlap_iff.mp ⟨x,left,right⟩)

end NodeAgent.Intervals
