import Mathlib.Data.List.Basic
import Mathlib.Data.List.Nodup
import Mathlib.Data.List.Perm.Basic
import Mathlib.Order.Basic

/-!
Lists whose entries have keys, compared up to the order of entries of different keys. A
stable sort by key gives every such class one representative.
-/
namespace NodeAgent.KeyedLists

section Keyed
variable {α β κ : Type} [DecidableEq κ] (key : α → κ)

/-- The entries under a key, in order. -/
def under (k : κ) (xs : List α) : List α := xs.filter (fun x => key x = k)

/-- The same entries under every key. -/
def Alike (xs ys : List α) : Prop := ∀ k, under key k xs = under key k ys

variable {key} {xs ys zs : List α}

theorem Alike.refl (xs : List α) : Alike key xs xs := fun _ => rfl

theorem Alike.symm (alike : Alike key xs ys) : Alike key ys xs := fun k => (alike k).symm

theorem Alike.trans (first : Alike key xs ys) (second : Alike key ys zs) : Alike key xs zs := fun k => (first k).trans (second k)

@[simp] theorem under_nil (k : κ) : under key k [] = [] := rfl

theorem under_cons (k : κ) (x : α) (xs : List α) : under key k (x :: xs) = if key x = k then x :: under key k xs else under key k xs := by
  simp [under,List.filter_cons]

theorem mem_under {k : κ} {x : α} : x ∈ under key k xs ↔ x ∈ xs ∧ key x = k := by
  simp [under]

theorem Alike.mem_iff (alike : Alike key xs ys) (x : α) : x ∈ xs ↔ x ∈ ys := by
  have same := alike (key x)
  constructor
  · intro member
    exact (mem_under.mp (same ▸ mem_under.mpr ⟨member,rfl⟩)).1
  · intro member
    exact (mem_under.mp (same ▸ mem_under.mpr ⟨member,rfl⟩)).1

/-- A key that occurs once has one entry at most. -/
theorem under_of_nodup (nodup : (xs.map key).Nodup) (k : κ) : under key k xs = (xs.find? (fun x => key x = k)).toList := by
  induction xs with
  | nil => rfl
  | cons x rest ih =>
    rw [List.map_cons,List.nodup_cons] at nodup
    rw [under_cons,List.find?_cons]
    by_cases here : key x = k
    · have none_later : under key k rest = [] := by
        rw [under,List.filter_eq_nil_iff]
        intro y member same
        have same : key y = k := by simpa using same
        exact nodup.1 (here.trans same.symm ▸ List.mem_map_of_mem member)
      simp [here,none_later]
    · simp [here,ih nodup.2]

theorem alike_iff_find? (xs_nodup : (xs.map key).Nodup) (ys_nodup : (ys.map key).Nodup) :
    Alike key xs ys ↔ ∀ k, xs.find? (fun x => key x = k) = ys.find? (fun y => key y = k) := by
  constructor
  · intro alike k
    have same := alike k
    rw [under_of_nodup xs_nodup,under_of_nodup ys_nodup] at same
    revert same
    cases xs.find? (fun x => key x = k) <;> cases ys.find? (fun y => key y = k) <;> simp
  · intro same k
    rw [under_of_nodup xs_nodup,under_of_nodup ys_nodup,same k]

/-- The order does not matter where no key is used twice. -/
theorem alike_of_perm (nodup : (xs.map key).Nodup) (perm : xs.Perm ys) : Alike key xs ys := by
  intro k
  have filtered : (under key k xs).Perm (under key k ys) := perm.filter _
  rw [under_of_nodup nodup,under_of_nodup ((perm.map key).nodup_iff.mp nodup)] at filtered ⊢
  cases first : xs.find? (fun x => key x = k) with
  | none =>
    rw [first] at filtered
    exact (List.nil_perm.mp filtered).symm
  | some x =>
    rw [first] at filtered
    exact List.singleton_perm.mp filtered

theorem under_map {key' : β → κ} {f : α → β} (keeps : ∀ x, key' (f x) = key x) (k : κ) (xs : List α) :
    under key' k (xs.map f) = (under key k xs).map f := by
  rw [under,List.filter_map]
  congr 2
  funext x
  exact congrArg (fun other => decide (other = k)) (keeps x)

/-! ### Changes under one key -/

/-- What a run of changes comes to for the entries under one key: nothing, a fixed result, or
    an entry in the place of the first one. -/
inductive Effect (α : Type)
  | keep
  | become (entries : List α)
  | lead (entry : α)

def Effect.run : Effect α → List α → List α
  | .keep, entries => entries
  | .become entries, _ => entries
  | .lead entry, entries => entry :: entries.tail

/-- All entries are dropped. -/
def Effect.clear : Effect α → Effect α := fun _ => .become []

/-- The first entry is replaced, or the entry is added. -/
def Effect.put (x : α) : Effect α → Effect α
  | .keep => .lead x
  | .become entries => .become (x :: entries.tail)
  | .lead _ => .lead x

@[simp] theorem Effect.run_clear (e : Effect α) (entries : List α) : e.clear.run entries = [] := rfl

@[simp] theorem Effect.run_put (x : α) (e : Effect α) (entries : List α) : (e.put x).run entries = x :: (e.run entries).tail := by
  cases e <;> rfl

/-- A run of changes can be repeated. -/
theorem Effect.run_run (e : Effect α) (entries : List α) : e.run (e.run entries) = e.run entries := by
  cases e <;> rfl

theorem under_without (k k' : κ) (xs : List α) : under key k (xs.filter (fun x => key x ≠ k')) = if k = k' then [] else under key k xs := by
  rw [under,List.filter_filter]
  split
  · next same =>
    subst same
    rw [List.filter_eq_nil_iff]
    simp
  · next different =>
    refine List.filter_congr ?_
    intro x _
    by_cases here : key x = k
    · simp [here,different]
    · simp [here]

end Keyed

/-! ### Sorting -/

section Sorting
variable {α β κ : Type} [Ord κ] (key : α → κ)

def byKey (a b : α) : Bool := (compare (key a) (key b)).isLE

/-- `sort_by(|left, right| left.key.cmp(&right.key))`, which is stable. -/
def sortByKey (xs : List α) : List α := xs.mergeSort (byKey key)

variable {key} {xs ys : List α}

theorem sortByKey_perm (xs : List α) : (sortByKey key xs).Perm xs := List.mergeSort_perm xs _

theorem sortByKey_map {key' : β → κ} {f : α → β} (keeps : ∀ x, key' (f x) = key x) (xs : List α) :
    sortByKey key' (xs.map f) = (sortByKey key xs).map f := by
  refine (List.map_mergeSort ?_).symm
  intro a _ b _
  unfold byKey
  rw [keeps,keeps]

variable [Std.TransOrd κ]

theorem byKey_trans (a b c : α) (first : byKey key a b = true) (second : byKey key b c = true) : byKey key a c = true :=
  Std.TransCmp.isLE_trans first second

theorem byKey_of_eq {a b : α} (same : key a = key b) : byKey key a b = true := by
  unfold byKey
  rw [same,Std.ReflOrd.compare_self]
  rfl

theorem byKey_total (a b : α) : (byKey key a b || byKey key b a) = true := by
  unfold byKey
  rw [Std.OrientedOrd.eq_swap (a := key b)]
  cases compare (key a) (key b) <;> rfl

theorem sortByKey_sorted (xs : List α) : (sortByKey key xs).Pairwise (fun a b => byKey key a b = true) :=
  List.pairwise_mergeSort byKey_trans byKey_total xs

/-- The sort is stable. -/
theorem under_sortByKey [DecidableEq κ] (k : κ) (xs : List α) : under key k (sortByKey key xs) = under key k xs := by
  have same_key : (under key k xs).Pairwise (fun a b => byKey key a b = true) := by
    refine List.pairwise_of_forall_mem_list ?_
    intro a a_under b b_under
    exact byKey_of_eq ((mem_under.mp a_under).2.trans (mem_under.mp b_under).2.symm)
  have sublist : List.Sublist (under key k xs) (sortByKey key xs) :=
    List.sublist_mergeSort byKey_trans byKey_total same_key List.filter_sublist
  have within : List.Sublist (under key k xs) (under key k (sortByKey key xs)) := by
    have filtered := sublist.filter (fun x => decide (key x = k))
    rwa [under,List.filter_filter,funext (fun x => Bool.and_self _)] at filtered
  have length : (under key k xs).length = (under key k (sortByKey key xs)).length := ((sortByKey_perm xs).filter _).length_eq.symm
  exact (within.eq_of_length length).symm

variable [Std.LawfulEqOrd κ]

theorem key_eq_of_byKey {a b : α} (first : byKey key a b = true) (second : byKey key b a = true) : key a = key b :=
  Std.LawfulEqOrd.eq_of_compare (Std.OrientedCmp.isLE_antisymm first second)

variable [DecidableEq κ]

/-- The induction compares the heads, which have the least key of both lists. -/
theorem eq_of_sorted (xs_sorted : xs.Pairwise (fun a b => byKey key a b = true)) (ys_sorted : ys.Pairwise (fun a b => byKey key a b = true))
    (alike : Alike key xs ys) : xs = ys := by
  induction xs generalizing ys with
  | nil =>
    cases ys with
    | nil => rfl
    | cons y rest => exact absurd ((alike.mem_iff y).mpr List.mem_cons_self) List.not_mem_nil
  | cons x xs ih =>
    cases ys with
    | nil => exact absurd ((alike.mem_iff x).mp List.mem_cons_self) List.not_mem_nil
    | cons y ys =>
      rw [List.pairwise_cons] at xs_sorted ys_sorted
      have x_least : byKey key x y = true := by
        rcases List.mem_cons.mp ((alike.mem_iff y).mpr List.mem_cons_self) with same | later
        · exact byKey_of_eq (congrArg key same.symm)
        · exact xs_sorted.1 y later
      have y_least : byKey key y x = true := by
        rcases List.mem_cons.mp ((alike.mem_iff x).mp List.mem_cons_self) with same | later
        · exact byKey_of_eq (congrArg key same.symm)
        · exact ys_sorted.1 x later
      have same_key := key_eq_of_byKey x_least y_least
      have heads := alike (key x)
      rw [under_cons,under_cons,if_pos rfl,if_pos same_key.symm] at heads
      obtain ⟨rfl,_⟩ := List.cons.inj heads
      rw [ih xs_sorted.2 ys_sorted.2]
      intro k
      have same := alike k
      rw [under_cons,under_cons] at same
      split at same
      · exact (List.cons.inj same).2
      · exact same

theorem sortByKey_eq_iff : sortByKey key xs = sortByKey key ys ↔ Alike key xs ys := by
  constructor
  · intro same k
    rw [← under_sortByKey k xs,← under_sortByKey k ys,same]
  · intro alike
    refine eq_of_sorted (sortByKey_sorted xs) (sortByKey_sorted ys) ?_
    intro k
    rw [under_sortByKey,under_sortByKey,alike k]

end Sorting

end NodeAgent.KeyedLists
