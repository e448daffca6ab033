import Mathlib.Data.List.Nodup
import Mathlib.Data.List.Perm.Basic
import Mathlib.Algebra.BigOperators.Group.List.Basic
import Mathlib.Algebra.GroupWithZero.Nat

/-!
Finite maps in key order, over `Std.ExtTreeMap`. Lookups after an insertion or a
removal are stated with equality of keys, and the entry list of the new map is
given up to order, so that counts and sums over a map follow its updates.
-/
namespace NodeAgent.FiniteMap
universe u v
variable {α : Type u} {β : Type v} [Ord α] [Std.TransOrd α] [Std.LawfulEqOrd α]

/-- A finite map; equal maps have equal lookups and nothing else. -/
abbrev Map (α : Type u) (β : Type v) [Ord α] := Std.ExtTreeMap α β compare

variable (m : Map α β) (k : α) (v : β)

theorem lookup_insert [DecidableEq α] (a : α) : (m.insert k v)[a]? = if k = a then some v else m[a]? := by
  simp [Std.ExtTreeMap.getElem?_insert]

theorem lookup_erase [DecidableEq α] (a : α) : (m.erase k)[a]? = if k = a then none else m[a]? := by
  simp [Std.ExtTreeMap.getElem?_erase]

theorem mem_toList {k : α} {v : β} : (k,v) ∈ m.toList ↔ m[k]? = some v :=
  Std.ExtTreeMap.mem_toList_iff_getElem?_eq_some

omit [Std.LawfulEqOrd α] in
theorem nodup_toList : m.toList.Nodup := by
  have keys : (m.toList.map Prod.fst).Nodup := by
    rw [Std.ExtTreeMap.map_fst_toList_eq_keys]
    exact Std.ExtTreeMap.nodup_keys
  exact List.Nodup.of_map _ keys

/-- An entry can be taken out of the entry list. -/
theorem perm_toList_erase {m : Map α β} {k : α} {v : β} (held : m[k]? = some v) :
    m.toList.Perm ((k,v) :: (m.erase k).toList) := by
  classical
  have fresh : (k,v) ∉ (m.erase k).toList := by simp
  rw [List.perm_ext_iff_of_nodup (nodup_toList m) (List.nodup_cons.mpr ⟨fresh,nodup_toList _⟩)]
  rintro ⟨a,b⟩
  rw [mem_toList,List.mem_cons,mem_toList,lookup_erase]
  by_cases same : k = a
  · subst same
    simp [held,eq_comm]
  · simp [same,Ne.symm same]

/-- An insertion puts its entry in place of the one that was held. -/
theorem perm_toList_insert : (m.insert k v).toList.Perm ((k,v) :: (m.erase k).toList) := by
  classical
  have held : (m.insert k v)[k]? = some v := by simp
  have rest : (m.insert k v).erase k = m.erase k := by
    apply Std.ExtTreeMap.ext_getElem?
    intro a
    simp only [lookup_erase,lookup_insert]
    by_cases same : k = a <;> simp [same]
  simpa [rest] using perm_toList_erase held

/-- A key that is not held has nothing to erase. -/
theorem erase_of_unheld {m : Map α β} {k : α} (unheld : m[k]? = none) : m.erase k = m := by
  classical
  apply Std.ExtTreeMap.ext_getElem?
  intro a
  rw [lookup_erase]
  by_cases same : k = a
  · simp [← same,unheld]
  · simp [same]

/-! ### Counting entries -/

/-- The number of entries whose value passes a test. -/
def count (test : β → Bool) (m : Map α β) : Nat := m.toList.countP (fun entry => test entry.2)

theorem count_erase {m : Map α β} {k : α} {v : β} (test : β → Bool) (held : m[k]? = some v) :
    count test m = count test (m.erase k) + (if test v then 1 else 0) := by
  unfold count
  rw [(perm_toList_erase held).countP_eq,List.countP_cons]

theorem count_insert (test : β → Bool) :
    count test (m.insert k v) = count test (m.erase k) + (if test v then 1 else 0) := by
  unfold count
  rw [(perm_toList_insert m k v).countP_eq,List.countP_cons]

theorem count_pos {m : Map α β} {test : β → Bool} : 0 < count test m ↔ ∃ (k : α) (v : β), m[k]? = some v ∧ test v := by
  unfold count
  rw [List.countP_pos_iff]
  constructor
  · rintro ⟨⟨k,v⟩,member,passes⟩
    exact ⟨k,v,(mem_toList m).mp member,passes⟩
  · rintro ⟨k,v,held,passes⟩
    exact ⟨(k,v),(mem_toList m).mpr held,passes⟩

@[simp] theorem count_empty (test : β → Bool) : count test (∅ : Map α β) = 0 := by simp [count]

/-! ### Sums over entries -/

/-- The sum of an amount over the entries. -/
def total (amount : α → β → Nat) (m : Map α β) : Nat := (m.toList.map (fun entry => amount entry.1 entry.2)).sum

omit [Std.LawfulEqOrd α] in
@[simp] theorem total_empty (amount : α → β → Nat) : total amount (∅ : Map α β) = 0 := by
  have none_there : (∅ : Map α β).toList = [] := by
    rw [← List.isEmpty_iff,Std.ExtTreeMap.isEmpty_toList,Std.ExtTreeMap.isEmpty_empty]
  simp [total,none_there]

theorem total_erase {m : Map α β} {k : α} {v : β} (amount : α → β → Nat) (held : m[k]? = some v) :
    total amount m = amount k v + total amount (m.erase k) := by
  unfold total
  rw [((perm_toList_erase held).map _).sum_eq,List.map_cons,List.sum_cons]

theorem total_insert_erase (amount : α → β → Nat) : total amount (m.insert k v) = amount k v + total amount (m.erase k) := by
  unfold total
  rw [((perm_toList_insert m k v).map _).sum_eq,List.map_cons,List.sum_cons]

/-- An insertion adds its amount and takes away the one of the entry that it replaces. -/
theorem total_insert (amount : α → β → Nat) :
    total amount (m.insert k v) + (m[k]?).elim 0 (amount k) = total amount m + amount k v := by
  have inserted := total_insert_erase m k v amount
  cases held : m[k]? with
  | none =>
    rw [erase_of_unheld held] at inserted
    simp only [Option.elim_none]
    omega
  | some old =>
    have before := total_erase amount held
    simp only [Option.elim_some]
    omega

omit [Std.LawfulEqOrd α] in
theorem total_map {γ : Type v} (amount : α → γ → Nat) (f : α → β → γ) :
    total amount (m.map f) = total (fun k v => amount k (f k v)) m := by
  unfold total
  rw [Std.ExtTreeMap.toList_map,List.map_map]
  rfl

omit [Std.LawfulEqOrd α] in
theorem total_eq_zero {amount : α → β → Nat} (nothing : ∀ entry ∈ m.toList, amount entry.1 entry.2 = 0) : total amount m = 0 := by
  unfold total
  refine List.sum_eq_zero ?_
  intro n member
  obtain ⟨entry,there,rfl⟩ := List.mem_map.mp member
  exact nothing entry there

/-! ### Sizes -/

omit [Std.LawfulEqOrd α] in
theorem size_insert_new {m : Map α β} {k : α} {v : β} (absent : m[k]? = none) : (m.insert k v).size = m.size + 1 := by
  rw [Std.ExtTreeMap.size_insert,Std.ExtTreeMap.contains_eq_isSome_getElem?,absent,if_neg (by simp)]

omit [Std.LawfulEqOrd α] in
theorem size_insert_held {m : Map α β} {k : α} {v : β} (held : (m[k]?).isSome) : (m.insert k v).size = m.size := by
  rw [Std.ExtTreeMap.size_insert,Std.ExtTreeMap.contains_eq_isSome_getElem?,if_pos held]

theorem size_erase_held {m : Map α β} {k : α} (held : (m[k]?).isSome) : m.size = (m.erase k).size + 1 := by
  obtain ⟨v,found⟩ := Option.isSome_iff_exists.mp held
  have entries := (perm_toList_erase found).length_eq
  rwa [List.length_cons,Std.ExtTreeMap.length_toList,Std.ExtTreeMap.length_toList] at entries

end NodeAgent.FiniteMap
