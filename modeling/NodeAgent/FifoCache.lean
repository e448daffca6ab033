import NodeAgent.FiniteMap
import Mathlib.Data.Finset.Card

/-!
A cache of bounded size that forgets its oldest entry first. The entries are a map; their keys
are queued in the order of arrival. A key leaves only after as many distinct other keys as the
cache has room for have come in behind it.
-/
namespace NodeAgent.FifoCache
open NodeAgent.FiniteMap
universe u v
variable {κ : Type u} {β : Type v} [Ord κ] [Std.TransOrd κ] [Std.LawfulEqOrd κ] [DecidableEq κ]

structure Cache (κ : Type u) (β : Type v) [Ord κ] where
  seen : Map κ β
  order : List κ

def Cache.empty : Cache κ β := ⟨∅,[]⟩

/-- Forgets the oldest keys until the cache fits. -/
def trim (capacity : Nat) (seen : Map κ β) : List κ → Cache κ β
  | [] => ⟨seen,[]⟩
  | oldest :: rest => if capacity < rest.length + 1 then trim capacity (seen.erase oldest) rest else ⟨seen,oldest :: rest⟩

/-- A key that is held already stays as it is. -/
def Cache.add (capacity : Nat) (c : Cache κ β) (k : κ) (v : β) : Cache κ β :=
  if k ∈ c.seen then c else trim capacity (c.seen.insert k v) (c.order ++ [k])

/-- The map and the queue have the same keys, each once, and no more than there is room for. -/
structure Sound (capacity : Nat) (c : Cache κ β) : Prop where
  distinct : c.order.Nodup
  same : ∀ k, k ∈ c.seen ↔ k ∈ c.order
  bounded : c.order.length ≤ capacity

omit [Std.LawfulEqOrd κ] [DecidableEq κ] in
theorem sound_empty (capacity : Nat) : Sound capacity (Cache.empty : Cache κ β) :=
  ⟨List.nodup_nil,by simp [Cache.empty],Nat.zero_le _⟩

variable {capacity : Nat} {c : Cache κ β} {k k' : κ} {v v' : β}

omit [Std.LawfulEqOrd κ] [DecidableEq κ] in
/-- What is there after an insertion: everything, or everything but the oldest key. -/
theorem trim_cases {capacity : Nat} (seen : Map κ β) {order : List κ} (bounded : order.length ≤ capacity + 1) :
    (order.length ≤ capacity ∧ trim capacity seen order = ⟨seen,order⟩) ∨
    ∃ oldest rest, order = oldest :: rest ∧ rest.length = capacity ∧ trim capacity seen order = ⟨seen.erase oldest,rest⟩ := by
  cases order with
  | nil => exact Or.inl ⟨Nat.zero_le _,rfl⟩
  | cons oldest rest =>
    rw [List.length_cons] at bounded
    unfold trim
    by_cases full : capacity < rest.length + 1
    · have filled : rest.length = capacity := by omega
      refine Or.inr ⟨oldest,rest,rfl,filled,?_⟩
      rw [if_pos full]
      cases rest with
      | nil => rfl
      | cons next rest =>
        unfold trim
        rw [if_neg (by rw [List.length_cons] at filled; omega)]
    · rw [if_neg full]
      exact Or.inl ⟨by rw [List.length_cons]; omega,rfl⟩

theorem lookup_trim {seen : Map κ β} {order : List κ} {a : κ} {b : β} (found : (trim capacity seen order).seen[a]? = some b) :
    seen[a]? = some b := by
  induction order generalizing seen with
  | nil => exact found
  | cons oldest rest ih =>
    unfold trim at found
    split at found
    · have kept := ih found
      rw [lookup_erase] at kept
      split at kept
      · cases kept
      · exact kept
    · exact found

/-- What is held was held before, or was added. -/
theorem lookup_add {a : κ} {b : β} (found : (c.add capacity k v).seen[a]? = some b) : (a = k ∧ b = v) ∨ c.seen[a]? = some b := by
  unfold Cache.add at found
  split at found
  · exact Or.inr found
  · have inserted := lookup_trim found
    rw [lookup_insert] at inserted
    split at inserted
    · next same => exact Or.inl ⟨same.symm,(Option.some.inj inserted).symm⟩
    · exact Or.inr inserted

theorem Sound.add (sound : Sound capacity c) (k : κ) (v : β) : Sound capacity (c.add capacity k v) := by
  unfold Cache.add
  split
  · exact sound
  · next absent =>
    have fresh : k ∉ c.order := by rwa [← sound.same k]
    have distinct : (c.order ++ [k]).Nodup := by
      rw [List.nodup_append]
      refine ⟨sound.distinct,by simp,?_⟩
      rintro a member b found rfl
      rw [List.mem_singleton] at found
      exact fresh (found ▸ member)
    have same (a : κ) : a ∈ c.seen.insert k v ↔ a ∈ c.order ++ [k] := by
      rw [Std.ExtTreeMap.mem_insert,Std.compare_eq_iff_eq,sound.same a,List.mem_append,List.mem_singleton,or_comm,@eq_comm _ a]
    have bounded : (c.order ++ [k]).length ≤ capacity + 1 := by simp [sound.bounded]
    rcases trim_cases (c.seen.insert k v) bounded with ⟨fits,kept⟩ | ⟨oldest,rest,split,filled,trimmed⟩
    · rw [kept]
      exact ⟨distinct,same,fits⟩
    · rw [trimmed]
      rw [split] at distinct same
      obtain ⟨gone,distinct⟩ := List.nodup_cons.mp distinct
      refine ⟨distinct,?_,filled.le⟩
      intro a
      by_cases here : oldest = a
      · subst here
        simp [gone]
      · simpa [here,Ne.symm here] using same a

/-- The key is held, and exactly the keys `after` have come in behind it. -/
structure Held (c : Cache κ β) (k : κ) (v : β) (after : List κ) : Prop where
  value : c.seen[k]? = some v
  place : ∃ front, c.order = front ++ k :: after

omit [DecidableEq κ] in
/-- A new key is the last one, when there is room for any. -/
theorem Held.added (sound : Sound capacity c) (room : 0 < capacity) (absent : c.seen[k]? = none) (v : β) :
    Held (c.add capacity k v) k v [] := by
  have unheld : k ∉ c.seen := by
    rw [← Std.ExtTreeMap.isSome_getElem?_iff_mem,absent]
    exact Bool.false_ne_true
  unfold Cache.add
  rw [if_neg unheld]
  have bounded : (c.order ++ [k]).length ≤ capacity + 1 := by simp [sound.bounded]
  rcases trim_cases (c.seen.insert k v) bounded with ⟨fits,kept⟩ | ⟨oldest,rest,split,filled,trimmed⟩
  · rw [kept]
    exact ⟨by simp,c.order,rfl⟩
  · rw [trimmed]
    cases old : c.order with
    | nil =>
      rw [old] at split
      cases split
      simp only [List.length_nil] at filled
      omega
    | cons first others =>
      rw [old] at split
      obtain ⟨rfl,rfl⟩ := List.cons.inj split
      have apart : first ≠ k := by
        rintro rfl
        exact unheld ((sound.same first).mpr (by rw [old]; exact List.mem_cons_self))
      exact ⟨by simp [apart],others,rfl⟩

/-- Another key comes in behind; only when the cache is full of such keys does the held one go. -/
theorem Held.add (sound : Sound capacity c) {after : List κ} (held : Held c k v after) (absent : c.seen[k']? = none) (v' : β) :
    Held (c.add capacity k' v') k v (after ++ [k']) ∨ capacity ≤ ((after ++ [k']).toFinset.erase k).card := by
  obtain ⟨front,place⟩ := held.place
  have unheld : k' ∉ c.seen := by
    rw [← Std.ExtTreeMap.isSome_getElem?_iff_mem,absent]
    exact Bool.false_ne_true
  have apart : k' ≠ k := by
    rintro rfl
    rw [held.value] at absent
    cases absent
  unfold Cache.add
  rw [if_neg unheld]
  have bounded : (c.order ++ [k']).length ≤ capacity + 1 := by simp [sound.bounded]
  rcases trim_cases (c.seen.insert k' v') bounded with ⟨fits,kept⟩ | ⟨oldest,rest,split,filled,trimmed⟩
  · rw [kept]
    exact Or.inl ⟨by simp [lookup_insert,apart,held.value],front,by simp [place]⟩
  · rw [trimmed]
    rw [place] at split
    cases front with
    | nil =>
      obtain ⟨rfl,rfl⟩ := List.cons.inj split
      right
      -- Everything in the cache came in behind the held key.
      have distinct := sound.distinct
      rw [place] at distinct
      obtain ⟨fresh,behind⟩ := List.nodup_cons.mp distinct
      have unheld' : k' ∉ after := by
        intro member
        exact unheld ((sound.same k').mpr (by rw [place]; exact List.mem_cons_of_mem _ member))
      have all : (after ++ [k']).Nodup := by
        rw [List.nodup_append]
        refine ⟨behind,List.nodup_singleton _,?_⟩
        rintro a member b found rfl
        rw [List.mem_singleton] at found
        exact unheld' (found ▸ member)
      have own : k ∉ (after ++ [k']).toFinset := by simp [fresh,Ne.symm apart]
      rw [Finset.erase_eq_of_notMem own,List.toFinset_card_of_nodup all]
      exact filled.symm.le
    | cons first others =>
      obtain ⟨rfl,rfl⟩ := List.cons.inj split
      have different : first ≠ k := by
        have distinct := sound.distinct
        rw [place,List.cons_append,List.nodup_cons] at distinct
        rintro rfl
        exact distinct.1 (by simp)
      exact Or.inl ⟨by simp [lookup_erase,lookup_insert,different,apart,held.value],others,by simp⟩

end NodeAgent.FifoCache
