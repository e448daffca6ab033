import Mathlib.Data.List.Nodup
import Mathlib.Logic.Function.Basic

/-!
Memories written cell by cell. When a sequence of writes touches no cell twice,
every cell holds its old or its new value at every point of the sequence.
-/
namespace NodeAgent.Cells
universe u v
variable {κ : Type u} {β : Type v} [DecidableEq κ]

/-- The memory after the writes, in order. -/
def store (memory : κ → β) (writes : List (κ × β)) : κ → β :=
  writes.foldl (fun m w => Function.update m w.1 w.2) memory

variable (memory : κ → β) {c : κ} {v : β}

@[simp] theorem store_nil : store memory [] = memory := rfl

theorem store_cons (w : κ × β) (rest : List (κ × β)) :
    store memory (w :: rest) = store (Function.update memory w.1 w.2) rest := rfl

theorem store_append (first second : List (κ × β)) :
    store memory (first ++ second) = store (store memory first) second := by
  simp [store]

theorem store_of_unwritten {writes : List (κ × β)} (unwritten : c ∉ writes.map Prod.fst) :
    store memory writes c = memory c := by
  induction writes generalizing memory with
  | nil => rfl
  | cons w rest ih =>
    simp only [List.map_cons,List.mem_cons,not_or] at unwritten
    rw [store_cons,ih _ unwritten.2,Function.update_of_ne unwritten.1]

theorem store_of_written {writes : List (κ × β)} (distinct : (writes.map Prod.fst).Nodup) (member : (c,v) ∈ writes) :
    store memory writes c = v := by
  induction writes generalizing memory with
  | nil => cases member
  | cons w rest ih =>
    obtain ⟨fresh,restDistinct⟩ := List.nodup_cons.mp distinct
    rw [store_cons]
    rcases List.mem_cons.mp member with rfl | later
    · rw [store_of_unwritten _ fresh,Function.update_self]
    · exact ih _ restDistinct later

/-- Between two writes a cell holds what it held before all of them or what it
    holds after all of them. -/
theorem store_midway {done rest : List (κ × β)} (distinct : ((done ++ rest).map Prod.fst).Nodup) (c : κ) :
    store memory done c = memory c ∨ store memory done c = store memory (done ++ rest) c := by
  rw [List.map_append] at distinct
  have separate := (List.nodup_append.mp distinct).2.2
  by_cases written : c ∈ done.map Prod.fst
  · have later : c ∉ rest.map Prod.fst := fun again => separate c written c again rfl
    right
    rw [store_append,store_of_unwritten _ later]
  · left
    exact store_of_unwritten _ written

omit [DecidableEq κ] in
/-- Pieces that each write the cells of their own part at most once write no cell
    twice together. -/
theorem nodup_flatMap_parts {ι : Type*} (part : κ → ι) {order : List ι} (distinct : order.Nodup)
    {pieces : ι → List κ} (short : ∀ i, (pieces i).Nodup) (own : ∀ i, ∀ c ∈ pieces i, part c = i) :
    (order.flatMap pieces).Nodup := by
  rw [List.nodup_flatMap]
  refine ⟨fun i _ => short i,distinct.imp ?_⟩
  intro i j apart c inFirst inSecond
  exact apart ((own i c inFirst).symm.trans (own j c inSecond))

end NodeAgent.Cells
