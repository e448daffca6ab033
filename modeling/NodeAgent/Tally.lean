import Mathlib.Algebra.BigOperators.Group.List.Basic

/-!
Keyed sums over lists. `tally key amount k xs` is the total amount of the items
of `xs` whose key is `k`. Amounts live in any commutative additive monoid, so
one set of rules serves exact and wrapping counters.
-/
namespace NodeAgent.Tally
universe u v w
variable {α : Type u} {κ : Type v} {M : Type w} [DecidableEq κ] [AddCommMonoid M]

/-- The total amount of the items under one key. -/
def tally (key : α → κ) (amount : α → M) (k : κ) : List α → M
  | [] => 0
  | x :: rest => (if key x = k then amount x else 0) + tally key amount k rest

variable (key : α → κ) (amount : α → M) (k : κ)

@[simp] theorem tally_nil : tally key amount k [] = 0 := rfl

@[simp] theorem tally_cons (x : α) (rest : List α) :
    tally key amount k (x :: rest) = (if key x = k then amount x else 0) + tally key amount k rest := rfl

@[simp] theorem tally_append (xs ys : List α) :
    tally key amount k (xs ++ ys) = tally key amount k xs + tally key amount k ys := by
  induction xs with
  | nil => simp
  | cons x rest ih => simp [ih,add_assoc]

/-- The order of the items is immaterial. -/
theorem tally_perm {xs ys : List α} (perm : xs.Perm ys) : tally key amount k xs = tally key amount k ys := by
  induction perm with
  | nil => rfl
  | cons x _ ih => simp [ih]
  | swap x y rest => simp [add_left_comm]
  | trans _ _ first second => exact first.trans second

/-- A test splits a list into two parts that tally to the whole. -/
theorem tally_split (test : α → Bool) (xs : List α) :
    tally key amount k (xs.filter test) + tally key amount k (xs.filter (fun x => !test x)) =
      tally key amount k xs := by
  induction xs with
  | nil => simp
  | cons x rest ih =>
    cases tested : test x
    · simp only [List.filter_cons,tested,Bool.false_eq_true,↓reduceIte,Bool.not_false,tally_cons,← ih]
      rw [add_left_comm]
    · simp only [List.filter_cons,tested,↓reduceIte,Bool.not_true,Bool.false_eq_true,tally_cons,← ih]
      rw [add_assoc]

/-- Dropping items without an amount changes no tally. -/
theorem tally_filter_of_zero (test : α → Bool) (xs : List α) (zero : ∀ x ∈ xs, test x = false → amount x = 0) :
    tally key amount k (xs.filter test) = tally key amount k xs := by
  induction xs with
  | nil => rfl
  | cons x rest ih =>
    have tail := ih (fun y member => zero y (List.mem_cons_of_mem x member))
    cases tested : test x
    · have nothing : amount x = 0 := zero x List.mem_cons_self tested
      simp [tested,tail,nothing]
    · simp [tested,tail]

/-- Items renamed without changing their key and amount tally to the same. -/
theorem tally_map {β : Type*} (f : β → α) (key' : β → κ) (amount' : β → M) (xs : List β)
    (same : ∀ x ∈ xs, key (f x) = key' x ∧ amount (f x) = amount' x) :
    tally key amount k (xs.map f) = tally key' amount' k xs := by
  induction xs with
  | nil => rfl
  | cons x rest ih =>
    have tail := ih (fun y member => same y (List.mem_cons_of_mem x member))
    obtain ⟨sameKey,sameAmount⟩ := same x List.mem_cons_self
    simp only [List.map_cons,tally_cons,tail,sameKey,sameAmount]

end NodeAgent.Tally
