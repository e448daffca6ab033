import Mathlib.Data.List.Basic

/-!
Codes that tell where they end. A list of records that are written one after the other can be
read back if the code of each record is delimited: whatever follows it, the record and what
follows are known. A length before the bytes makes a code delimited.
-/
namespace NodeAgent.Frames
universe u v
variable {α : Type u} {β γ : Type v}

/-- The code of what is allowed tells what it is the code of, and where it ends. -/
def Delimited (Allowed : β → Prop) (code : β → List α) : Prop :=
  ∀ a b rest rest', Allowed a → Allowed b → code a ++ rest = code b ++ rest' → a = b ∧ rest = rest'

variable {Allowed : β → Prop} {Allowed' : γ → Prop} {code : β → List α} {code' : γ → List α}

/-- Codes of one length are delimited. -/
theorem Delimited.fixed {width : Nat} (long : ∀ a, (code a).length = width) (apart : ∀ a b, Allowed a → Allowed b → code a = code b → a = b) :
    Delimited Allowed code := by
  intro a b rest rest' allowed allowed' same
  obtain ⟨first,second⟩ := List.append_inj same ((long a).trans (long b).symm)
  exact ⟨apart a b allowed allowed' first,second⟩

/-- What follows a length is delimited. -/
theorem Delimited.frame {Length : Nat → Prop} {size : Nat → List α} (sizes : Delimited Length size) :
    Delimited (fun bytes : List α => Length bytes.length) (fun bytes => size bytes.length ++ bytes) := by
  intro a b rest rest' allowed allowed' same
  simp only [List.append_assoc] at same
  obtain ⟨long,same⟩ := sizes _ _ _ _ allowed allowed' same
  exact List.append_inj same long

theorem Delimited.pair (first : Delimited Allowed code) (second : Delimited Allowed' code') :
    Delimited (fun both : β × γ => Allowed both.1 ∧ Allowed' both.2) (fun both => code both.1 ++ code' both.2) := by
  rintro ⟨a,c⟩ ⟨b,d⟩ rest rest' allowed allowed' same
  simp only [List.append_assoc] at same
  obtain ⟨equal,same⟩ := first a b _ _ allowed.1 allowed'.1 same
  obtain ⟨equal',same⟩ := second c d _ _ allowed.2 allowed'.2 same
  exact ⟨Prod.ext equal equal',same⟩

/-- A list of delimited codes, none of them empty, tells the list. -/
theorem Delimited.flatMap_inj (delimited : Delimited Allowed code) (filled : ∀ a, code a ≠ []) {as bs : List β} (allowed : ∀ a ∈ as, Allowed a)
    (allowed' : ∀ b ∈ bs, Allowed b) (same : as.flatMap code = bs.flatMap code) : as = bs := by
  induction as generalizing bs with
  | nil =>
    cases bs with
    | nil => rfl
    | cons b bs => exact absurd (List.append_eq_nil_iff.mp same.symm).1 (filled b)
  | cons a as ih =>
    cases bs with
    | nil => exact absurd (List.append_eq_nil_iff.mp same).1 (filled a)
    | cons b bs =>
      obtain ⟨rfl,rest⟩ := delimited a b _ _ (allowed a List.mem_cons_self) (allowed' b List.mem_cons_self) same
      rw [ih (fun c member => allowed c (List.mem_cons_of_mem _ member)) (fun c member => allowed' c (List.mem_cons_of_mem _ member)) rest]

end NodeAgent.Frames
