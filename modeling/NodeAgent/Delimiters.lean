import Mathlib.Data.List.Basic
import Mathlib.Data.List.Induction
import Mathlib.Data.Int.Basic

/-!
Texts between separators. Where a field does not contain the separator, its end is known; so
fields can be taken off one text from the left or from the right. Decimal numbers contain
digits only, and are known from them.
-/
namespace NodeAgent.Delimiters

/-! ### Separators -/

section Separators
variable {α : Type} {a b u v : List α} {c : α}

/-- A first field without the separator ends at the first separator. -/
theorem first_split (plain : c ∉ a) (plain' : c ∉ b) (same : a ++ c :: u = b ++ c :: v) : a = b ∧ u = v := by
  induction a generalizing b with
  | nil =>
    cases b with
    | nil => exact ⟨rfl,List.tail_eq_of_cons_eq same⟩
    | cons x rest =>
      have head := List.head_eq_of_cons_eq same
      exact absurd (head ▸ List.mem_cons_self) plain'
  | cons x rest ih =>
    cases b with
    | nil =>
      have head := List.head_eq_of_cons_eq same
      exact absurd (head ▸ List.mem_cons_self) plain
    | cons y rest' =>
      simp only [List.cons_append,List.cons.injEq] at same
      obtain ⟨rfl,same⟩ := same
      obtain ⟨rfl,others⟩ := ih (fun member => plain (List.mem_cons_of_mem _ member)) (fun member => plain' (List.mem_cons_of_mem _ member)) same
      exact ⟨rfl,others⟩

/-- A last field without the separator begins after the last separator. -/
theorem last_split (plain : c ∉ u) (plain' : c ∉ v) (same : a ++ c :: u = b ++ c :: v) : a = b ∧ u = v := by
  have reversed := congrArg List.reverse same
  simp only [List.reverse_append,List.reverse_cons,List.append_assoc,List.singleton_append] at reversed
  obtain ⟨last,first⟩ := first_split (by simpa using plain) (by simpa using plain') reversed
  exact ⟨List.reverse_injective first,List.reverse_injective last⟩

/-- A last field is all that follows a separator, or the end of it. -/
theorem peel (plain : c ∉ v) (same : a ++ c :: u = b ++ c :: v) : (a = b ∧ u = v) ∨ ∃ rest, u = rest ++ c :: v ∧ a ++ c :: rest = b := by
  by_cases more : c ∈ u
  · right
    obtain ⟨last,first,reversed,plain'⟩ := List.eq_append_cons_of_mem (List.mem_reverse.mpr more)
    have own : u = first.reverse ++ c :: last.reverse := by
      rw [← u.reverse_reverse,reversed]
      simp
    subst own
    rw [← List.cons_append,← List.append_assoc] at same
    obtain ⟨before,rfl⟩ := last_split (by simpa using plain') plain same
    exact ⟨first.reverse,rfl,before⟩
  · exact .inl (last_split more plain same)

/-- Fields before and after one of them, with separators between them. -/
def joined (c : α) (before : List (List α)) (a : List α) (after : List (List α)) : List α :=
  before.flatMap (fun field => field ++ [c]) ++ a ++ after.flatMap (fun field => c :: field)

variable {before before' after after' : List (List α)}

theorem fields_before (plain : ∀ field ∈ before, c ∉ field) (plain' : ∀ field ∈ before', c ∉ field) (length : before.length = before'.length)
    (same : before.flatMap (fun field => field ++ [c]) ++ u = before'.flatMap (fun field => field ++ [c]) ++ v) : before = before' ∧ u = v := by
  induction before generalizing before' with
  | nil =>
    cases before' with
    | nil => exact ⟨rfl,same⟩
    | cons _ _ => cases length
  | cons field rest ih =>
    cases before' with
    | nil => cases length
    | cons field' rest' =>
      rw [List.forall_mem_cons] at plain plain'
      rw [List.flatMap_cons,List.flatMap_cons,List.append_assoc,List.append_assoc,List.append_assoc,List.append_assoc] at same
      obtain ⟨rfl,others⟩ := first_split plain.1 plain'.1 same
      obtain ⟨rfl,rest⟩ := ih plain.2 plain'.2 (Nat.succ.inj length) others
      exact ⟨rfl,rest⟩

theorem fields_after (plain : ∀ field ∈ after, c ∉ field) (plain' : ∀ field ∈ after', c ∉ field) (length : after.length = after'.length)
    (same : u ++ after.flatMap (fun field => c :: field) = v ++ after'.flatMap (fun field => c :: field)) : u = v ∧ after = after' := by
  induction after using List.reverseRecOn generalizing after' with
  | nil =>
    cases after' with
    | nil => exact ⟨by simpa using same,rfl⟩
    | cons _ _ => cases length
  | append_singleton rest field ih =>
    rcases List.eq_nil_or_concat after' with none | ⟨rest',field',rfl⟩
    · rw [none] at length
      simp at length
    · rw [List.concat_eq_append] at plain' length same ⊢
      rw [List.forall_mem_append] at plain plain'
      have each {rest : List (List α)} {field : List α} : (rest ++ [field]).flatMap (fun field => c :: field) =
          rest.flatMap (fun field => c :: field) ++ c :: field := by simp
      rw [each,each,← List.append_assoc,← List.append_assoc] at same
      obtain ⟨others,rfl⟩ := last_split (plain.2 _ (List.mem_singleton_self _)) (plain'.2 _ (List.mem_singleton_self _)) same
      obtain ⟨rfl,rfl⟩ := ih plain.1 plain'.1 (by simpa using length) others
      exact ⟨rfl,rfl⟩

/-- Joined fields are known from the whole if only one of them may contain the separator. -/
theorem joined_injective (plain : ∀ field ∈ before ++ after, c ∉ field) (plain' : ∀ field ∈ before' ++ after', c ∉ field)
    (front : before.length = before'.length) (back : after.length = after'.length) (same : joined c before a after = joined c before' b after') :
    before = before' ∧ a = b ∧ after = after' := by
  rw [List.forall_mem_append] at plain plain'
  rw [joined,joined,List.append_assoc,List.append_assoc] at same
  obtain ⟨first,same⟩ := fields_before plain.1 plain'.1 front same
  obtain ⟨middle,last⟩ := fields_after plain.2 plain'.2 back same
  exact ⟨first,middle,last⟩

end Separators

/-! ### Decimal numbers -/

theorem toString_digits (n : ℕ) : (toString n).toList = Nat.toDigits 10 n := by
  rw [Nat.toString_eq_ofList_toDigits,String.toList_ofList]

theorem isDigit_of_mem {n : ℕ} {c : Char} (member : c ∈ (toString n).toList) : c.isDigit := by
  rw [toString_digits] at member
  exact Nat.isDigit_of_mem_toDigits (by decide) (by decide) member

theorem toString_ne_nil (n : ℕ) : (toString n).toList ≠ [] := by
  rw [toString_digits]
  exact Nat.toDigits_ne_nil

theorem toString_injective {m n : ℕ} (same : (toString m).toList = (toString n).toList) : m = n := by
  rw [toString_digits,toString_digits] at same
  rw [← Nat.ofDigitChars_ten_toDigits (n := m),same,Nat.ofDigitChars_ten_toDigits]

/-- Zeros are worth nothing. -/
theorem ofDigitChars_zeros {digits : List Char} (zeros : ∀ c ∈ digits, c = '0') : Nat.ofDigitChars 10 digits 0 = 0 := by
  induction digits with
  | nil => rfl
  | cons c rest ih =>
    rw [zeros c List.mem_cons_self]
    exact ih (fun d later => zeros d (List.mem_cons_of_mem _ later))

/-- A number that is not zero has a digit that is not zero. -/
theorem exists_nonzero {n : ℕ} (positive : n ≠ 0) : ∃ c ∈ (toString n).toList, c.isDigit ∧ c ≠ '0' := by
  by_contra none
  refine positive ?_
  have zeros : ∀ c ∈ (toString n).toList, c = '0' := by
    intro c member
    by_contra other
    exact none ⟨c,member,isDigit_of_mem member,other⟩
  rw [← Nat.ofDigitChars_ten_toDigits (n := n),← toString_digits]
  exact ofDigitChars_zeros zeros

/-! ### Signed numbers -/

theorem toString_int (i : ℤ) : (toString i).toList = if 0 ≤ i then (toString i.toNat).toList else '-' :: (toString i.natAbs).toList := by
  cases i with
  | ofNat n => rfl
  | negSucc n =>
    rw [if_neg (by omega)]
    change ("-" ++ Nat.repr (n + 1)).toList = _
    rw [String.toList_append]
    rfl

/-- The characters of a signed number. -/
theorem sign_or_digit {i : ℤ} {c : Char} (member : c ∈ (toString i).toList) : c = '-' ∨ c.isDigit := by
  rw [toString_int] at member
  split at member
  · exact .inr (isDigit_of_mem member)
  · rcases List.mem_cons.mp member with sign | digit
    · exact .inl sign
    · exact .inr (isDigit_of_mem digit)

theorem toString_int_injective {i j : ℤ} (same : (toString i).toList = (toString j).toList) : i = j := by
  have unsigned (n : ℕ) (rest : List Char) : (toString n).toList ≠ '-' :: rest := by
    intro signed
    have digit := isDigit_of_mem (n := n) (c := '-') (by rw [signed]; exact List.mem_cons_self)
    exact absurd digit (by decide)
  rw [toString_int,toString_int] at same
  by_cases positive : 0 ≤ i
  · rw [if_pos positive] at same
    by_cases positive' : 0 ≤ j
    · rw [if_pos positive'] at same
      have numbers := toString_injective same
      omega
    · rw [if_neg positive'] at same
      exact absurd same (unsigned _ _)
  · rw [if_neg positive] at same
    by_cases positive' : 0 ≤ j
    · rw [if_pos positive'] at same
      exact absurd same.symm (unsigned _ _)
    · rw [if_neg positive'] at same
      have numbers := toString_injective (List.tail_eq_of_cons_eq same)
      omega

end NodeAgent.Delimiters
