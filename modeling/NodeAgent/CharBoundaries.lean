import Mathlib.Data.List.Basic
import Mathlib.Data.List.Infix

/-!
Texts cut at byte positions. A text is a list of characters of one to four bytes; a position is
a boundary when some first part of the text ends there. From a position that is not a boundary
one goes back to the next one, which is at most three bytes away.
-/
namespace NodeAgent.CharBoundaries

abbrev Text := List Char

/-- The number of bytes of a text. -/
def size : Text → Nat
  | [] => 0
  | c :: rest => c.utf8Size + size rest

/-- `text.is_char_boundary(index)`. -/
def isCharBoundary : Text → Nat → Bool
  | _, 0 => true
  | [], _ + 1 => false
  | c :: rest, index + 1 => c.utf8Size ≤ index + 1 && isCharBoundary rest (index + 1 - c.utf8Size)

/-- The characters that end at or before a position. -/
def upTo : Text → Nat → Text
  | [], _ => []
  | c :: rest, index => if c.utf8Size ≤ index then c :: upTo rest (index - c.utf8Size) else []

/-- Going back to a boundary, byte by byte. -/
def backToBoundary (text : Text) : Nat → Nat
  | 0 => 0
  | index + 1 => if isCharBoundary text (index + 1) then index + 1 else backToBoundary text index

/-- `&text[..index]`, which panics where no character ends. -/
def slice (text : Text) (index : Nat) : Option Text := if isCharBoundary text index then some (upTo text index) else none

attribute [grind =] size isCharBoundary upTo backToBoundary slice

variable {text a b : Text} {index : Nat}

@[simp] theorem size_nil : size [] = 0 := rfl

@[simp] theorem size_cons (c : Char) (rest : Text) : size (c :: rest) = c.utf8Size + size rest := rfl

@[simp] theorem size_append (a b : Text) : size (a ++ b) = size a + size b := by
  induction a with
  | nil => simp
  | cons c rest ih =>
    rw [List.cons_append,size_cons,size_cons,ih]
    omega

@[simp] theorem upTo_zero (text : Text) : upTo text 0 = [] := by
  cases text with
  | nil => rfl
  | cons c rest =>
    have bytes := c.utf8Size_pos
    rw [upTo,if_neg (by omega)]

theorem upTo_front (text : Text) (index : Nat) : upTo text index <+: text := by
  induction text generalizing index with
  | nil => exact List.prefix_rfl
  | cons c rest ih =>
    rw [upTo]
    split
    · exact List.cons_prefix_cons.mpr ⟨rfl,ih _⟩
    · exact List.nil_prefix

theorem size_upTo_le (text : Text) (index : Nat) : size (upTo text index) ≤ index := by
  induction text generalizing index with
  | nil => exact Nat.zero_le _
  | cons c rest ih =>
    rw [upTo]
    split
    · next fits =>
      have others := ih (index - c.utf8Size)
      rw [size_cons]
      omega
    · exact Nat.zero_le _

theorem upTo_of_size_le (fits : size text ≤ index) : upTo text index = text := by
  induction text generalizing index with
  | nil => rfl
  | cons c rest ih =>
    rw [size_cons] at fits
    rw [upTo,if_pos (by omega),ih (by omega)]

theorem upTo_min (text : Text) (index : Nat) : upTo text (min index (size text)) = upTo text index := by
  rcases Nat.le_total index (size text) with short | long
  · rw [Nat.min_eq_left short]
  · rw [Nat.min_eq_right long,upTo_of_size_le le_rfl,upTo_of_size_le long]

/-- What is cut off before the end is less than one character. -/
theorem lt_size_upTo (more : index < size text) : index ≤ size (upTo text index) + 3 := by
  induction text generalizing index with
  | nil => exact absurd more (Nat.not_lt_zero _)
  | cons c rest ih =>
    rw [size_cons] at more
    rw [upTo]
    split
    · next fits =>
      have others := ih (show index - c.utf8Size < size rest by omega)
      rw [size_cons]
      omega
    · next cut =>
      have bytes := c.utf8Size_le_four
      omega

theorem upTo_append (fits : index ≤ size a) : upTo (a ++ b) index = upTo a index := by
  induction a generalizing index with
  | nil =>
    have start : index = 0 := Nat.le_zero.mp fits
    rw [start,upTo_zero,upTo_zero]
  | cons c rest ih =>
    rw [size_cons] at fits
    rw [List.cons_append,upTo,upTo]
    split
    · rw [ih (by omega)]
    · rfl

/-- A boundary is where the characters up to it end. -/
theorem isCharBoundary_iff : isCharBoundary text index = true ↔ size (upTo text index) = index := by
  induction text generalizing index with
  | nil => cases index <;> simp [isCharBoundary,upTo]
  | cons c rest ih =>
    have bytes := c.utf8Size_pos
    cases index with
    | zero => simp [isCharBoundary]
    | succ index =>
      rw [isCharBoundary,upTo,Bool.and_eq_true,decide_eq_true_iff,ih]
      split
      · next fits =>
        rw [size_cons]
        omega
      · next cut => exact ⟨fun both => absurd both.1 cut,fun same => by cases same⟩

/-- Going back leads to the end of the last character that fits. -/
theorem backToBoundary_eq (text : Text) (index : Nat) : backToBoundary text index = size (upTo text index) := by
  induction index with
  | zero => rw [upTo_zero,size_nil,backToBoundary]
  | succ index ih =>
    rw [backToBoundary]
    split
    · next boundary => exact (isCharBoundary_iff.mp boundary).symm
    · next inside =>
      rw [ih]
      clear ih
      have cut : size (upTo text (index + 1)) ≤ index := by
        have within := size_upTo_le text (index + 1)
        have other : size (upTo text (index + 1)) ≠ index + 1 := fun same => inside (isCharBoundary_iff.mpr same)
        omega
      clear inside
      induction text generalizing index with
      | nil => rfl
      | cons c rest ih =>
        rw [upTo] at cut
        rw [upTo,upTo]
        by_cases fits : c.utf8Size ≤ index + 1
        · rw [if_pos fits,size_cons] at cut
          have own : c.utf8Size ≤ index := by omega
          have shifted : index + 1 - c.utf8Size = index - c.utf8Size + 1 := by omega
          rw [shifted] at cut
          rw [if_pos own,if_pos fits,shifted,size_cons,size_cons,ih _ (by omega)]
        · rw [if_neg (by omega),if_neg fits]

theorem upTo_boundary (text : Text) (index : Nat) : upTo text (size (upTo text index)) = upTo text index := by
  obtain ⟨rest,whole⟩ := upTo_front text index
  have cut : upTo (upTo text index ++ rest) (size (upTo text index)) = upTo text index := by
    rw [upTo_append le_rfl,upTo_of_size_le le_rfl]
  rw [whole] at cut
  exact cut

/-- The part before the boundary can be sliced off. -/
theorem slice_back (text : Text) (index : Nat) : slice text (backToBoundary text index) = some (upTo text index) := by
  rw [slice,backToBoundary_eq,if_pos (isCharBoundary_iff.mpr (by rw [upTo_boundary])),upTo_boundary]

end NodeAgent.CharBoundaries
