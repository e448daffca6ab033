import Mathlib.Data.List.TakeWhile
import NodeAgent.RouteRules

/-!
Texts without the white space around them.
-/
namespace NodeAgent.RouteRules
open NodeAgent.Api

/-- The text with white space around it. -/
def Padded (s s' : String) : Prop :=
  ∃ before after : List Char, (∀ c ∈ before, isWhitespace c) ∧ (∀ c ∈ after, isWhitespace c) ∧ s'.toList = before ++ s.toList ++ after

theorem trim_padded {s s' : String} (padded : Padded s s') : trim s' = trim s := by
  obtain ⟨before,after,front,back,text⟩ := padded
  unfold trim
  rw [text,List.append_assoc,List.dropWhile_append_of_pos front,List.dropWhile_append]
  split
  · next only =>
    rw [List.isEmpty_iff] at only
    have gone := @List.dropWhile_append_of_pos _ isWhitespace after [] back
    rw [List.append_nil] at gone
    rw [only,gone]
    rfl
  · rw [List.reverse_append,List.dropWhile_append_of_pos (fun c member => back c (List.mem_reverse.mp member))]

/-- White space around nothing. -/
theorem trim_padded_empty {s : String} (padded : Padded "" s) : trim s = "" := by
  rw [trim_padded padded]
  rfl

/-- White space is removed once. -/
theorem trim_trim (s : String) : trim (trim s) = trim s := by
  refine (trim_padded ?_).symm
  refine ⟨s.toList.takeWhile isWhitespace,((s.toList.dropWhile isWhitespace).reverse.takeWhile isWhitespace).reverse,?_,?_,?_⟩
  · exact fun c member => List.mem_takeWhile_imp member
  · exact fun c member => List.mem_takeWhile_imp (List.mem_reverse.mp member)
  · have back := @List.takeWhile_append_dropWhile _ isWhitespace (s.toList.dropWhile isWhitespace).reverse
    have whole := congrArg List.reverse back
    rw [List.reverse_append,List.reverse_reverse] at whole
    rw [trim,String.toList_ofList,List.append_assoc,whole,List.takeWhile_append_dropWhile]

/-- A text without white space stays as it is. -/
theorem trim_of_none {s : String} (none : ∀ c ∈ s.toList, ¬ isWhitespace c) : trim s = s := by
  have kept (cs : List Char) (each : ∀ c ∈ cs, ¬ isWhitespace c) : cs.dropWhile isWhitespace = cs := by
    cases cs with
    | nil => rfl
    | cons c rest => exact List.dropWhile_cons_of_neg (each c List.mem_cons_self)
  rw [trim,kept _ none,kept _ (fun c member => none c (List.mem_reverse.mp member)),List.reverse_reverse,String.ofList_toList]

/-- A character of a text is kept, or is white space. -/
theorem mem_trim {s : String} {c : Char} (member : c ∈ s.toList) : c ∈ (trim s).toList ∨ isWhitespace c := by
  by_cases white : isWhitespace c
  · exact .inr white
  · left
    have kept (cs : List Char) (there : c ∈ cs) : c ∈ cs.dropWhile isWhitespace := by
      rw [← List.takeWhile_append_dropWhile (p := isWhitespace) (l := cs),List.mem_append] at there
      exact there.resolve_left (fun early => white (List.mem_takeWhile_imp early))
    rw [trim,String.toList_ofList,List.mem_reverse]
    exact kept _ (List.mem_reverse.mpr (kept _ member))

end NodeAgent.RouteRules
