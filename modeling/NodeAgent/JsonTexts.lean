import NodeAgent.Json
import Mathlib.Algebra.BigOperators.Group.List.Basic
import Mathlib.Data.String.Basic

/-!
Lengths of JSON texts. A writer without white space puts brackets around the values of an
array and commas between them, so that the length of the text is known from the lengths of
the parts.
-/
namespace NodeAgent.Json

/-- A character that stands for itself in a JSON string. -/
def plainChar (c : Char) : Bool := 32 ≤ c.toNat && c ≠ '"' && c ≠ '\\'

/-- A writer of JSON texts without white space. -/
structure Compact (write : Value → String) : Prop where
  array : ∀ values : List Value, write (.array values) = "[" ++ String.intercalate "," (values.map write) ++ "]"
  object : ∀ fields : Fields, write (.object fields) =
    "\x7b" ++ String.intercalate "," (fields.map (fun field => write (.string field.1) ++ ":" ++ write field.2)) ++ "\x7d"
  plain : ∀ s : String, s.toList.all plainChar → write (.string s) = "\"" ++ s ++ "\""

theorem intercalate_length (parts : List String) :
    (String.intercalate "," parts).utf8ByteSize = (parts.map String.utf8ByteSize).sum + (parts.length - 1) := by
  induction parts with
  | nil => simp
  | cons first rest ih =>
    cases rest with
    | nil => simp
    | cons second rest =>
      rw [String.intercalate_cons_cons,String.utf8ByteSize_append,String.utf8ByteSize_append,ih]
      have comma : ",".utf8ByteSize = 1 := by decide
      simp only [List.map_cons,List.sum_cons,List.length_cons]
      omega

section Writers
variable {write : Value → String} (compact : Compact write)
include compact

theorem array_length (values : List Value) :
    (write (.array values)).utf8ByteSize = (values.map (fun value => (write value).utf8ByteSize)).sum + 2 + (values.length - 1) := by
  have brackets : "[".utf8ByteSize = 1 ∧ "]".utf8ByteSize = 1 := by decide
  rw [compact.array,String.utf8ByteSize_append,String.utf8ByteSize_append,intercalate_length,List.map_map,List.length_map]
  simp only [Function.comp_def]
  omega

theorem string_length {s : String} (plain : s.toList.all plainChar) : (write (.string s)).utf8ByteSize = s.utf8ByteSize + 2 := by
  have quotes : "\"".utf8ByteSize = 1 := by decide
  rw [compact.plain s plain,String.utf8ByteSize_append,String.utf8ByteSize_append]
  omega

end Writers

/-! ### Objects in order -/

/-- The names of the entries increase. -/
def Fields.Ordered (fields : Fields) : Prop := fields.Pairwise (fun a b => a.1 < b.1)

variable {fields : Fields} {name : String} {value old : Value}

theorem mem_insert {entry : String × Value} (member : entry ∈ Fields.insert fields name value) : entry = (name,value) ∨ entry ∈ fields := by
  induction fields with
  | nil => exact .inl (List.mem_singleton.mp member)
  | cons field rest ih =>
    obtain ⟨k,v⟩ := field
    rw [Fields.insert] at member
    split at member
    · rcases List.mem_cons.mp member with rfl | later
      · exact .inl rfl
      · exact .inr (List.mem_cons_of_mem _ later)
    · split at member
      · rcases List.mem_cons.mp member with rfl | later
        · exact .inl rfl
        · exact .inr later
      · rcases List.mem_cons.mp member with rfl | later
        · exact .inr List.mem_cons_self
        · rcases ih later with same | earlier
          · exact .inl same
          · exact .inr (List.mem_cons_of_mem _ earlier)

theorem Fields.Ordered.insert (ordered : fields.Ordered) : (Fields.insert fields name value).Ordered := by
  induction fields with
  | nil => exact List.pairwise_singleton _ _
  | cons field rest ih =>
    obtain ⟨k,v⟩ := field
    obtain ⟨first,others⟩ := List.pairwise_cons.mp ordered
    rw [Fields.insert]
    split
    · next same => exact List.pairwise_cons.mpr ⟨fun later member => same ▸ first later member,others⟩
    · next different =>
      split
      · next earlier =>
        refine List.pairwise_cons.mpr ⟨?_,ordered⟩
        intro later member
        rcases List.mem_cons.mp member with rfl | member
        · exact earlier
        · exact earlier.trans (first later member)
      · next later =>
        refine List.pairwise_cons.mpr ⟨?_,ih others⟩
        intro entry member
        rcases mem_insert member with rfl | member
        · exact lt_of_le_of_ne (not_lt.mp later) different
        · exact first entry member

theorem of_ordered (entries : List (String × Value)) : (Fields.of entries).Ordered := by
  suffices general : ∀ fields : Fields, fields.Ordered → (entries.foldl (fun fields entry => Fields.insert fields entry.1 entry.2) fields).Ordered from
    general [] List.Pairwise.nil
  induction entries with
  | nil => exact fun _ ordered => ordered
  | cons entry rest ih => exact fun fields ordered => ih _ ordered.insert

/-- A value that is there is replaced at its place. -/
theorem insert_split (ordered : fields.Ordered) (there : Fields.get fields name = some old) :
    ∃ before after, fields = before ++ (name,old) :: after ∧ Fields.insert fields name value = before ++ (name,value) :: after := by
  induction fields with
  | nil => cases there
  | cons field rest ih =>
    obtain ⟨k,v⟩ := field
    obtain ⟨first,others⟩ := List.pairwise_cons.mp ordered
    rw [Fields.get] at there
    rw [Fields.insert]
    split at there
    · next same =>
      cases there
      subst same
      exact ⟨[],rest,rfl,if_pos rfl⟩
    · next different =>
      obtain ⟨before,after,split,inserted⟩ := ih others there
      have later : ¬ name < k := by
        have above := first (name,old) (by rw [split]; simp)
        exact not_lt.mpr above.le
      rw [if_neg different,if_neg later,inserted]
      exact ⟨(k,v) :: before,after,by rw [split]; rfl,rfl⟩

/-- A value in place of one whose text is as long does not change the length of the object. -/
theorem replace_length {write : Value → String} (compact : Compact write) (ordered : fields.Ordered) (there : Fields.get fields name = some old)
    (equal : (write value).utf8ByteSize = (write old).utf8ByteSize) :
    (write (.object (Fields.insert fields name value))).utf8ByteSize = (write (.object fields)).utf8ByteSize := by
  obtain ⟨before,after,split,inserted⟩ := @insert_split _ name value old ordered there
  rw [inserted,split,compact.object,compact.object]
  simp only [String.utf8ByteSize_append,intercalate_length,List.map_append,List.map_cons,List.sum_append,List.sum_cons,List.length_append,
    List.length_cons,equal]

end NodeAgent.Json
