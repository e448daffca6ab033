import Mathlib.Data.List.Basic

/-!
The bytes of texts. A text is known from its bytes, and the bytes of one text after another
are those of the whole.
-/
namespace NodeAgent.Utf8Bytes

theorem toList_loop (bytes : ByteArray) (i : Nat) (done : List UInt8) :
    ByteArray.toList.loop bytes i done = done.reverse ++ bytes.data.toList.drop i := by
  fun_induction ByteArray.toList.loop bytes i done with
  | case1 i done inside ih =>
    have within : i < bytes.data.toList.length := by simpa using inside
    have entry : bytes.get! i = bytes.data.toList[i] := by
      cases bytes with
      | mk data =>
        change data[i]! = data.toList[i]
        rw [getElem!_pos data i within]
        rfl
    rw [ih,List.drop_eq_getElem_cons within,List.reverse_cons,List.append_assoc,entry]
    rfl
  | case2 i done outside =>
    have past : bytes.data.toList.length ≤ i := by simpa using outside
    rw [List.drop_of_length_le past,List.append_nil]

theorem toList_data (bytes : ByteArray) : bytes.toList = bytes.data.toList := by
  rw [ByteArray.toList,toList_loop]
  rfl

/-- The bytes of a text are those of its characters. -/
theorem bytes_chars (text : String) : text.toUTF8.toList = text.toList.flatMap String.utf8EncodeChar := by
  have encoded : text.toUTF8 = (text.toList.flatMap String.utf8EncodeChar).toByteArray := by
    rw [String.toUTF8_eq_toByteArray]
    have whole := String.toByteArray_ofList (l := text.toList)
    rw [String.ofList_toList] at whole
    exact whole
  rw [toList_data,encoded,List.toList_data_toByteArray]

theorem bytes_injective {left right : String} (same : left.toUTF8.toList = right.toUTF8.toList) : left = right := by
  rw [toList_data,toList_data] at same
  have data : left.toUTF8 = right.toUTF8 := ByteArray.ext (Array.toList_inj.mp same)
  exact String.toByteArray_inj.mp data

end NodeAgent.Utf8Bytes
