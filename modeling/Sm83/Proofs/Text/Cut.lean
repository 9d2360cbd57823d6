/-!
# Cutting texts

A text is cut where a character stops it in one way only. The bytes of a text say which ASCII
characters it is without, and they are what a table of texts is checked by.
-/

namespace Sm83.Text

/-! ## Cuts at a stop -/

/-- Texts without stops, each followed by nothing or by a stop, are cut off in the same place. -/
theorem append_inj_of_stop {stops : Char → Prop} {text text' rest rest' : List Char}
    (before : ∀ c ∈ text, ¬stops c) (before' : ∀ c ∈ text', ¬stops c)
    (behind : ∀ c, rest.head? = some c → stops c) (behind' : ∀ c, rest'.head? = some c → stops c)
    (same : text ++ rest = text' ++ rest') : text = text' ∧ rest = rest' := by
  induction text generalizing text' with
  | nil =>
      cases text' with
      | nil => exact ⟨rfl, same⟩
      | cons c text' =>
          have stop := behind c (by simp only [List.nil_append] at same; simp [same])
          exact absurd stop (before' c List.mem_cons_self)
  | cons c text ih =>
      cases text' with
      | nil =>
          have stop := behind' c (by simp only [List.nil_append] at same; simp [← same])
          exact absurd stop (before c List.mem_cons_self)
      | cons c' text' =>
          simp only [List.cons_append, List.cons.injEq] at same
          obtain ⟨rfl, same⟩ := same
          obtain ⟨rfl, rest⟩ := ih (fun c written => before c (List.mem_cons_of_mem _ written))
            (fun c written => before' c (List.mem_cons_of_mem _ written)) same
          exact ⟨rfl, rest⟩

/-! ## Bytes of texts -/

/-- The bytes of a text. -/
def bytes (text : String) : List UInt8 :=
  text.toByteArray.data.toList

/-- A number that stands for a text in comparisons; different numbers mean different texts. -/
def code (text : String) : Nat :=
  (bytes text).foldl (fun code byte => 256 * code + byte.toNat) 0

theorem bytes_eq_flatMap (text : String) :
    bytes text = text.toList.flatMap String.utf8EncodeChar := by
  rw [bytes]
  rw [← String.utf8Encode_toList, List.utf8Encode, List.data_toByteArray]

theorem bytes_append (text text' : String) : bytes (text ++ text') = bytes text ++ bytes text' := by
  simp only [bytes_eq_flatMap, String.toList_append, List.flatMap_append]

theorem byte_mem_bytes {text : String} {c : Char} (ascii : c.utf8Size = 1)
    (written : c ∈ text.toList) : c.val.toUInt8 ∈ bytes text := by
  rw [bytes_eq_flatMap, List.mem_flatMap]
  exact ⟨c, written, by simp [String.utf8EncodeChar_eq_singleton ascii]⟩

theorem notMem_of_byte {text : String} {c : Char} (ascii : c.utf8Size = 1)
    (missing : c.val.toUInt8 ∉ bytes text) : c ∉ text.toList :=
  fun written => missing (byte_mem_bytes ascii written)

end Sm83.Text
