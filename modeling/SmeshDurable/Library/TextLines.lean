import Mathlib.Data.List.Basic

/-!
# Texts of lines

The bytes of a text, and texts made of lines that each end with a line feed. Splitting the
bytes at the line feeds gives the lines back, since no byte of another character is one.
-/

namespace TextLines

/-- The bytes of a text. -/
def bytes (text : String) : List UInt8 := text.toUTF8.data.toList

theorem bytes_eq (text : String) : bytes text = text.toList.flatMap String.utf8EncodeChar := by
  unfold bytes
  conv_lhs => rw [← String.ofList_toList (s := text)]
  rw [String.toUTF8_eq_toByteArray, String.toByteArray_ofList, List.utf8Encode,
    List.data_toByteArray]

@[simp] theorem bytes_append (a b : String) : bytes (a ++ b) = bytes a ++ bytes b := by
  rw [bytes_eq, bytes_eq, bytes_eq, String.toList_append, List.flatMap_append]

@[simp] theorem length_bytes (text : String) : (bytes text).length = text.utf8ByteSize := by
  unfold bytes
  rw [Array.length_toList, String.toUTF8_eq_toByteArray]
  rfl

theorem bytes_injective : Function.Injective bytes := by
  intro a b h
  unfold bytes at h
  rw [String.toUTF8_eq_toByteArray, String.toUTF8_eq_toByteArray, Array.toList_inj] at h
  exact String.toByteArray_inj.mp (ByteArray.ext h)

/-- The bytes of a character from 0x80 on are from 0x80 on. -/
theorem le_of_mem_utf8EncodeChar {c : Char} {b : UInt8} (hc : 0x80 ≤ c.toNat)
    (hb : b ∈ String.utf8EncodeChar c) : 0x80 ≤ b.toNat := by
  have hval : c.val.toNat = c.toNat := rfl
  unfold String.utf8EncodeChar at hb
  rw [hval] at hb
  dsimp only at hb
  rw [if_neg (by omega)] at hb
  split at hb
  · simp only [List.mem_cons, List.not_mem_nil, or_false] at hb
    rcases hb with rfl | rfl <;> simp only [UInt8.toNat_ofNat'] <;> omega
  · split at hb
    · simp only [List.mem_cons, List.not_mem_nil, or_false] at hb
      rcases hb with rfl | rfl | rfl <;> simp only [UInt8.toNat_ofNat'] <;> omega
    · simp only [List.mem_cons, List.not_mem_nil, or_false] at hb
      rcases hb with rfl | rfl | rfl | rfl <;> simp only [UInt8.toNat_ofNat'] <;> omega

/-- A byte below 0x80 is a character. -/
theorem exists_char_of_mem_bytes {text : String} {b : UInt8} (hb : b.toNat < 0x80)
    (h : b ∈ bytes text) : ∃ c ∈ text.toList, c.toNat = b.toNat := by
  rw [bytes_eq, List.mem_flatMap] at h
  obtain ⟨c, hc, hmem⟩ := h
  refine ⟨c, hc, ?_⟩
  by_cases hascii : c.toNat ≤ 0x7f
  · have hbyte : String.utf8EncodeChar c = [UInt8.ofNat c.toNat] := if_pos hascii
    rw [hbyte, List.mem_singleton] at hmem
    rw [hmem, UInt8.toNat_ofNat', Nat.mod_eq_of_lt (by omega)]
  · have hle := le_of_mem_utf8EncodeChar (by omega) hmem
    omega

/-! ## Lines -/

/-- The lines one after another, each with its line feed. -/
def joined : List String → String
  | [] => ""
  | line :: rest => line ++ "\n" ++ joined rest

theorem joined_append (lines others : List String) :
    joined (lines ++ others) = joined lines ++ joined others := by
  induction lines with
  | nil => simp [joined]
  | cons line rest ih => simp [joined, ih, String.append_assoc]

theorem joined_concat (lines : List String) (line : String) :
    joined (lines ++ [line]) = joined lines ++ line ++ "\n" := by
  rw [joined_append]
  simp [joined, String.append_assoc]

theorem bytes_feed : bytes "\n" = [10] := by decide

/-- The bytes of joined lines, line by line. -/
theorem bytes_joined (lines : List String) :
    bytes (joined lines) = lines.flatMap fun line => bytes line ++ [10] := by
  induction lines with
  | nil => rfl
  | cons line rest ih =>
    rw [joined, bytes_append, bytes_append, bytes_feed, ih, List.flatMap_cons]

/-- Splitting at the line feeds gives the lines back. -/
theorem splitOn_joined {lines : List String} (hnonempty : lines ≠ [])
    (hlines : ∀ line ∈ lines, 10 ∉ bytes line) :
    (bytes (joined lines)).dropLast.splitOn 10 = lines.map bytes := by
  induction lines with
  | nil => exact absurd rfl hnonempty
  | cons line rest ih =>
    have hline : 10 ∉ bytes line := hlines line List.mem_cons_self
    rw [bytes_joined, List.flatMap_cons, ← bytes_joined]
    cases rest with
    | nil =>
      have hnil : bytes (joined []) = [] := rfl
      rw [hnil, List.append_nil, List.dropLast_concat, List.splitOn_eq_singleton hline]
      rfl
    | cons next others =>
      have hrest := ih (by simp) fun l hl => hlines l (List.mem_cons_of_mem line hl)
      have hne : bytes (joined (next :: others)) ≠ [] := by
        rw [bytes_joined, List.flatMap_cons]
        simp
      rw [List.append_assoc, List.singleton_append,
        List.dropLast_append_of_ne_nil (by simp), List.dropLast_cons_of_ne_nil hne,
        List.splitOn_append_cons_self, List.splitOn_eq_singleton hline, hrest]
      rfl

/-! ## Fields between separators -/

end TextLines
