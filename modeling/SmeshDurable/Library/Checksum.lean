import Mathlib.Data.List.Basic
import Mathlib.Data.String.Basic

/-!
# A checksum that evaluates

A digest of byte strings with 64 hexadecimal digits that the kernel computes quickly, for
running a program that is parametric in its digest.
-/

namespace Checksum

/-- The lower-case hexadecimal digit of a number below sixteen. -/
def hexDigit (n : Nat) : Char := if n < 10 then Char.ofNat (48 + n) else Char.ofNat (87 + n)

/-- The bytes read as a polynomial. -/
def polynomial (bytes : List UInt8) : Nat :=
  bytes.foldl (fun value byte => (value * 257 + byte.toNat + 1) % 2 ^ 32) 0

/-- The polynomial in 64 digits, of which the first 56 are zero. -/
def digits (bytes : List UInt8) : List Char :=
  let value := polynomial bytes
  List.replicate 56 '0' ++ (List.range 8).map fun i => hexDigit (value / 16 ^ i % 16)

theorem utf8Size_hexDigit {n : Nat} (h : n < 16) : (hexDigit n).utf8Size = 1 := by
  have hall : ∀ n ∈ List.range 16, (hexDigit n).utf8Size = 1 := by decide
  exact hall n (List.mem_range.mpr h)

theorem utf8ByteSize_ofList_ascii {chars : List Char} (h : ∀ c ∈ chars, c.utf8Size = 1) :
    (String.ofList chars).utf8ByteSize = chars.length := by
  induction chars with
  | nil => rfl
  | cons c rest ih =>
    rw [String.ofList_cons, String.utf8ByteSize_append, List.length_cons,
      ih fun x hx => h x (List.mem_cons_of_mem c hx)]
    simp [h c List.mem_cons_self]
    omega

/-- A prefix and the 64 digits. -/
theorem utf8ByteSize_digits (bytes : List UInt8) :
    (String.ofList (digits bytes)).utf8ByteSize = 64 := by
  rw [utf8ByteSize_ofList_ascii]
  · simp [digits]
  · intro c hc
    rcases List.mem_append.mp hc with hzero | hdigit
    · rw [List.eq_of_mem_replicate hzero]
      rfl
    · obtain ⟨i, -, rfl⟩ := List.mem_map.mp hdigit
      exact utf8Size_hexDigit (Nat.mod_lt _ (by decide))

end Checksum
