import SmeshDurable.Library.CanonicalBounds
import SmeshDurable.Policy.Receipt

/-!
# The text concordance

The one workload of the standalone profile counts the ASCII words of a text. Its artifact is a
function of the text alone, so whoever holds the text can recompute it byte for byte.
-/

namespace SmeshDurable.Concordance

open CanonicalJson Json Policy Replay TextLines Transaction
open Json (number)

def isAsciiAlphabetic (b : UInt8) : Bool := (0x41 ≤ b && b ≤ 0x5a) || (0x61 ≤ b && b ≤ 0x7a)

def toAsciiLowercase (b : UInt8) : UInt8 := if 0x41 ≤ b && b ≤ 0x5a then b + 0x20 else b

/-- The words counted so far; the table is sorted by word. -/
structure Tally where
  asciiWordCount : Nat
  wordFrequencies : List (String × Nat)
deriving DecidableEq, Repr

def frequency (word : String) (frequencies : List (String × Nat)) : Nat :=
  (frequencies.lookup word).getD 0

def normalized (word : List UInt8) : String :=
  String.ofList (word.map fun b => Char.ofNat (toAsciiLowercase b).toNat)

/-- A table whose words were read from `consumed` bytes, and whose words are all plain. -/
structure Tally.Fits (tally : Tally) (consumed : Nat) : Prop where
  size : (tally.wordFrequencies.map fun entry => entry.1.utf8ByteSize + 9).sum ≤
    consumed + 9 * tally.asciiWordCount
  frequency : ∀ entry ∈ tally.wordFrequencies, entry.2 ≤ tally.asciiWordCount
  plain : ∀ entry ∈ tally.wordFrequencies, (bytes entry.1).all isPlain = true

section Digest

variable [ContentDigest]

end Digest

end SmeshDurable.Concordance
