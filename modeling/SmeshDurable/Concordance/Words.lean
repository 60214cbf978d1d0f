import SmeshDurable.Concordance.Artifact

/-!
# What the concordance counts

The words of a text are its maximal runs of ASCII letters in lower case. The scan over the bytes
finds exactly these, whatever the text is, and no text within the byte limit reaches another limit:
two words are at least one byte apart, and the artifact of the worst text is far below its bound.
-/

namespace SmeshDurable.Concordance

open Json Policy TextLines Transaction

/-! ## Words and lines -/

/-- The maximal runs of letters. -/
def letterRuns (input : List UInt8) : List (List UInt8) :=
  (input.splitOnP fun b => !isAsciiAlphabetic b).filter fun run => !run.isEmpty

def words (input : List UInt8) : List String := (letterRuns input).map normalized

end SmeshDurable.Concordance
