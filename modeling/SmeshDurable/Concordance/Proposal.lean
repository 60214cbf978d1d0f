import SmeshDurable.Concordance.Words
import SmeshDurable.Driver.Outcome

/-!
# Requests and proposals of the text concordance

A message is admitted if it is one plain part of text within the byte limit. What the runtime
proposes for it is compared with the artifact that the text itself determines.
-/

namespace SmeshDurable.Concordance

open Policy TextLines Transaction
open Json (number)

/-! ## Admission -/

section Digest

variable [HexDigest]

end Digest

section Evaluated

attribute [local instance] checksumHexDigest

end Evaluated

end SmeshDurable.Concordance
