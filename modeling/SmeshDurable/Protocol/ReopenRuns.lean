import SmeshDurable.Protocol.ReopenChanges

/-!
# Runs that leave a database acceptable

`Operation.reopenable` says of a call, from its arguments and the state it is made in, that
it cannot store rows the startup checks refuse. A run of such calls only reaches states the
checks accept. A second cancellation after the receiver's lease has run out is one that is
not: it supersedes a dispatch that still has a requested intent.
-/

namespace SmeshDurable

open Transaction

section

variable [ContentDigest]

/-- The receiver answered a cancellation request. -/
def Dispatch.receiverCanceled (d : Dispatch) : Bool :=
  d.intent.any fun intent => intent.state != .requested

namespace Operation

end Operation

end

section

variable [ContentDigest] {cfg : Config} {s s' : Store} {now : Int}

end

attribute [local instance] checksumDigest

end SmeshDurable
