import SmeshDurable.Protocol.RefineOutbox

/-!
# Receiving and completing as changes

A delivered envelope is accepted, reclaimed, found busy or answered from the stored
outcome; a completion stores an outcome under the current lease or is refused.
-/

namespace SmeshDurable

open Transaction Relation

variable [ContentDigest] {cfg : Config} {s s' : Store} {now : Int} {d : Dispatch}
  {envelope : DurableDispatchEnvelope} {owner : String} {duration : Int} {entropy : List UInt8}

theorem contentDigest_isEmpty (bytes : List UInt8) : (contentDigest bytes).isEmpty = false := by
  have hsize := contentDigest_size bytes
  simp only [String.isEmpty, beq_eq_false_iff_ne, ne_eq]
  omega

omit [ContentDigest] in
/-- The row that carries the envelope of a dispatch. -/
theorem Dispatch.ownsEnvelope_iff : d.ownsEnvelope envelope = true ↔
    d.tenantScope = envelope.tenantScope ∧ d.dispatchId = envelope.dispatchId ∧
      d.taskId = envelope.request.taskId ∧ d.payloadDigest = envelope.payloadDigest ∧
      d.state = .leased ∧ d.leaseToken.isSome = true := by
  simp only [Dispatch.ownsEnvelope, Bool.and_eq_true, beq_iff_eq, and_assoc]

/-- A fresh processing row for a valid envelope is valid. -/
theorem processing_valid {inbox : InboxRow} {token : String} {leaseUntil : Int}
    (henvelope : envelopeValid envelope owner duration = true)
    (howns : d.ownsEnvelope envelope = true)
    (hpayload : receiverRequestIsValid inbox.payload inbox.payload.jsonBytes = true)
    (hdigest : inbox.payloadDigest = textDigest inbox.payload.encode)
    (hepoch : 0 < inbox.leaseEpoch) (hstate : inbox.state = .processing owner token leaseUntil)
    (htoken : token.isEmpty = false ∧ token.utf8ByteSize ≤ 256)
    (heffect : inbox.effectCommittedAt = none) : inboxRowValid d inbox = true := by
  obtain ⟨htenant, hdispatch, -⟩ := Dispatch.ownsEnvelope_iff.mp howns
  simp only [envelopeValid, Bool.and_eq_true, Bool.not_eq_true', decide_eq_true_eq] at henvelope
  obtain ⟨⟨⟨⟨⟨⟨⟨hscope, hnonempty⟩, hshort⟩, -⟩, -⟩, howner⟩, hownerSize⟩, -⟩ := henvelope
  simp only [inboxRowValid, hstate, htenant, hdispatch, hscope, hnonempty, hshort, hpayload, hdigest,
    hepoch, howner, hownerSize, htoken, heffect, Bool.not_false, Bool.and_self, decide_true,
    Option.isNone_none, BEq.rfl]

/-- What receiving an envelope does. -/
inductive ReceiveEffect (cfg : Config) (envelope : DurableDispatchEnvelope) (owner : String)
    (now : Int) (s : Store) : ReceiverAdmission → Store → Prop
  | busy (d : Dispatch) (inbox : InboxRow) (hd : d ∈ s.dispatches)
      (howns : d.ownsEnvelope envelope = true) (hinbox : d.inbox = some inbox)
      (hlive : inbox.live now = true) : ReceiveEffect cfg envelope owner now s .busy s
  | replayed (d : Dispatch) (inbox : InboxRow) (termination : DurableReceiverTermination)
      (frameCount : Nat) (digest : String) (completedAt : Int) (events : List MeshEvent)
      (hd : d ∈ s.dispatches) (howns : d.ownsEnvelope envelope = true)
      (hinbox : d.inbox = some inbox)
      (hstate : inbox.state = .completed termination frameCount digest completedAt)
      (hevents : loadReceiverFrames inbox.frames frameCount digest = .ok events) :
      ReceiveEffect cfg envelope owner now s (.replay events termination) s
  | accepted (d : Dispatch) (inbox : InboxRow) (lease : ReceiverLease)
      (howns : d.ownsEnvelope envelope = true)
      (hlease : inbox.heldBy lease now = true)
      (henabled : (Change.accept d inbox).Enabled cfg now s) :
      ReceiveEffect cfg envelope owner now s (.execute lease) ((Change.accept d inbox).run cfg now s)
  | reclaimed (d : Dispatch) (old inbox : InboxRow) (lease : ReceiverLease)
      (howns : d.ownsEnvelope envelope = true)
      (hlease : inbox.heldBy lease now = true)
      (hbytes : inbox.leaseBytes = owner.utf8ByteSize + 71)
      (henabled : (Change.reclaim d old inbox).Enabled cfg now s) :
      ReceiveEffect cfg envelope owner now s (.execute lease) ((Change.reclaim d old inbox).run cfg now s)

variable {admission : ReceiverAdmission}

theorem accept_spec (hd : d ∈ s.dispatches) (hinbox : d.inbox = none)
    (hduration : 0 < duration)
    (hpayload : receiverRequestIsValid envelope.request envelope.request.jsonBytes = true)
    (hdigest : envelope.payloadDigest = textDigest envelope.request.encode)
    (hvalid : envelopeValid envelope owner duration = true)
    (howns : d.ownsEnvelope envelope = true)
    (h : accept d envelope owner now duration entropy s = .ok (admission, s')) :
    ReceiveEffect cfg envelope owner now s admission s' := by
  simp only [accept, bind_eq_ok, leaseEnd_eq_ok, ensureReceiverCapacity_eq_ok, exists_const,
    Except.ok.injEq, Prod.mk.injEq] at h
  obtain ⟨leaseUntil, ⟨-, rfl⟩, hcapacity, rfl, rfl⟩ := h
  obtain ⟨-, -, -, hpayloadDigest, hleased, -⟩ := Dispatch.ownsEnvelope_iff.mp howns
  refine .accepted d _ _ howns ?_ ⟨hd, hleased, hinbox, hpayloadDigest.symm, ?_, rfl, rfl,
    ⟨rfl, rfl⟩, hcapacity⟩
  · have hlive : now < now + duration := by omega
    simp [InboxRow.heldBy, receiverLeaseOf, hlive]
  · exact processing_valid hvalid howns hpayload hdigest Nat.one_pos rfl
      ⟨contentDigest_isEmpty _, by rw [claimToken, contentDigest_size]; decide⟩ rfl

theorem reclaim_spec {inbox : InboxRow} {oldOwner oldToken : String} {expired : Int}
    (hinv : Inv s now) (hd : d ∈ s.dispatches) (hinbox : d.inbox = some inbox)
    (hduration : 0 < duration) (hvalid : envelopeValid envelope owner duration = true)
    (howns : d.ownsEnvelope envelope = true)
    (hstate : inbox.state = .processing oldOwner oldToken expired) (hexpired : expired ≤ now)
    (h : reclaim d inbox envelope owner now duration entropy s = .ok (admission, s')) :
    ReceiveEffect cfg envelope owner now s admission s' := by
  simp only [reclaim, bind_eq_ok, require_eq_ok, leaseEnd_eq_ok, exists_const,
    Except.ok.injEq, Prod.mk.injEq] at h
  obtain ⟨-, leaseUntil, ⟨-, rfl⟩, rfl, rfl⟩ := h
  obtain ⟨-, -, -, hpayloadDigest, hleased, -⟩ := Dispatch.ownsEnvelope_iff.mp howns
  have hold := (hinv.dispatches d hd).inbox inbox hinbox
  have hrow := hold.row
  simp only [inboxRowValid, hstate, Bool.and_eq_true, beq_iff_eq, decide_eq_true_eq,
    Option.isNone_iff_eq_none] at hrow
  obtain ⟨⟨⟨⟨⟨⟨-, -⟩, -⟩, hpayload⟩, hdigest⟩, -⟩, -, heffect⟩ := hrow
  refine .reclaimed d inbox _ _ howns ?_ ?_ ⟨hd, hleased, hinbox, ⟨_, _, _, hstate, hexpired⟩,
    ⟨rfl, rfl, rfl, rfl, rfl⟩, ?_, rfl, rfl, rfl⟩
  · have hlive : now < now + duration := by omega
    simp [InboxRow.heldBy, receiverLeaseOf, hlive, hold.payloadDigest, hpayloadDigest]
  · simp [InboxRow.leaseBytes, reclaimToken, contentDigest_size]
  · exact processing_valid hvalid howns hpayload hdigest (Nat.succ_pos _) rfl
      ⟨contentDigest_isEmpty _, by rw [reclaimToken, contentDigest_size]; decide⟩ heffect

/-- What receiving an envelope does. -/
theorem beginReceive_spec (cfg : Config) (hinv : Inv s now)
    (h : beginReceive envelope owner now duration entropy s = .ok (admission, s')) :
    ReceiveEffect cfg envelope owner now s admission s' := by
  simp only [beginReceive, bind_eq_ok, require_eq_ok, expect_eq_ok, exists_const] at h
  obtain ⟨hvalid, d, hfind, h⟩ := h
  have hd := List.mem_of_find?_eq_some hfind
  have howns : d.ownsEnvelope envelope = true := by simpa using List.find?_some hfind
  have hfields := hvalid
  simp only [envelopeValid, Bool.and_eq_true, beq_iff_eq, decide_eq_true_eq] at hfields
  obtain ⟨⟨⟨⟨⟨-, hdigest⟩, hpayload⟩, -⟩, -⟩, hduration⟩ := hfields
  split at h
  case h_1 hinbox => exact accept_spec hd hinbox hduration hpayload hdigest hvalid howns h
  case h_2 inbox hinbox =>
    simp only [bind_eq_ok, require_eq_ok, exists_const] at h
    obtain ⟨-, h⟩ := h
    split at h
    case h_1 termination frameCount digest completedAt hstate =>
      simp only [replayOutcome, bind_eq_ok, require_eq_ok, exists_const, Except.ok.injEq,
        Prod.mk.injEq] at h
      obtain ⟨⟨events, ended⟩, ⟨loaded, hloaded, -, -, rfl, rfl⟩, rfl, rfl⟩ := h
      exact .replayed d inbox _ frameCount digest completedAt _ hd howns hinbox hstate
        hloaded
    case h_2 oldOwner oldToken leaseUntil hstate =>
      split at h
      case isTrue hlive =>
        obtain ⟨rfl, rfl⟩ := Prod.mk.inj (Except.ok.inj h)
        refine .busy d inbox hd howns hinbox ?_
        simpa [InboxRow.live, hstate, InboxState.leaseUntil?] using hlive
      case isFalse hexpired =>
        exact reclaim_spec hinv hd hinbox hduration hvalid howns hstate (by omega) h

/-! ## Completion -/

variable {kind : CompletionKind} {lease : ReceiverLease} {events : List MeshEvent}
  {termination : DurableReceiverTermination}

omit [ContentDigest] in
/-- The row a presented execution lease holds. -/
theorem InboxRow.heldBy_iff {inbox : InboxRow} : inbox.heldBy lease now = true ↔
    inbox.payloadDigest = lease.payloadDigest ∧ inbox.leaseEpoch = lease.leaseEpoch ∧
      inbox.state = .processing lease.leaseOwner lease.leaseToken lease.leaseUntil ∧
      now < lease.leaseUntil := by
  simp only [InboxRow.heldBy, Bool.and_eq_true, beq_iff_eq, decide_eq_true_eq, and_assoc]

/-- What storing an outcome does. -/
theorem completeReceiveInner_spec (cfg : Config) {u : Unit}
    (h : completeReceiveInner kind lease events termination now s = .ok (u, s')) :
    ∃ d inbox, d.tenantScope = lease.tenantScope ∧ d.dispatchId = lease.dispatchId ∧
      inbox.heldBy lease now = true ∧
      (Change.complete d inbox kind events termination).Enabled cfg now s ∧
      s' = (Change.complete d inbox kind events termination).run cfg now s := by
  simp only [completeReceiveInner, bind_eq_ok, require_eq_ok, expect_eq_ok,
    ensureReceiverCapacity_eq_ok, exists_const, Except.ok.injEq, Prod.mk.injEq] at h
  obtain ⟨houtcome, hfits, hsizes, -, d, hfind, inbox, hinbox, ⟨hheld, hrequested⟩, -, -,
    hcapacity, -, rfl⟩ := h
  have hmatch := List.find?_some hfind
  simp only [decide_eq_true_eq] at hmatch
  obtain ⟨-, -, hstate, hlive⟩ := InboxRow.heldBy_iff.mp hheld
  exact ⟨d, inbox, hmatch.1, hmatch.2, hheld, ⟨List.mem_of_find?_eq_some hfind, hinbox,
    ⟨_, _, _, hstate, hlive⟩, hrequested, houtcome, hfits, hsizes, hcapacity⟩, rfl⟩

end SmeshDurable
