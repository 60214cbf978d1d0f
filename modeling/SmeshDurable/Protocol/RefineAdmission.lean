import SmeshDurable.Protocol.Preserve

/-!
# Admission as a change

Admission and continuation either replay the result bound to the message identity, or
make one change and record the decision behind it.
-/

namespace SmeshDurable

open Transaction Relation

variable [ContentDigest] {cfg : Config} {s s' : Store} {now : Int} {o : HashOrder}
  {auth : Option Authorization} {command : SendMessageAdmission} {outcome : AdmissionOutcome}

/-! ## Decisions -/

/-- Decisions are recorded one by one. -/
theorem changes_decisions (decisions : List AuthorizationAuditInput) :
    ReflTransGen (OrdinaryChanges cfg now) s { s with decisions := s.decisions ++ decisions } := by
  induction decisions generalizing s with
  | nil => rw [List.append_nil]
  | cons decision rest ih =>
    refine .head ⟨.audit decision, rfl, trivial, rfl⟩ ?_
    have hrest := ih (s := { s with decisions := s.decisions ++ [decision] })
    rw [List.append_assoc] at hrest
    exact hrest

/-! ## Admission -/

/-- The message identity of a command is already bound. -/
def SendMessageAdmission.bound (cfg : Config) (auth : Option Authorization)
    (command : SendMessageAdmission) (s : Store) : Bool :=
  (s.dispatchOfMessage? (tenantOf cfg auth)
    (messageIdentity cfg auth command.request.message.messageId)).isSome

theorem SendMessageAdmission.bound_eq_false
    (h : ∀ d ∈ s.dispatches, ¬ (d.tenantScope = tenantOf cfg auth ∧
      d.messageId = messageIdentity cfg auth command.request.message.messageId)) :
    command.bound cfg auth s = false := by
  simpa [SendMessageAdmission.bound, Store.dispatchOfMessage?] using h

/-- A message identity is already bound to the request: its result is replayed. -/
structure Replays (cfg : Config) (auth : Option Authorization) (command : SendMessageAdmission)
    (outcome : AdmissionOutcome) (s : Store) (d : Dispatch) : Prop where
  mem : d ∈ s.dispatches
  tenant : d.tenantScope = tenantOf cfg auth
  message : d.messageId = messageIdentity cfg auth command.request.message.messageId
  digest : requestDigest cfg auth command.request command.streaming = .ok d.record.requestDigest
  outcome : outcome = .replay d.record.replayResult

omit [ContentDigest] in
/-- A canonical admission is named by the message of its request. -/
theorem admissionMatchesRequest_messageId {raw : String}
    (hcanonical : admissionMatchesRequest command = true)
    (hraw : (command.task.history.bind List.getLast?).map Message.messageId = some raw) :
    raw = command.request.message.messageId := by
  simp only [admissionMatchesRequest, Bool.and_eq_true, beq_iff_eq] at hcanonical
  rw [hcanonical.1.1.1.1.1.1] at hraw
  simpa using hraw.symm

/-- What a successful admission does. -/
theorem admitSendMessage_spec (h : admitSendMessage o cfg auth command s = .ok (outcome, s')) :
    ((∃ d, Replays cfg auth command outcome s d) ∧ s' = s) ∨
      ∃ digest payload decisions,
        (Change.admission o auth digest payload command).Enabled cfg command.now s ∧
        outcome = .admitted command.task.id 1 (dispatchIdentity (tenantOf cfg auth)
          (messageIdentity cfg auth command.request.message.messageId)) ∧
        s' = { (Change.admission o auth digest payload command).run cfg command.now s with
          decisions := s.decisions ++ decisions } := by
  simp only [admitSendMessage, admitMessage, bind_eq_ok, require_eq_ok, expect_eq_ok,
    encodeTask_eq_ok, liftInput_eq_ok, exists_const] at h
  obtain ⟨hscope, hcanonical, digest, hdigest, payload, hpayload, raw, hraw, hnamed, hidentity,
    ⟨-, -, hpositive, hattempts, -⟩, hsize, hsizes, h⟩ := h
  obtain rfl := admissionMatchesRequest_messageId hcanonical hraw
  split at h
  case h_1 d hbound =>
    simp only [bind_eq_ok, require_eq_ok, exists_const, Except.ok.injEq, Prod.mk.injEq] at h
    obtain ⟨⟨hsame, -⟩, houtcome, hstore⟩ := h
    obtain ⟨hmem, htenant, hmessage⟩ := Store.dispatchOfMessage?_eq_some hbound
    exact .inl ⟨⟨d, hmem, htenant, hmessage, hsame ▸ hdigest, houtcome.symm⟩, hstore.symm⟩
  case h_2 hbound =>
    simp only [bind_eq_ok, require_eq_ok, exists_const, Except.ok.injEq, Prod.mk.injEq,
      ensureAtomicCapacity_eq_ok, ensureStreamCapacity_eq_ok] at h
    obtain ⟨-, -, hnew, hfresh, recorded, hrecorded, hatomic, hstream, houtcome, rfl⟩ := h
    obtain ⟨decisions, rfl⟩ := recordDecision_eq_ok hrecorded
    refine .inr ⟨digest, payload, decisions, ⟨⟨⟨rfl, hscope, ⟨hpositive, hattempts⟩, hnamed,
      hidentity, hdigest, hpayload, Store.dispatchOfMessage?_eq_none hbound, ?_, hsize⟩,
      hcanonical, Keyed.get?_eq_none.mp hnew, ?_, hsizes.2⟩, hstream, hatomic⟩,
      houtcome.symm, rfl⟩
    · simpa using hfresh
    · rw [← command.originalResult.size_toJson o]
      exact hsizes.1

/-! ## Continuation -/

theorem messageIdentity_size {messageId : String} (h : messageId.utf8ByteSize ≤ 4096) :
    (messageIdentity cfg auth messageId).utf8ByteSize ≤ 4096 := by
  cases auth with
  | none => exact h
  | some a => simp [messageIdentity, authorizedMessageIdentity]

/-- What a successful continuation does. -/
theorem admitContinuation_spec (h : admitContinuation o cfg auth command s = .ok (outcome, s')) :
    (∃ d decisions, Replays cfg auth command outcome s d ∧
      s' = { s with decisions := s.decisions ++ decisions }) ∨
      ∃ digest payload row decisions,
        (Change.resume o auth digest payload command row).Enabled cfg command.now s ∧
        row.task = command.task ∧
        outcome = .admitted command.task.id (row.revision + 1)
          (dispatchIdentity (tenantOf cfg auth)
            (messageIdentity cfg auth command.request.message.messageId)) ∧
        s' = { (Change.resume o auth digest payload command row).run cfg command.now s with
          decisions := s.decisions ++ decisions } := by
  simp only [admitContinuation, bind_eq_ok, require_eq_ok, exists_const] at h
  obtain ⟨hscope, ⟨hnamed, hidentity, hpositive, hattempts, -⟩, digest, hdigest, h⟩ := h
  split at h
  case h_1 d hbound =>
    simp only [bind_eq_ok, require_eq_ok, exists_const, Except.ok.injEq, Prod.mk.injEq] at h
    obtain ⟨hsame, recorded, hrecorded, houtcome, rfl⟩ := h
    obtain ⟨decisions, rfl⟩ := recordDecision_eq_ok hrecorded
    obtain ⟨hmem, htenant, hmessage⟩ := Store.dispatchOfMessage?_eq_some hbound
    exact .inl ⟨d, decisions, ⟨hmem, htenant, hmessage, hsame ▸ hdigest, houtcome.symm⟩, rfl⟩
  case h_2 hbound =>
    simp only [bind_eq_ok, require_eq_ok, expect_eq_ok, decodeTask_eq_ok, encodeTask_eq_ok,
      liftInput_eq_ok, nextRevision_eq_ok, ensureAtomicCapacity_eq_ok,
      ensureStreamCapacity_eq_ok, exists_const, Except.ok.injEq, Prod.mk.injEq] at h
    obtain ⟨row, hrow, hwaiting, durable, ⟨-, rfl⟩, hsame, hsize, payload, hpayload, revision,
      ⟨-, rfl⟩, hfresh, recorded, hrecorded, hatomic, hstream, houtcome, rfl⟩ := h
    obtain ⟨decisions, rfl⟩ := recordDecision_eq_ok hrecorded
    have hfound := List.find?_some hrow
    simp only [decide_eq_true_eq] at hfound
    refine .inr ⟨digest, payload, row, decisions, ⟨⟨⟨rfl, hscope, ⟨hpositive, hattempts⟩, hnamed,
      messageIdentity_size hidentity, hdigest, hpayload,
      Store.dispatchOfMessage?_eq_none hbound, ?_, hsize⟩, List.mem_of_find?_eq_some hrow,
      hfound.1, hwaiting⟩, hstream, hatomic⟩, hsame, ?_, rfl⟩
    · simpa using hfresh
    · rw [← houtcome, ← hsame]
      rfl

/-! ## Replay -/

/-- What an authorized replay does: it finds nothing, or returns the result bound to the
identity and digest of the request and records the decision. -/
theorem replayAuthorized_spec {auth : Authorization} {request : SendMessageRequest}
    {streaming : Bool} {response : Option SendMessageResponse}
    (h : replayAuthorized auth request streaming s = .ok (response, s')) :
    (response = none ∧ s' = s) ∨
      ∃ d decisions, d ∈ s.dispatches ∧ d.tenantScope = auth.scope.tenantScope ∧
        d.messageId = authorizedMessageIdentity auth.scope.tenantScope auth.audit.actorAccountId
          request.message.messageId ∧
        canonicalSendMessageDigestV2 auth.scope.tenantScope auth.audit.actorAccountId request
          streaming = .ok d.record.requestDigest ∧
        response = some d.record.replayResult ∧
        s' = { s with decisions := s.decisions ++ decisions } := by
  simp only [replayAuthorized, bind_eq_ok, require_eq_ok, exists_const] at h
  obtain ⟨-, digest, hdigest, h⟩ := h
  split at h
  case h_1 =>
    obtain ⟨rfl, rfl⟩ := Prod.mk.inj (Except.ok.inj h)
    exact .inl ⟨rfl, rfl⟩
  case h_2 d hfind =>
    simp only [bind_eq_ok, require_eq_ok, exists_const, Except.ok.injEq, Prod.mk.injEq] at h
    obtain ⟨rfl, recorded, hrecorded, rfl, rfl⟩ := h
    have hfound := List.find?_some hfind
    simp only [decide_eq_true_eq] at hfound
    exact .inr ⟨d, _, List.mem_of_find?_eq_some hfind, hfound.1, hfound.2.1, hdigest, rfl,
      insertAuthorizationAudit_eq_ok hrecorded⟩

end SmeshDurable
