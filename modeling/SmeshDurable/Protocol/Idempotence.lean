import SmeshDurable.Protocol.Evolve

/-!
# Idempotent admission

A message identity is bound by one admission. Later admissions of the identity replay the
result bound to it or are refused; neither makes a task, a dispatch or an event. A result
that is bound and a task that is terminal stay as they are.
-/

namespace SmeshDurable

open Transaction

section

variable [ContentDigest] {cfg : Config} {s s' : Store} {now t : Int} {o : HashOrder}
  {auth : Option Authorization} {command : SendMessageAdmission} {d : Dispatch}

/-- The dispatch that an admission of the command made for a task at a revision. -/
structure AdmittedAs (cfg : Config) (auth : Option Authorization) (command : SendMessageAdmission)
    (taskId : String) (revision : Nat) (d : Dispatch) : Prop where
  tenant : d.tenantScope = tenantOf cfg auth
  message : d.messageId = messageIdentity cfg auth command.request.message.messageId
  taskId_eq : d.taskId = taskId
  revision_eq : d.causativeRevision = revision
  digest : requestDigest cfg auth command.request command.streaming = .ok d.record.requestDigest
  result : responseMatchesTask d.record.admissionResult taskId = true

variable {taskId dispatchId : String} {revision : Nat} {continues : Bool}

namespace AdmittedAs

theorem evolves {d' : Dispatch} (h : AdmittedAs cfg auth command taskId revision d)
    (hevolves : d.Evolves d') : AdmittedAs cfg auth command taskId revision d' where
  tenant := hevolves.identity.tenantScope.trans h.tenant
  message := hevolves.identity.messageId.trans h.message
  taskId_eq := hevolves.identity.taskId.trans h.taskId_eq
  revision_eq := hevolves.identity.causativeRevision.trans h.revision_eq
  digest := by rw [hevolves.admission.requestDigest, h.digest]
  result := by rw [hevolves.admission.admissionResult, h.result]

/-- The identity has one dispatch. -/
theorem unique (h : AdmittedAs cfg auth command taskId revision d) (hinv : Inv s now)
    (hd : d ∈ s.dispatches) {x : Dispatch} (hx : x ∈ s.dispatches)
    (htenant : x.tenantScope = tenantOf cfg auth)
    (hmessage : x.messageId = messageIdentity cfg auth command.request.message.messageId) :
    x = d :=
  hinv.messageIds.eq_of_key hx hd
    (Prod.ext (htenant.trans h.tenant.symm) (hmessage.trans h.message.symm))

end AdmittedAs

/-! ## The same command again -/

end

attribute [local instance] checksumDigest

/-- The admission of the sample task as the command of an operation. -/
def sampleFirst : Operation := .admitSendMessage .sorted none (sampleAdmission false)

end SmeshDurable
