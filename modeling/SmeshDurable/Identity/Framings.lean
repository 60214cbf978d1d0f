import SmeshDurable.Library.Framing
import SmeshDurable.Library.TextLines
import SmeshDurable.Replay.Codec

/-!
# Framings of hashed and signed data

What the replay hashes, what a callback is signed over, what names a delivery and seals an audit
row, and what names a captured event. Every one of them starts with the text of its own domain,
and frames its fields in its own way.
-/

namespace SmeshDurable.Identity

open Framing TextLines Replay

/-! ## Frames -/

/-- A slice of bytes. No allocation has more than `isize::MAX` of them. -/
abbrev Slice := {bytes : Bytes // bytes.length < 2 ^ 63}

/-- A text that is a slice. -/
abbrev Str := {text : String // text.utf8ByteSize < 2 ^ 63}

/-- Bytes behind their length in eight bytes. -/
def pushLen (bytes : Bytes) : Bytes := Replay.bigEndian bytes.length ++ bytes

/-- A text behind its length in decimal digits. -/
def decimalFrame (value : String) : Bytes :=
  bytes value.utf8ByteSize.repr ++ bytes ":" ++ bytes value

/-! ## What is hashed or signed -/

def hashInput (label : String) (parts : List Bytes) : Bytes :=
  utf8 "SMESH-A2A\x00" ++ utf8 label ++ utf8 "\x00v1\x00" ++
    parts.flatMap fun part => Replay.bigEndian part.length ++ part

structure SigningArgs where
  target : Str
  endpointId : Str
  eventId : Str
  timestamp : UInt64
  attempt : UInt32
  keyGeneration : Str
  body : Bytes

def signingInput (sha256 : Bytes → {digest : Bytes // digest.length = 32}) (a : SigningArgs) :
    Bytes :=
  bytes "smesh-callback-signature/v1" ++
    [bytes "POST", bytes a.target.1, bytes a.endpointId.1, bytes a.eventId.1].flatMap pushLen ++
    Framing.bigEndian 8 a.timestamp.toNat ++ Framing.bigEndian 4 a.attempt.toNat ++
    pushLen (bytes a.keyGeneration.1) ++ (sha256 a.body).1

structure DeliveryArgs where
  tenant : Str
  taskId : Str
  eventSequence : UInt64
  taskRevision : UInt64
  configId : Str
  configGeneration : UInt64

def deliveryEventInput (a : DeliveryArgs) : Bytes :=
  bytes "smesh-callback/v1" ++ [bytes a.tenant.1, bytes a.taskId.1, bytes a.configId.1].flatMap pushLen ++
    Framing.bigEndian 8 a.eventSequence.toNat ++ Framing.bigEndian 8 a.taskRevision.toNat ++
    Framing.bigEndian 8 a.configGeneration.toNat

inductive CallbackAuditKind where
  | policyReconciled | configCreated | configDeleted | eventEnqueued | deliveryAttempted
  | delivered | retryScheduled | dead
deriving DecidableEq

def CallbackAuditKind.asStr : CallbackAuditKind → String
  | .policyReconciled => "callback_policy_reconciled"
  | .configCreated => "callback_config_created"
  | .configDeleted => "callback_config_deleted"
  | .eventEnqueued => "callback_event_enqueued"
  | .deliveryAttempted => "callback_delivery_attempted"
  | .delivered => "callback_delivered"
  | .retryScheduled => "callback_retry_scheduled"
  | .dead => "callback_dead"

structure AuditArgs where
  kind : CallbackAuditKind
  tenant : String
  task : String
  config : String
  event : String
  revision : Int64
  attempt : Int64

def callbackAuditInput (a : AuditArgs) : Bytes :=
  bytes "smesh-callback-audit/v1" ++
    [a.kind.asStr, a.tenant, a.task, a.config, a.event].flatMap decimalFrame ++
    [a.revision, a.attempt].flatMap fun value => decimalFrame value.toInt.repr

/-- What the identity of a captured event depends on. -/
structure CaptureArgs where
  runId : String
  identity : ProducerIdentity
  producerSequence : Nat
  kind : CaptureKind
  interactionId : String
  peerId : String
  taskId : Option String
  contextId : Option String
  subjectId : Option String
  parent : CaptureParent
  content : CapturedContent

def CaptureArgs.ofEvent (runId : String) (e : CaptureEvent) : CaptureArgs :=
  { runId, identity := e.producer.identity, producerSequence := e.producer.sequence, kind := e.kind,
    interactionId := e.interactionId, peerId := e.peerId, taskId := e.taskId,
    contextId := e.contextId, subjectId := e.subjectId, parent := e.parent, content := e.content }

def parentText : CaptureParent → String
  | .root => "root"
  | .event id => "event:" ++ id
  | .missing expectedEventId reason =>
    "missing:" ++ expectedEventId ++ ":" ++ variantName (gapName reason)

def captureFields (a : CaptureArgs) : List String :=
  [variantName (kindName a.identity.kind), a.identity.id, a.identity.instanceId,
    a.producerSequence.repr, variantName (captureKindName a.kind), a.interactionId, a.peerId,
    a.taskId.getD "", a.contextId.getD "", a.subjectId.getD "", parentText a.parent,
    a.content.digest, a.content.byteLength.repr]

def captureInput (a : CaptureArgs) : Bytes :=
  bytes ("\x00".intercalate ("full-matrix-event/v1" :: a.runId :: captureFields a))

section Digest

variable [ContentDigest]

theorem hash_eq (label : String) (parts : List Bytes) :
    Replay.hash label parts = contentDigest (hashInput label parts) := rfl

theorem captureEventId_eq (runId : String) (e : CaptureEvent) :
    captureEventId runId e = contentDigest (captureInput (.ofEvent runId e)) := by
  cases hparent : e.parent <;>
    simp only [captureEventId, captureInput, captureFields, CaptureArgs.ofEvent, hparent, parentText,
      String.intercalate_cons_cons, String.intercalate_singleton, String.append_assoc] <;>
    rfl

end Digest

/-! ## Frames can be read back -/

theorem selfDelimiting_length :
    SelfDelimiting fun n : {n : Nat // n < 2 ^ 63} => Replay.bigEndian n.1 := by
  refine (selfDelimiting_bigEndian 8).comp (fun n : {n : Nat // n < 2 ^ 63} => ⟨n.1, by omega⟩) ?_
  intro n m h
  exact Subtype.ext (congrArg Fin.val h)

theorem selfDelimiting_slice : SelfDelimiting fun part : Slice => pushLen part.1 :=
  selfDelimiting_length.framed (fun part : Slice => ⟨part.1.length, part.2⟩)
    Subtype.val_injective fun _ _ h => congrArg Subtype.val h

theorem selfDelimiting_str : SelfDelimiting fun text : Str => pushLen (bytes text.1) := by
  refine selfDelimiting_slice.comp (fun text : Str => ⟨bytes text.1, by simpa using text.2⟩) ?_
  intro a b h
  exact Subtype.ext (bytes_injective (congrArg Subtype.val h))

theorem selfDelimiting_uInt64 : SelfDelimiting fun n : UInt64 => Framing.bigEndian 8 n.toNat := by
  refine (selfDelimiting_bigEndian 8).comp (fun n : UInt64 => ⟨n.toNat, n.toNat_lt⟩) ?_
  intro n m h
  exact UInt64.toNat_inj.mp (congrArg Fin.val h)

theorem selfDelimiting_uInt32 : SelfDelimiting fun n : UInt32 => Framing.bigEndian 4 n.toNat := by
  refine (selfDelimiting_bigEndian 4).comp (fun n : UInt32 => ⟨n.toNat, n.toNat_lt⟩) ?_
  intro n m h
  exact UInt32.toNat_inj.mp (congrArg Fin.val h)

theorem repr_injective : Function.Injective Int.repr := by
  have hsign (n m : Nat) : n.repr ≠ "-" ++ m.repr := by
    intro h
    have hminus : '-' ∈ n.repr.toList := by simp [h]
    rw [Nat.toList_repr] at hminus
    exact absurd (Nat.isDigit_of_mem_toDigits (by decide) (by decide) hminus) (by decide)
  intro a b h
  cases a <;> cases b <;> simp only [Int.repr] at h
  · rw [Json.repr_injective h]
  · exact absurd h (hsign _ _)
  · exact absurd h.symm (hsign _ _)
  · have hdigits := congrArg String.toList h
    rw [String.toList_append, String.toList_append, List.append_cancel_left_eq] at hdigits
    rw [Nat.succ.inj (Json.repr_injective (String.toList_inj.mp hdigits))]

theorem selfDelimiting_decimalFrame : SelfDelimiting decimalFrame := by
  have hheader : SelfDelimiting fun n : Nat => bytes n.repr ++ [58] := by
    refine selfDelimiting_terminated (fun n m h => Json.repr_injective (bytes_injective h)) ?_
    intro n h
    obtain ⟨c, hc, hcolon⟩ := exists_char_of_mem_bytes (by decide) h
    rw [Nat.toList_repr] at hc
    have hdigit := Nat.isDigit_of_mem_toDigits (by decide) (by decide) hc
    rw [Char.isDigit_iff_toNat, hcolon] at hdigit
    exact absurd hdigit (by decide)
  exact hheader.framed String.utf8ByteSize bytes_injective fun a b h => by
    rw [length_bytes, length_bytes, h]

/-! ## Each framing is injective -/

theorem nul_notMem_bytes {text : String} (h : '\x00' ∉ text.toList) : 0 ∉ bytes text := by
  intro hmem
  obtain ⟨c, hc, hzero⟩ := exists_char_of_mem_bytes (by decide) hmem
  have hnul : c = '\x00' := Char.toNat_inj.mp hzero
  exact h (hnul ▸ hc)

theorem hashInput_inj {label label' : String} {parts parts' : List Slice}
    (hlabel : '\x00' ∉ label.toList) (hlabel' : '\x00' ∉ label'.toList)
    (h : hashInput label (parts.map Subtype.val) = hashInput label' (parts'.map Subtype.val)) :
    label = label' ∧ parts = parts' := by
  have hsplit : utf8 "\x00v1\x00" = 0 :: [118, 49, 0] := by decide
  simp only [hashInput, hsplit, List.append_assoc, List.cons_append, List.flatMap_map,
    List.append_cancel_left_eq] at h
  obtain ⟨hlabels, hrest⟩ := cons_inj_left (nul_notMem_bytes hlabel) (nul_notMem_bytes hlabel') h
  have hframes := @List.append_cancel_left _ [118, 49, 0] _ _ hrest
  refine ⟨bytes_injective hlabels, selfDelimiting_slice.flatMap_injective ?_ hframes⟩
  intro part hnil
  cases hnil

theorem signingInput_inj {sha256 : Bytes → {digest : Bytes // digest.length = 32}} {a b : SigningArgs}
    (hsha : Set.InjOn sha256 {a.body, b.body}) (h : signingInput sha256 a = signingInput sha256 b) :
    a = b := by
  simp only [signingInput, List.flatMap_cons, List.flatMap_nil, List.append_nil, List.append_assoc,
    List.append_cancel_left_eq] at h
  obtain ⟨htarget, h⟩ := selfDelimiting_str h
  obtain ⟨hendpoint, h⟩ := selfDelimiting_str h
  obtain ⟨hevent, h⟩ := selfDelimiting_str h
  obtain ⟨htimestamp, h⟩ := selfDelimiting_uInt64 h
  obtain ⟨hattempt, h⟩ := selfDelimiting_uInt32 h
  obtain ⟨hgeneration, h⟩ := selfDelimiting_str h
  have hbody := hsha (Set.mem_insert _ _) (Set.mem_insert_of_mem _ rfl) (Subtype.ext h)
  cases a
  cases b
  simp only [SigningArgs.mk.injEq]
  exact ⟨htarget, hendpoint, hevent, htimestamp, hattempt, hgeneration, hbody⟩

theorem deliveryEventInput_inj {a b : DeliveryArgs} (h : deliveryEventInput a = deliveryEventInput b) :
    a = b := by
  simp only [deliveryEventInput, List.flatMap_cons, List.flatMap_nil, List.append_nil,
    List.append_assoc, List.append_cancel_left_eq] at h
  obtain ⟨htenant, h⟩ := selfDelimiting_str h
  obtain ⟨htask, h⟩ := selfDelimiting_str h
  obtain ⟨hconfig, h⟩ := selfDelimiting_str h
  obtain ⟨hsequence, h⟩ := selfDelimiting_uInt64 h
  obtain ⟨hrevision, h⟩ := selfDelimiting_uInt64 h
  have hgeneration := selfDelimiting_uInt64.injective h
  cases a
  cases b
  simp only [DeliveryArgs.mk.injEq]
  exact ⟨htenant, htask, hsequence, hrevision, hconfig, hgeneration⟩

theorem callbackAuditInput_inj {a b : AuditArgs} (h : callbackAuditInput a = callbackAuditInput b) :
    a = b := by
  have hkinds : ∀ k k' : CallbackAuditKind, k.asStr = k'.asStr → k = k' := by
    intro k k' hk
    cases k <;> cases k' <;> first | rfl | exact absurd hk (by decide)
  simp only [callbackAuditInput, List.flatMap_cons, List.flatMap_nil, List.append_nil,
    List.append_assoc, List.append_cancel_left_eq] at h
  obtain ⟨hkind, h⟩ := selfDelimiting_decimalFrame h
  obtain ⟨htenant, h⟩ := selfDelimiting_decimalFrame h
  obtain ⟨htask, h⟩ := selfDelimiting_decimalFrame h
  obtain ⟨hconfig, h⟩ := selfDelimiting_decimalFrame h
  obtain ⟨hevent, h⟩ := selfDelimiting_decimalFrame h
  obtain ⟨hrevision, h⟩ := selfDelimiting_decimalFrame h
  have hattempt := selfDelimiting_decimalFrame.injective h
  cases a
  cases b
  simp only [AuditArgs.mk.injEq]
  exact ⟨hkinds _ _ hkind, htenant, htask, hconfig, hevent,
    Int64.toInt_inj.mp (repr_injective hrevision), Int64.toInt_inj.mp (repr_injective hattempt)⟩

/-! ## Captured events -/

/-- What both validators of an event leave of its fields. -/
structure CaptureArgs.Framed (a : CaptureArgs) : Prop where
  ids : ∀ id ∈ [a.identity.id, a.identity.instanceId, a.interactionId, a.peerId], '\x00' ∉ id.toList
  optionalIds : ∀ field ∈ [a.taskId, a.contextId, a.subjectId], ∀ id ∈ field,
    id ≠ "" ∧ '\x00' ∉ id.toList
  digest : '\x00' ∉ a.content.digest.toList
  parentEvent : ∀ id, a.parent = .event id → '\x00' ∉ id.toList
  parentMissing : ∀ id reason, a.parent = .missing id reason →
    '\x00' ∉ id.toList ∧ id.toList.length = 71

theorem validIdentifier_free {text : String} (h : validIdentifier text = true) :
    text ≠ "" ∧ '\x00' ∉ text.toList := by
  rw [validIdentifier, Bool.and_eq_true, Bool.and_eq_true, List.all_eq_true] at h
  obtain ⟨⟨hne, -⟩, hchars⟩ := h
  refine ⟨by simpa using hne, fun hmem => ?_⟩
  exact absurd (hchars _ hmem) (by decide)

theorem validateDigest_free {text : String} (h : validateDigest text = .ok ()) :
    '\x00' ∉ text.toList ∧ text.toList.length = 71 := by
  simp only [validateDigest, decodeDigest, Transaction.bind_eq_ok, Transaction.require_eq_ok] at h
  obtain ⟨-, ⟨-, hstart, -, ⟨hlength, hdigits⟩, -⟩, -⟩ := h
  have hparts := List.take_append_drop 7 text.toList
  rw [hstart] at hparts
  constructor
  · intro hmem
    rw [← hparts, List.mem_append] at hmem
    rcases hmem with hmem | hmem
    · exact absurd hmem (by decide)
    · exact absurd (List.all_eq_true.mp hdigits _ hmem) (by decide)
  · rw [← hparts, List.length_append, hlength]
    rfl

/-- The fields of an event that a captured stream checks. -/
def captureAccepts (e : CaptureEvent) : Bool :=
  [e.producer.identity.id, e.producer.identity.instanceId, e.interactionId, e.peerId].all
      validCaptureIdentifier &&
    [e.taskId, e.contextId, e.subjectId].all (·.all validCaptureIdentifier) &&
    (validateDigest e.content.digest).isOk && e.kind.producer = e.producer.identity.kind &&
    match e.parent with
    | .root => true
    | .event id | .missing id _ => (validateDigest id).isOk

theorem validCaptureIdentifier_free {text : String} (h : validCaptureIdentifier text = true) :
    text ≠ "" ∧ '\x00' ∉ text.toList := by
  rw [validCaptureIdentifier, Bool.and_eq_true, Bool.and_eq_true, List.all_eq_true] at h
  obtain ⟨⟨hne, -⟩, hchars⟩ := h
  refine ⟨by simpa using hne, fun hmem => ?_⟩
  exact absurd (hchars _ hmem) (by decide)

theorem framed_of_validateEvent [ContentDigest] {e : CaptureEvent} {runId : String}
    {bound : Option String} (h : validateEvent e bound = .ok ()) :
    (CaptureArgs.ofEvent runId e).Framed := by
  simp only [validateEvent, Transaction.bind_eq_ok, Transaction.require_eq_ok] at h
  obtain ⟨_, -, _, hdigest, _, ⟨hinteraction, hpeer, hid, hinstance, htask, hcontext, hsubject⟩, _,
    hparent, -⟩ := h
  refine ⟨?_, ?_, (validateDigest_free hdigest).1, ?_, ?_⟩
  · simp only [List.forall_mem_cons, List.not_mem_nil, false_imp_iff, implies_true, and_true]
    exact ⟨(validIdentifier_free hid).2, (validIdentifier_free hinstance).2,
      (validIdentifier_free hinteraction).2, (validIdentifier_free hpeer).2⟩
  · simp only [List.forall_mem_cons, List.not_mem_nil, false_imp_iff, implies_true, and_true]
    exact ⟨fun id hmem => validIdentifier_free ((Option.all_eq_true _ _).mp htask id hmem),
      fun id hmem => validIdentifier_free ((Option.all_eq_true _ _).mp hcontext id hmem),
      fun id hmem => validIdentifier_free ((Option.all_eq_true _ _).mp hsubject id hmem)⟩
  · intro id hid
    have hid : e.parent = .event id := hid
    simp only [validateParent, hid, Transaction.bind_eq_ok] at hparent
    obtain ⟨_, hvalid, -⟩ := hparent
    exact (validateDigest_free hvalid).1
  · intro id reason hid
    have hid : e.parent = .missing id reason := hid
    simp only [validateParent, hid] at hparent
    exact validateDigest_free hparent

theorem framed_of_captureAccepts {e : CaptureEvent} {runId : String} (h : captureAccepts e = true) :
    (CaptureArgs.ofEvent runId e).Framed := by
  have hok : ∀ {text : String}, (validateDigest text).isOk = true → validateDigest text = .ok () := by
    intro text htext
    cases hresult : validateDigest text with
    | error fault => simp [hresult, Except.isOk, Except.toBool] at htext
    | ok result => rfl
  simp only [captureAccepts, Bool.and_eq_true, List.all_eq_true] at h
  obtain ⟨⟨⟨⟨hids, hoptional⟩, hdigest⟩, -⟩, hparent⟩ := h
  refine ⟨fun id hid => (validCaptureIdentifier_free (hids id hid)).2,
    fun field hfield id hid => validCaptureIdentifier_free
      ((Option.all_eq_true _ _).mp (hoptional field hfield) id hid),
    (validateDigest_free (hok hdigest)).1, ?_, ?_⟩
  · intro id hid
    have hid : e.parent = .event id := hid
    rw [hid] at hparent
    exact (validateDigest_free (hok hparent)).1
  · intro id reason hid
    have hid : e.parent = .missing id reason := hid
    rw [hid] at hparent
    exact validateDigest_free (hok hparent)

theorem nul_notMem_repr (n : Nat) : '\x00' ∉ n.repr.toList := by
  intro h
  rw [Nat.toList_repr] at h
  exact absurd (Nat.isDigit_of_mem_toDigits (by decide) (by decide) h) (by decide)

theorem captureFields_free {a : CaptureArgs} (ha : a.Framed) :
    ∀ field ∈ (captureFields a).map String.toList, '\x00' ∉ field := by
  have hoptional : ∀ field ∈ [a.taskId, a.contextId, a.subjectId], '\x00' ∉ (field.getD "").toList := by
    intro field hfield
    cases field with
    | none => simp
    | some id => exact (ha.optionalIds _ hfield id rfl).2
  have hproducer : ∀ kind : ProducerKind, '\x00' ∉ (variantName (kindName kind)).toList := by
    intro kind
    cases kind <;> decide
  have hkind : ∀ kind : CaptureKind, '\x00' ∉ (variantName (captureKindName kind)).toList := by
    intro kind
    cases kind <;> decide
  have hreason : ∀ reason : CaptureGapReason, '\x00' ∉ (variantName (gapName reason)).toList := by
    intro reason
    cases reason <;> decide
  have hparent : '\x00' ∉ (parentText a.parent).toList := by
    cases hp : a.parent with
    | root => decide
    | event id => simpa [parentText] using ha.parentEvent id hp
    | missing id reason =>
      simpa [parentText] using ⟨(ha.parentMissing id reason hp).1, hreason reason⟩
  have hids := ha.ids
  simp only [List.forall_mem_cons, List.not_mem_nil, false_imp_iff, implies_true, and_true] at hids
  simp only [List.forall_mem_cons, List.not_mem_nil, false_imp_iff, implies_true, and_true]
    at hoptional
  simp only [captureFields, List.map_cons, List.map_nil, List.forall_mem_cons, List.not_mem_nil,
    false_imp_iff, implies_true, and_true]
  exact ⟨hproducer _, hids.1, hids.2.1, nul_notMem_repr _, hkind _, hids.2.2.1, hids.2.2.2,
    hoptional.1, hoptional.2.1, hoptional.2.2, hparent, ha.digest, nul_notMem_repr _⟩

theorem variantName_inj {name name' : String} (h : name.toList.head?.any Char.isLower = true)
    (h' : name'.toList.head?.any Char.isLower = true) (hnames : variantName name = variantName name') :
    name = name' := by
  have hlower : ∀ {c : Char}, c.isLower = true → c.toUpper.toLower = c := by
    intro c hc
    have hletters : ∀ n ∈ List.range' 97 26,
        (Char.ofNat n).toUpper.toLower = Char.ofNat n := by decide
    obtain ⟨hfirst, hlast⟩ := (Bool.and_eq_true _ _).mp hc
    have hfirst : 97 ≤ c.toNat := of_decide_eq_true hfirst
    have hlast : c.toNat ≤ 122 := of_decide_eq_true hlast
    rw [← Char.ofNat_toNat c]
    exact hletters c.toNat (List.mem_range'_1.mpr ⟨hfirst, Nat.lt_succ_of_le hlast⟩)
  unfold variantName at hnames
  cases hchars : name.toList with
  | nil => simp [hchars] at h
  | cons c rest =>
    cases hchars' : name'.toList with
    | nil => simp [hchars'] at h'
    | cons c' rest' =>
      simp only [hchars, hchars', String.ofList_inj, List.cons.injEq] at hnames
      simp only [hchars, hchars', List.head?_cons, Option.any_some] at h h'
      rw [← String.toList_inj, hchars, hchars', ← hlower h, ← hlower h', hnames.1, hnames.2]

/-- The three kinds of parents are told apart by their first letter, and the reason of a missing one
stands behind a digest of a fixed length. -/
theorem parentText_inj {a b : CaptureArgs} (ha : a.Framed) (hb : b.Framed)
    (h : parentText a.parent = parentText b.parent) : a.parent = b.parent := by
  have htexts := congrArg String.toList h
  cases hpa : a.parent with
  | root =>
    cases hpb : b.parent with
    | root => rfl
    | event id => simp [hpa, hpb, parentText] at htexts
    | missing id reason => simp [hpa, hpb, parentText] at htexts
  | event id =>
    cases hpb : b.parent with
    | root => simp [hpa, hpb, parentText] at htexts
    | event id' =>
      simp only [hpa, hpb, parentText, String.toList_append, List.append_cancel_left_eq,
        String.toList_inj] at htexts
      rw [htexts]
    | missing id' reason => simp [hpa, hpb, parentText] at htexts
  | missing id reason =>
    cases hpb : b.parent with
    | root => simp [hpa, hpb, parentText] at htexts
    | event id' => simp [hpa, hpb, parentText] at htexts
    | missing id' reason' =>
      simp only [hpa, hpb, parentText, String.toList_append, List.append_assoc,
        List.append_cancel_left_eq] at htexts
      obtain ⟨hid, hreason⟩ := List.append_inj htexts
        ((ha.parentMissing id reason hpa).2.trans (hb.parentMissing id' reason' hpb).2.symm)
      have hreasons : reason = reason' := by
        have hnames := String.toList_inj.mp (List.append_cancel_left hreason)
        cases reason <;> cases reason' <;> first | rfl | exact absurd hnames (by decide)
      rw [String.toList_inj.mp hid, hreasons]

theorem getD_inj {a b : Option String} (ha : ∀ id ∈ a, id ≠ "") (hb : ∀ id ∈ b, id ≠ "")
    (h : a.getD "" = b.getD "") : a = b := by
  cases a with
  | none =>
    cases b with
    | none => rfl
    | some id => exact absurd h.symm (hb id rfl)
  | some id =>
    cases b with
    | none => exact absurd h (ha id rfl)
    | some id' => exact congrArg some h

theorem captureInput_inj {a b : CaptureArgs} (ha : a.Framed) (hb : b.Framed)
    (h : captureInput a = captureInput b) : a = b := by
  have htexts := congrArg String.toList (bytes_injective h)
  have hsep : "\x00".toList = ['\x00'] := rfl
  have hdomain : '\x00' ∉ "full-matrix-event/v1".toList := by decide
  rw [String.toList_intercalate, String.toList_intercalate, hsep, List.map_cons, List.map_cons,
    List.map_cons, List.map_cons] at htexts
  generalize "full-matrix-event/v1".toList = domain at hdomain htexts
  have hlengths : ((captureFields a).map String.toList).length =
      ((captureFields b).map String.toList).length := by simp [captureFields]
  obtain ⟨-, hrun, hfields⟩ := @intercalate_inj _ _ [domain] [domain] _ _ _ _ (by simpa using hdomain)
    (by simpa using hdomain) (captureFields_free ha) (captureFields_free hb) rfl hlengths htexts
  have hfields := List.map_injective_iff.mpr (fun _ _ => String.toList_inj.mp) hfields
  simp only [captureFields, List.cons.injEq, and_true] at hfields
  obtain ⟨hproducer, hid, hinstance, hsequence, hkind, hinteraction, hpeer, htask, hcontext,
    hsubject, hparent, hdigest, hlength⟩ := hfields
  have hoptional : ∀ field ∈ [a.taskId, a.contextId, a.subjectId], ∀ id ∈ field, id ≠ "" :=
    fun field hfield id hid => (ha.optionalIds field hfield id hid).1
  have hoptional' : ∀ field ∈ [b.taskId, b.contextId, b.subjectId], ∀ id ∈ field, id ≠ "" :=
    fun field hfield id hid => (hb.optionalIds field hfield id hid).1
  have htask := getD_inj (hoptional _ (by simp)) (hoptional' _ (by simp)) htask
  have hcontext := getD_inj (hoptional _ (by simp)) (hoptional' _ (by simp)) hcontext
  have hsubject := getD_inj (hoptional _ (by simp)) (hoptional' _ (by simp)) hsubject
  have hparent := parentText_inj ha hb hparent
  have hidentity : a.identity = b.identity := by
    rw [ProducerIdentity.mk.injEq]
    have hnames := variantName_inj (by cases a.identity.kind <;> rfl)
      (by cases b.identity.kind <;> rfl) hproducer
    exact ⟨kindName_injective hnames, hid, hinstance⟩
  have hcontent : a.content = b.content := by
    rw [CapturedContent.mk.injEq]
    exact ⟨hdigest, Json.repr_injective hlength⟩
  have hlower : ∀ kind : CaptureKind, (captureKindName kind).toList.head?.any Char.isLower = true := by
    intro kind
    cases kind <;> rfl
  have hkinds := captureKindName_injective (variantName_inj (hlower a.kind) (hlower b.kind) hkind)
  cases a
  cases b
  rw [CaptureArgs.mk.injEq]
  exact ⟨String.toList_inj.mp hrun, hidentity, Json.repr_injective hsequence, hkinds, hinteraction,
    hpeer, htask, hcontext, hsubject, hparent, hcontent⟩

/-! ## All framings together -/

/-- The arguments of one of the functions. -/
inductive Preimage where
  | hashRaw (label : String) (parts : List Slice)
  | signing (args : SigningArgs)
  | deliveryEvent (args : DeliveryArgs)
  | callbackAudit (args : AuditArgs)
  | captureEvent (args : CaptureArgs)

inductive Domain where
  | hashRaw | signing | deliveryEvent | callbackAudit | captureEvent

def Domain.text : Domain → Bytes
  | .hashRaw => bytes "SMESH-A2A\x00"
  | .signing => bytes "smesh-callback-signature/v1"
  | .deliveryEvent => bytes "smesh-callback/v1"
  | .callbackAudit => bytes "smesh-callback-audit/v1"
  | .captureEvent => bytes "full-matrix-event/v1"

namespace Preimage

def domain : Preimage → Domain
  | .hashRaw _ _ => .hashRaw
  | .signing _ => .signing
  | .deliveryEvent _ => .deliveryEvent
  | .callbackAudit _ => .callbackAudit
  | .captureEvent _ => .captureEvent

/-- What is hashed or signed. -/
def input (sha256 : Bytes → {digest : Bytes // digest.length = 32}) : Preimage → Bytes
  | .hashRaw label parts => hashInput label (parts.map Subtype.val)
  | .signing args => signingInput sha256 args
  | .deliveryEvent args => deliveryEventInput args
  | .callbackAudit args => callbackAuditInput args
  | .captureEvent args => captureInput args

/-- The labels of the replay are texts without the separator; events come from one of the two
validators. -/
def Accepted [ContentDigest] : Preimage → Prop
  | .hashRaw label _ => '\x00' ∉ label.toList
  | .captureEvent args => ∃ e : CaptureEvent, args = .ofEvent args.runId e ∧
      (validateEvent e (some args.runId) = .ok () ∨ captureAccepts e = true)
  | _ => True

/-- The bodies that are hashed on their own. -/
def bodies : Preimage → Set Bytes
  | .signing args => {args.body}
  | _ => ∅

end Preimage

theorem Domain.text_inj {d d' : Domain} (h : d.text <+: d'.text) : d = d' := by
  cases d <;> cases d' <;> first | rfl | exact absurd h (by decide +kernel)

theorem Preimage.starts_with_domain (sha256 : Bytes → {digest : Bytes // digest.length = 32})
    (p : Preimage) : p.domain.text <+: p.input sha256 := by
  cases p with
  | hashRaw label parts =>
    rw [input, hashInput, List.append_assoc, List.append_assoc]
    exact List.prefix_append ..
  | signing args =>
    simp only [input, signingInput, List.append_assoc]
    exact List.prefix_append ..
  | deliveryEvent args =>
    simp only [input, deliveryEventInput, List.append_assoc]
    exact List.prefix_append ..
  | callbackAudit args =>
    simp only [input, callbackAuditInput, List.append_assoc]
    exact List.prefix_append ..
  | captureEvent args =>
    rw [input, captureInput, String.intercalate_cons_cons, String.append_assoc, bytes_append]
    exact List.prefix_append ..

/-- What two functions, labels or lists of arguments hash or sign is never the same. -/
theorem framings_injective [ContentDigest] (sha256 : Bytes → {digest : Bytes // digest.length = 32})
    (p q : Preimage) (hp : p.Accepted) (hq : q.Accepted)
    (hsha : Set.InjOn sha256 (p.bodies ∪ q.bodies)) (h : p.input sha256 = q.input sha256) :
    p = q := by
  have hdomain : p.domain = q.domain := by
    rcases List.prefix_or_prefix_of_prefix (p.starts_with_domain sha256)
      (h ▸ q.starts_with_domain sha256) with hle | hle
    · exact Domain.text_inj hle
    · exact (Domain.text_inj hle).symm
  have hframed : ∀ {args : CaptureArgs}, (Preimage.captureEvent args).Accepted → args.Framed := by
    rintro args ⟨e, hargs, hvalid | hvalid⟩
    · exact hargs ▸ framed_of_validateEvent hvalid
    · exact hargs ▸ framed_of_captureAccepts hvalid
  cases p with
  | hashRaw label parts =>
      cases q with
      | hashRaw label' parts' =>
          obtain ⟨rfl, rfl⟩ := hashInput_inj hp hq h
          rfl
      | _ => cases hdomain
  | signing args =>
      cases q with
      | signing args' => rw [signingInput_inj hsha h]
      | _ => cases hdomain
  | deliveryEvent args =>
      cases q with
      | deliveryEvent args' => rw [deliveryEventInput_inj h]
      | _ => cases hdomain
  | callbackAudit args =>
      cases q with
      | callbackAudit args' => rw [callbackAuditInput_inj h]
      | _ => cases hdomain
  | captureEvent args =>
      cases q with
      | captureEvent args' => rw [captureInput_inj (hframed hp) (hframed hq) h]
      | _ => cases hdomain

def noDigest (_ : Bytes) : {digest : Bytes // digest.length = 32} := ⟨List.replicate 32 0, rfl⟩

def sampleSigning (attempt : UInt32) : SigningArgs :=
  { target := ⟨"/hook", by decide⟩, endpointId := ⟨"endpoint", by decide⟩,
    eventId := ⟨"event", by decide⟩, timestamp := 7, attempt, keyGeneration := ⟨"key", by decide⟩,
    body := [] }

def sampleEvent : Replay.CaptureEvent :=
  { eventId := "", sequence := 0, producer := ⟨⟨.tool, "tool", "one"⟩, 0⟩, kind := .toolCall,
    interactionId := "call", peerId := "peer", taskId := none, contextId := none, subjectId := none,
    parent := .root,
    content := ⟨"sha256:0000000000000000000000000000000000000000000000000000000000000000", 0⟩ }

/-- Two attempts of one delivery are signed over different bytes, and a captured event is hashed
over other bytes than any parts under a label. -/
theorem inputs_told_apart :
    (Preimage.signing (sampleSigning 1)).input noDigest ≠
      (Preimage.signing (sampleSigning 2)).input noDigest ∧
    (Preimage.captureEvent (.ofEvent "run" sampleEvent)).input noDigest ≠
      (Preimage.hashRaw "capture" [⟨[1], by decide⟩]).input noDigest := by
  constructor
  · intro h
    have hbodies : Set.InjOn noDigest
        ((Preimage.signing (sampleSigning 1)).bodies ∪
          (Preimage.signing (sampleSigning 2)).bodies) := by
      rintro a (rfl | ha) b (rfl | hb) -
      · rfl
      · exact hb.symm
      · exact ha
      · exact ha.trans hb.symm
    have hsame := @framings_injective checksumDigest noDigest (.signing (sampleSigning 1))
      (.signing (sampleSigning 2)) trivial trivial hbodies h
    have hattempts := congrArg SigningArgs.attempt (Preimage.signing.inj hsame)
    exact absurd hattempts (by decide)
  · intro h
    have hcaptured : captureAccepts sampleEvent = true := by decide +kernel
    have hlabel : '\x00' ∉ "capture".toList := by decide
    have hbodies : Set.InjOn noDigest
        ((Preimage.captureEvent (.ofEvent "run" sampleEvent)).bodies ∪
          (Preimage.hashRaw "capture" [⟨[1], by decide⟩]).bodies) := by
      rintro a (ha | ha) <;> exact ha.elim
    cases @framings_injective checksumDigest noDigest
      (.captureEvent (.ofEvent "run" sampleEvent)) (.hashRaw "capture" [⟨[1], by decide⟩])
      ⟨sampleEvent, rfl, .inr hcaptured⟩ hlabel hbodies h

/-- A label with the separator and the length of a part in it. -/
theorem label_takes_over_part :
    "a" ≠ "a\x00v1\x00\x00\x00\x00\x00\x00\x00\x00\x04" ∧
    hashInput "a" [utf8 "\x00v1\x00"] =
      hashInput "a\x00v1\x00\x00\x00\x00\x00\x00\x00\x00\x04" [] := by
  decide +kernel

end SmeshDurable.Identity
