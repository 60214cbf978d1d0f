import SmeshDurable.Protocol.RefineRecovery

/-!
# Runs of the store

Every durable operation is a sequence of enabled changes, so the invariant holds in every
reachable state, and a relation that each change respects holds between any two states of
a run.
-/

namespace SmeshDurable

open Transaction Relation

variable [ContentDigest] {cfg : Config} {s s' : Store} {now : Int}

omit [ContentDigest] in
theorem toOption_map_snd {ε α β : Type} {result : Except ε (α × β)} {b : β}
    (h : result.toOption.map Prod.snd = some b) : ∃ a, result = .ok (a, b) := by
  cases result with
  | error => cases h
  | ok pair =>
    obtain rfl := Option.some.inj h
    exact ⟨pair.1, rfl⟩

omit [ContentDigest] in
theorem toOption_eq_some {ε α : Type} {result : Except ε α} {a : α}
    (h : result.toOption = some a) : result = .ok a := by
  cases result with
  | error => cases h
  | ok b => rw [Option.some.inj h]

/-- A change and the decision recorded with it. -/
theorem changes_with_decisions {change : Change} (hordinary : change.ordinary = true)
    (henabled : change.Enabled cfg now s)
    (hdecisions : (change.run cfg now s).decisions = s.decisions)
    (decisions : List AuthorizationAuditInput) :
    ReflTransGen (OrdinaryChanges cfg now) s
      { change.run cfg now s with decisions := s.decisions ++ decisions } := by
  rw [← hdecisions]
  exact .head ⟨change, hordinary, henabled, rfl⟩ (changes_decisions decisions)

/-- The operation stores no frame, outcome or task that a worker computed. -/
def Operation.ordinary : Operation → Bool
  | appendStreamProgress .. | completeReceive .. | completeLoopbackOutcome ..
  | completeCanceledReceive .. | commitDelivery .. => false
  | _ => true

/-- An operation that stores nothing of a worker is a sequence of changes that store nothing
of one. -/
theorem Operation.refines_ordinary {op : Operation} (hop : op.ordinary = true)
    (hinv : Inv s op.now) (h : op.exec cfg s = some s') :
    ReflTransGen (OrdinaryChanges cfg op.now) s s' := by
  cases op with
  | appendStreamProgress | completeReceive | completeLoopbackOutcome | completeCanceledReceive
  | commitDelivery => cases hop
  | admitSendMessage o auth command =>
    obtain ⟨outcome, h⟩ := toOption_map_snd h
    rcases admitSendMessage_spec h with ⟨-, rfl⟩ | ⟨_, _, decisions, henabled, -, rfl⟩
    · exact .refl
    · exact changes_with_decisions rfl henabled rfl decisions
  | admitContinuation o auth command =>
    obtain ⟨outcome, h⟩ := toOption_map_snd h
    rcases admitContinuation_spec h with ⟨_, decisions, -, rfl⟩ |
      ⟨_, _, _, decisions, henabled, -, -, rfl⟩
    · exact changes_decisions decisions
    · exact changes_with_decisions rfl henabled rfl decisions
  | replayAuthorized auth request streaming now =>
    obtain ⟨outcome, h⟩ := toOption_map_snd h
    rcases replayAuthorized_spec h with ⟨-, rfl⟩ | ⟨_, decisions, -, -, -, -, -, rfl⟩
    · exact .refl
    · exact changes_decisions decisions
  | claimOutbox owner now duration entropy messageId =>
    obtain ⟨claimed, h⟩ := toOption_map_snd h
    cases claimOutbox_spec cfg hinv h with
    | busy => exact .refl
    | idle => exact .refl
    | leased d owner token leaseUntil _ _ henabled => exact .single ⟨_, rfl, henabled, rfl⟩
    | released d owner token leaseUntil _ _ _ henabled => exact .single ⟨_, rfl, henabled, rfl⟩
    | deadLettered row d attempts _ henabled => exact .single ⟨_, rfl, henabled, rfl⟩
  | finishOutboxAttempt lease disposition now entropy messageId =>
    obtain ⟨outcome, h⟩ := toOption_map_snd h
    cases finishOutboxAttempt_spec cfg hinv h with
    | stale => exact .refl
    | released d token _ _ henabled => exact .single ⟨_, rfl, henabled, rfl⟩
    | retried d attempts error availableAt _ _ henabled =>
      exact .single ⟨_, rfl, henabled, rfl⟩
    | deadLettered row d attempts _ _ henabled => exact .single ⟨_, rfl, henabled, rfl⟩
  | beginReceive envelope owner now duration entropy =>
    obtain ⟨admission, h⟩ := toOption_map_snd h
    cases beginReceive_spec cfg hinv h with
    | busy => exact .refl
    | replayed => exact .refl
    | accepted d inbox lease _ _ henabled => exact .single ⟨_, rfl, henabled, rfl⟩
    | reclaimed d old inbox lease _ _ _ henabled => exact .single ⟨_, rfl, henabled, rfl⟩
  | requestCancellation decoded auth taskId now =>
    obtain ⟨answer, h⟩ := toOption_map_snd h
    obtain ⟨d, -, -, heffect⟩ := requestCancellation_spec cfg hinv h
    cases heffect with
    | awaited inbox decisions => exact changes_decisions decisions
    | requested inbox decisions _ henabled =>
      exact changes_with_decisions rfl henabled rfl decisions
    | canceled row decisions henabled =>
      exact changes_with_decisions rfl henabled rfl decisions
  | recoverOrphanedTasks choices now =>
    exact recoverOrphanedTasks_spec hinv (toOption_eq_some h)

/-- The operation stores an outcome of a dispatch. -/
def Operation.completes (d : Dispatch) (kind : CompletionKind) (events : List MeshEvent)
    (termination : DurableReceiverTermination) : Operation → Prop
  | completeReceive lease stored _ => d.tenantScope = lease.tenantScope ∧
      d.dispatchId = lease.dispatchId ∧ kind = .plain ∧ events = stored ∧ termination = .success
  | completeLoopbackOutcome lease stored ended _ => d.tenantScope = lease.tenantScope ∧
      d.dispatchId = lease.dispatchId ∧ kind = .loopback ∧ events = stored ∧ termination = ended
  | completeCanceledReceive lease stored _ => d.tenantScope = lease.tenantScope ∧
      d.dispatchId = lease.dispatchId ∧ kind = .canceled ∧ events = stored ∧ termination = .success
  | _ => False

/-- What an operation that stores something of a worker does: nothing, or the one change that
stores it. -/
inductive WorkerEffect (cfg : Config) (s : Store) : Operation → Store → Prop
  | none (op : Operation) : WorkerEffect cfg s op s
  | progress (o decoded : HashOrder) (d : Dispatch) (transcript : TranscriptRow)
      (frame : StreamResponse) (now : Int)
      (henabled : (Change.progress o decoded d transcript frame).Enabled cfg now s) :
      WorkerEffect cfg s
        (.appendStreamProgress o decoded d.tenantScope d.dispatchId frame now)
        ((Change.progress o decoded d transcript frame).run cfg now s)
  | complete (op : Operation) (d : Dispatch) (inbox : InboxRow) (kind : CompletionKind)
      (events : List MeshEvent) (termination : DurableReceiverTermination)
      (hop : op.completes d kind events termination)
      (henabled : (Change.complete d inbox kind events termination).Enabled cfg op.now s) :
      WorkerEffect cfg s op
        ((Change.complete d inbox kind events termination).run cfg op.now s)
  | deliver (o decoded : HashOrder) (row : TaskRow) (d : Dispatch) (attempts : List AttemptRow)
      (lease : OutboxLease) (task : Task) (result : SendMessageResponse)
      (frames : List StreamResponse) (now : Int) (hheld : d.heldBy lease = true)
      (henabled : (Change.deliver o decoded row d attempts task result frames).Enabled cfg now s) :
      WorkerEffect cfg s (.commitDelivery o decoded lease task result frames now)
        ((Change.deliver o decoded row d attempts task result frames).run cfg now s)

theorem Operation.worker_effect {op : Operation} (hop : op.ordinary = false)
    (hinv : Inv s op.now) (h : op.exec cfg s = some s') : WorkerEffect cfg s op s' := by
  cases op with
  | appendStreamProgress o decoded tenantScope dispatchId frame now =>
    obtain ⟨shown, h⟩ := toOption_map_snd h
    rcases appendStreamProgress_spec cfg hinv h with ⟨rfl, -⟩ |
      ⟨d, transcript, rfl, rfl, henabled, rfl⟩
    · exact .none _
    · exact .progress o decoded d transcript frame now henabled
  | completeReceive lease events now =>
    obtain ⟨u, h⟩ := toOption_map_snd h
    obtain ⟨d, inbox, htenant, hid, -, henabled, rfl⟩ := completeReceiveInner_spec cfg h
    exact .complete _ d inbox .plain events .success ⟨htenant, hid, rfl, rfl, rfl⟩ henabled
  | completeLoopbackOutcome lease events termination now =>
    obtain ⟨u, h⟩ := toOption_map_snd h
    obtain ⟨d, inbox, htenant, hid, -, henabled, rfl⟩ := completeReceiveInner_spec cfg h
    exact .complete _ d inbox .loopback events termination ⟨htenant, hid, rfl, rfl, rfl⟩ henabled
  | completeCanceledReceive lease events now =>
    obtain ⟨u, h⟩ := toOption_map_snd h
    obtain ⟨d, inbox, htenant, hid, -, henabled, rfl⟩ := completeReceiveInner_spec cfg h
    exact .complete _ d inbox .canceled events .success ⟨htenant, hid, rfl, rfl, rfl⟩ henabled
  | commitDelivery o decoded lease task result frames now =>
    obtain ⟨outcome, h⟩ := toOption_map_snd h
    rcases commitDelivery_spec cfg hinv h with ⟨-, rfl, -⟩ |
      ⟨row, d, attempts, hheld, -, -, henabled, rfl⟩
    · exact .none _
    · exact .deliver o decoded row d attempts lease task result frames now hheld henabled
  | _ => cases hop

/-- Every durable operation is a sequence of enabled changes. -/
theorem Operation.refines {op : Operation} (hinv : Inv s op.now)
    (h : op.exec cfg s = some s') : ReflTransGen (Changes cfg op.now) s s' := by
  cases hop : op.ordinary with
  | true => exact OrdinaryChanges.changes (op.refines_ordinary hop hinv h)
  | false =>
    cases op.worker_effect hop hinv h with
    | none => exact .refl
    | progress _ _ _ _ _ _ henabled => exact .single ⟨_, henabled, rfl⟩
    | complete _ _ _ _ _ _ _ henabled => exact .single ⟨_, henabled, rfl⟩
    | deliver _ _ _ _ _ _ _ _ _ _ _ henabled => exact .single ⟨_, henabled, rfl⟩

theorem Inv.empty : Inv Store.empty now := by
  have htasks : ∀ row, row ∉ Store.empty.tasks := fun _ => List.not_mem_nil
  have hdispatches : ∀ d, d ∉ Store.empty.dispatches := fun _ => List.not_mem_nil
  exact ⟨⟨List.nodup_nil, List.nodup_nil, List.nodup_nil, List.nodup_nil,
    fun d hd => absurd hd (hdispatches d)⟩, fun row hrow => absurd hrow (htasks row),
    fun d hd => absurd hd (hdispatches d), fun d hd => absurd hd (hdispatches d),
    fun d hd => absurd hd (hdispatches d), fun row hrow => absurd hrow (htasks row)⟩

/-- One step of the system is a sequence of changes; a failed operation makes none. -/
theorem next_changes {op : Operation} (hinv : Inv s now) (htime : now ≤ op.now) :
    ReflTransGen (Changes cfg op.now) s ((system cfg).next s op) := by
  show ReflTransGen _ s ((op.exec cfg s).getD s)
  cases hexec : op.exec cfg s with
  | none => exact .refl
  | some s' => exact op.refines (hinv.mono htime) hexec

theorem next_inv (s : Store) (now : Int) (op : Operation) (hinv : Inv s now)
    (htime : now ≤ op.now) : Inv ((system cfg).next s op) op.now :=
  (hinv.mono htime).changes (next_changes hinv htime)

variable {allowed : Store → Operation → Prop} {t : Int}

theorem Inv.run (hinv : Inv s t) (hrun : (system cfg).Run allowed s t s' now) : Inv s' now :=
  hrun.invariant (fun s t op hinv htime _ => next_inv s t op hinv htime) hinv

/-- Every reachable state satisfies the invariant. -/
theorem ReachableBy.inv (h : ReachableBy cfg allowed s now) : Inv s now := by
  obtain ⟨start, hrun⟩ := h
  exact Inv.empty.run hrun

/-- A reflexive and transitive relation that every enabled change respects holds along every
run. -/
theorem relates_of_changes {Rel : Store → Store → Prop} (hrefl : ∀ s, Rel s s)
    (htrans : ∀ a b c, Rel a b → Rel b c → Rel a c)
    (hchange : ∀ (change : Change) s now, Inv s now → change.Enabled cfg now s →
      Rel s (change.run cfg now s))
    (hinv : Inv s t) (hrun : (system cfg).Run allowed s t s' now) : Rel s s' := by
  refine hrun.relates hrefl htrans (fun s t op hinv htime _ => next_inv s t op hinv htime)
    (fun s t op hinv htime _ => ?_) hinv
  have hchanges : ReflTransGen (Changes cfg op.now) s _ := next_changes hinv htime
  have hinv' := hinv.mono htime
  generalize (system cfg).next s op = next at hchanges ⊢
  induction hchanges with
  | refl => exact hrefl s
  | tail hbefore hstep ih =>
    obtain ⟨change, henabled, rfl⟩ := hstep
    exact htrans _ _ _ ih (hchange change _ _ (hinv'.changes hbefore) henabled)

/-- What has to be shown of a property to find it in every state of a run of allowed
operations. -/
structure Preserved (cfg : Config) (allowed : Store → Operation → Prop) (P : Store → Prop) :
    Prop where
  ordinary : ∀ (change : Change) s now, Inv s now → change.ordinary = true →
    change.Enabled cfg now s → P s → P (change.run cfg now s)
  worker : ∀ s op s', Inv s op.now → allowed s op → WorkerEffect cfg s op s' → P s → P s'

theorem Preserved.next {P : Store → Prop} (h : Preserved cfg allowed P) {op : Operation}
    (hinv : Inv s t) (htime : t ≤ op.now) (hallowed : allowed s op) (hs : P s) :
    P ((system cfg).next s op) := by
  have hinv' := hinv.mono htime
  show P ((op.exec cfg s).getD s)
  cases hexec : op.exec cfg s with
  | none => exact hs
  | some s' =>
    cases hop : op.ordinary with
    | false => exact h.worker s op s' hinv' hallowed (op.worker_effect hop hinv' hexec) hs
    | true =>
      have hchanges := op.refines_ordinary hop hinv' hexec
      show P s'
      clear hexec
      induction hchanges with
      | refl => exact hs
      | tail hbefore hstep ih =>
        obtain ⟨change, hordinary, henabled, rfl⟩ := hstep
        exact h.ordinary change _ _ (hinv'.changes (OrdinaryChanges.changes hbefore))
          hordinary henabled ih

theorem Preserved.run {P : Store → Prop} (h : Preserved cfg allowed P) (hinv : Inv s t)
    (hrun : (system cfg).Run allowed s t s' now) (hs : P s) : P s' := by
  have hstep : ∀ s t (op : Operation), Inv s t ∧ P s → t ≤ op.now → allowed s op →
      Inv ((system cfg).next s op) op.now ∧ P ((system cfg).next s op) := by
    intro s t op hstate htime hallowed
    exact ⟨next_inv s t op hstate.1 htime, h.next hstate.1 htime hallowed hstate.2⟩
  have hboth : Inv s' now ∧ P s' := hrun.invariant hstep ⟨hinv, hs⟩
  exact hboth.2

theorem Preserved.reachable {P : Store → Prop} (h : Preserved cfg allowed P)
    (hempty : P Store.empty) (hreachable : ReachableBy cfg allowed s now) : P s := by
  obtain ⟨start, hrun⟩ := hreachable
  exact h.run Inv.empty hrun hempty

/-- The state after allowed operations that were called in the order of their clocks is
reachable, at the clock of the last one. -/
theorem reachableBy_foldl (cfg : Config) (ops : List Operation)
    (hsorted : (ops.map Operation.now).Pairwise (· ≤ ·))
    (hallowed : (system cfg).Permits allowed Store.empty ops) :
    ∃ start, ReachableBy cfg allowed (ops.foldl (system cfg).next Store.empty)
      (ops.foldl (fun _ op => op.now) start) := by
  obtain ⟨start, hstart⟩ : ∃ start, ∀ op ∈ ops, start ≤ op.now := by
    cases ops with
    | nil => exact ⟨0, fun op hop => absurd hop List.not_mem_nil⟩
    | cons op rest =>
      rw [List.map_cons, List.pairwise_cons] at hsorted
      refine ⟨op.now, fun x hx => ?_⟩
      rcases List.mem_cons.mp hx with rfl | hx
      · exact le_rfl
      · exact hsorted.1 _ (List.mem_map_of_mem hx)
  exact ⟨start, start, Clocked.Run.foldl ops hsorted hstart hallowed⟩

theorem reachable_foldl (cfg : Config) (ops : List Operation)
    (hsorted : (ops.map Operation.now).Pairwise (· ≤ ·)) :
    ∃ start, Reachable cfg (ops.foldl (system cfg).next Store.empty)
      (ops.foldl (fun _ op => op.now) start) :=
  reachableBy_foldl cfg ops hsorted (Clocked.permits_of_forall fun _ _ => trivial)

/-! ## A sample task

One local task and its first message, to run the operations on. -/

def sampleConfig : Config where
  defaultScope := trustedSingleTenantScope
  defaultAccount := "local"
  maxTasks := 8
  defaultScope_valid := by decide
  defaultAccount_valid := by decide

def sampleMessage : Message :=
  { messageId := "m-1", contextId := none, taskId := none, role := .user,
    parts := [Part.ofText "hello"], metadata := none, extensions := none,
    referenceTaskIds := none }

def sampleTask : Task :=
  { id := "t-1", contextId := "c-1",
    status := { state := .submitted, message := none, timestamp := none },
    artifacts := none, history := some [sampleMessage], metadata := none }

def sampleAdmission (streaming : Bool) : SendMessageAdmission :=
  { request := { message := sampleMessage, metadata := none }, streaming, task := sampleTask,
    originalResult := .task sampleTask, maxTextBytes := 1024, now := 0, maxAttempts := 2 }

def sampleRequest : MeshRequest :=
  { protocol := "a2a-v1", taskId := "t-1", contextId := "c-1", text := "hello" }

/-- The admission of the sample task at instant 0 and the claim of its dispatch at instant 1,
for ten milliseconds. -/
def sampleClaimed (streaming : Bool) : List Operation :=
  [.admitSendMessage .sorted none (sampleAdmission streaming),
    .claimOutbox "worker" 1 10 [] "dead-1"]

attribute [local instance] checksumDigest

/-- The envelope of the sample dispatch. -/
def sampleEnvelope : DurableDispatchEnvelope :=
  { tenantScope := trustedSingleTenantScope
    dispatchId := dispatchIdentity trustedSingleTenantScope "m-1"
    payloadDigest := textDigest sampleRequest.encode
    request := sampleRequest }

/-- The sample dispatch claimed and accepted by a receiver at instant 2, for eight
milliseconds. -/
def sampleAccepted (streaming : Bool) : List Operation :=
  sampleClaimed streaming ++ [.beginReceive sampleEnvelope "receiver" 2 8 []]

/-- The execution lease of the accepted sample dispatch. -/
def sampleReceiverLease : ReceiverLease :=
  { tenantScope := trustedSingleTenantScope, taskId := "t-1",
    dispatchId := dispatchIdentity trustedSingleTenantScope "m-1",
    payloadDigest := textDigest sampleRequest.encode, senderAttemptNo := 1,
    senderLeaseToken := claimToken (dispatchIdentity trustedSingleTenantScope "m-1") "worker" 1 [],
    leaseOwner := "receiver",
    leaseToken := claimToken (dispatchIdentity trustedSingleTenantScope "m-1") "receiver" 2 [],
    leaseEpoch := 1, leaseUntil := 10 }

/-- The sample task completed with a reply. -/
def sampleCompleted (reply : String) : Task :=
  { sampleTask with
    status :=
      { state := .completed
        message := some { sampleMessage with messageId := "r-1", role := .agent,
                                             parts := [Part.ofText reply] }
        timestamp := none } }

/-- The lease of the claimed sample dispatch. -/
def sampleLease : OutboxLease :=
  { tenantScope := trustedSingleTenantScope, outboxId := 1,
    dispatchId := dispatchIdentity trustedSingleTenantScope "m-1", taskId := "t-1",
    attemptNo := 1, maxAttempts := 2, leaseOwner := "worker",
    leaseToken := claimToken (dispatchIdentity trustedSingleTenantScope "m-1") "worker" 1 [],
    leaseUntil := 11, request := sampleRequest, ratificationRequired := false }

/-- The delivery of the completed sample task at instant 2. -/
def sampleDelivery (reply : String) : Operation :=
  .commitDelivery .sorted .sorted sampleLease (sampleCompleted reply)
    (.task (sampleCompleted reply)) [.task sampleTask, statusFrame (sampleCompleted reply)] 2

/-- A delivery of the sample task as one of another context. -/
def elsewhereDelivery (now : Int) : Operation :=
  let task := { sampleCompleted "done" with contextId := "c-2" }
  .commitDelivery .sorted .sorted sampleLease task (.task task)
    [.task { sampleTask with contextId := "c-2" }, statusFrame task] now

/-- The store after the given operations. -/
def sampleStore (ops : List Operation) : Store :=
  ops.foldl (system sampleConfig).next Store.empty

theorem sampleStore_reachable (ops : List Operation) (now : Int)
    (hsorted : (ops.map Operation.now).Pairwise (· ≤ ·))
    (hnow : ops.getLast?.map Operation.now = some now) :
    Reachable sampleConfig (sampleStore ops) now := by
  obtain ⟨start, hreachable⟩ := reachable_foldl sampleConfig ops hsorted
  have hclock : ∀ (ops : List Operation) (start : Int),
      ops.foldl (fun _ op => op.now) start = (ops.getLast?.map Operation.now).getD start := by
    intro ops start
    cases hlast : ops.getLast? with
    | none => rw [List.getLast?_eq_none_iff.mp hlast]; rfl
    | some op =>
      obtain ⟨rest, rfl⟩ := List.getLast?_eq_some_iff.mp hlast
      simp
  rwa [hclock, hnow] at hreachable

/-- More operations after the given ones. -/
theorem sampleStore_run (ops later : List Operation) (t : Int)
    (hsorted : (later.map Operation.now).Pairwise (· ≤ ·)) (hstart : ∀ op ∈ later, t ≤ op.now) :
    (system sampleConfig).Run (fun _ _ => True) (sampleStore ops) t (sampleStore (ops ++ later))
      (later.foldl (fun _ op => op.now) t) := by
  rw [sampleStore, sampleStore, List.foldl_append]
  exact Clocked.Run.foldl later hsorted hstart (Clocked.permits_of_forall fun _ _ => trivial)

/-- A successful operation leads to the state it returns. -/
theorem sampleStore_exec {ops : List Operation} {op : Operation}
    (h : (op.exec sampleConfig (sampleStore ops)).isSome = true) :
    op.exec sampleConfig (sampleStore ops) = some (sampleStore (ops ++ [op])) := by
  obtain ⟨s', hs'⟩ := Option.isSome_iff_exists.mp h
  have hnext : sampleStore (ops ++ [op]) = (op.exec sampleConfig (sampleStore ops)).getD
      (sampleStore ops) := by
    rw [sampleStore, List.foldl_append]
    rfl
  rw [hnext, hs', Option.getD_some]

end SmeshDurable
