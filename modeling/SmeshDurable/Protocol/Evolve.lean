import SmeshDurable.Protocol.Runs

/-!
# How rows evolve

What stays and what grows along a run: a dispatch keeps its identity, its payload and its
admission, a bound result is never replaced, a settled dispatch stays settled, a completed
receiver row is final, a stream only grows and is fixed once it is closed, and the event log
of a task only grows until the task is terminal. Each change respects this, so every run
does.
-/

namespace SmeshDurable

/-! ## Rows -/

/-- The columns of a record that admission writes for good. -/
structure RecordRow.SameAdmission (record record' : RecordRow) : Prop where
  requestDigest : record'.requestDigest = record.requestDigest
  admissionResult : record'.admissionResult = record.admissionResult
  admissionResultJson : record'.admissionResultJson = record.admissionResultJson

/-- A receiver row later in a run. -/
structure InboxRow.Evolves (inbox inbox' : InboxRow) : Prop where
  payloadDigest : inbox'.payloadDigest = inbox.payloadDigest
  epoch : inbox.leaseEpoch ≤ inbox'.leaseEpoch
  completed : inbox.state.isCompleted = true → inbox' = inbox

/-- A stream later in a run. -/
structure TranscriptRow.Evolves (t t' : TranscriptRow) : Prop where
  frames : t.frames <+: t'.frames
  closed : t.state ≠ .open → t' = t

/-- A dispatch later in a run. -/
structure Dispatch.Evolves (d d' : Dispatch) : Prop where
  identity : SameIdentity d d'
  payload : d'.payload = d.payload
  payloadDigest : d'.payloadDigest = d.payloadDigest
  maxAttempts : d'.maxAttempts = d.maxAttempts
  attempts : d.attemptCount ≤ d'.attemptCount
  admission : d.record.SameAdmission d'.record
  final : ∀ result, d.record.finalResult = some result → d'.record.finalResult = some result
  settled : d.active = false → d'.active = false
  inbox : ∀ inbox, d.inbox = some inbox → ∃ inbox', d'.inbox = some inbox' ∧ inbox.Evolves inbox'
  stream : ∀ t, d.transcript = some t → ∃ t', d'.transcript = some t' ∧ t.Evolves t'
  unstreamed : d.transcript = none → d'.transcript = none

/-- A task later in a run. -/
structure TaskRow.Evolves (row row' : TaskRow) : Prop where
  id : row'.task.id = row.task.id
  tenantScope : row'.tenantScope = row.tenantScope
  ownerAccountId : row'.ownerAccountId = row.ownerAccountId
  events : row.events <+: row'.events
  revision : row.revision ≤ row'.revision
  terminal : row.task.status.state.isTerminal = true → row' = row

/-- A store later in a run. -/
structure Store.Evolves (s s' : Store) : Prop where
  dispatches : ∀ d ∈ s.dispatches, ∃ d' ∈ s'.dispatches, d.Evolves d'
  tasks : ∀ row ∈ s.tasks, ∃ row' ∈ s'.tasks, row.Evolves row'

section Order

theorem RecordRow.SameAdmission.trans {a b c : RecordRow} (h : a.SameAdmission b)
    (h' : b.SameAdmission c) : a.SameAdmission c :=
  ⟨h'.requestDigest.trans h.requestDigest, h'.admissionResult.trans h.admissionResult,
    h'.admissionResultJson.trans h.admissionResultJson⟩

theorem InboxRow.Evolves.refl (inbox : InboxRow) : inbox.Evolves inbox :=
  ⟨rfl, le_rfl, fun _ => rfl⟩

theorem InboxRow.Evolves.trans {a b c : InboxRow} (h : a.Evolves b) (h' : b.Evolves c) :
    a.Evolves c := by
  refine ⟨h'.payloadDigest.trans h.payloadDigest, h.epoch.trans h'.epoch, fun hcompleted => ?_⟩
  have hb := h.completed hcompleted
  rw [← hb]
  exact h'.completed (hb ▸ hcompleted)

theorem TranscriptRow.Evolves.refl (t : TranscriptRow) : t.Evolves t :=
  ⟨List.prefix_rfl, fun _ => rfl⟩

theorem TranscriptRow.Evolves.trans {a b c : TranscriptRow} (h : a.Evolves b)
    (h' : b.Evolves c) : a.Evolves c := by
  refine ⟨h.frames.trans h'.frames, fun hclosed => ?_⟩
  have hb := h.closed hclosed
  rw [← hb]
  exact h'.closed (hb ▸ hclosed)

theorem SameIdentity.trans {a b c : Dispatch} (h : SameIdentity a b) (h' : SameIdentity b c) :
    SameIdentity a c :=
  ⟨h'.outboxId.trans h.outboxId, h'.dispatchId.trans h.dispatchId,
    h'.tenantScope.trans h.tenantScope, h'.taskId.trans h.taskId, h'.messageId.trans h.messageId,
    h'.causativeRevision.trans h.causativeRevision⟩

/-- A dispatch that keeps its record, its receiver row and its stream. -/
theorem Dispatch.Evolves.of_same {d d' : Dispatch} (hidentity : SameIdentity d d')
    (hpayload : d'.payload = d.payload ∧ d'.payloadDigest = d.payloadDigest)
    (hmax : d'.maxAttempts = d.maxAttempts) (hattempts : d.attemptCount ≤ d'.attemptCount)
    (hrecord : d'.record = d.record) (hsettled : d.active = false → d'.active = false)
    (hinbox : d'.inbox = d.inbox) (htranscript : d'.transcript = d.transcript) : d.Evolves d' where
  identity := hidentity
  payload := hpayload.1
  payloadDigest := hpayload.2
  maxAttempts := hmax
  attempts := hattempts
  admission := by rw [hrecord]; exact ⟨rfl, rfl, rfl⟩
  final := by rw [hrecord]; exact fun _ h => h
  settled := hsettled
  inbox := by rw [hinbox]; exact fun inbox h => ⟨inbox, h, .refl inbox⟩
  stream := by rw [htranscript]; exact fun t h => ⟨t, h, .refl t⟩
  unstreamed := by rw [htranscript]; exact fun h => h

theorem Dispatch.Evolves.refl (d : Dispatch) : d.Evolves d :=
  .of_same (SameIdentity.refl d) ⟨rfl, rfl⟩ rfl le_rfl rfl (fun h => h) rfl rfl

theorem Dispatch.Evolves.trans {a b c : Dispatch} (h : a.Evolves b) (h' : b.Evolves c) :
    a.Evolves c where
  identity := h.identity.trans h'.identity
  payload := h'.payload.trans h.payload
  payloadDigest := h'.payloadDigest.trans h.payloadDigest
  maxAttempts := h'.maxAttempts.trans h.maxAttempts
  attempts := h.attempts.trans h'.attempts
  admission := h.admission.trans h'.admission
  final := fun result hresult => h'.final result (h.final result hresult)
  settled := fun hsettled => h'.settled (h.settled hsettled)
  inbox := by
    intro inbox hinbox
    obtain ⟨inbox', hinbox', hevolves⟩ := h.inbox inbox hinbox
    obtain ⟨inbox'', hinbox'', hevolves'⟩ := h'.inbox inbox' hinbox'
    exact ⟨inbox'', hinbox'', hevolves.trans hevolves'⟩
  stream := by
    intro t ht
    obtain ⟨t', ht', hevolves⟩ := h.stream t ht
    obtain ⟨t'', ht'', hevolves'⟩ := h'.stream t' ht'
    exact ⟨t'', ht'', hevolves.trans hevolves'⟩
  unstreamed := fun hnone => h'.unstreamed (h.unstreamed hnone)

theorem TaskRow.Evolves.refl (row : TaskRow) : row.Evolves row :=
  ⟨rfl, rfl, rfl, List.prefix_rfl, le_rfl, fun _ => rfl⟩

theorem TaskRow.Evolves.trans {a b c : TaskRow} (h : a.Evolves b) (h' : b.Evolves c) :
    a.Evolves c := by
  refine ⟨h'.id.trans h.id, h'.tenantScope.trans h.tenantScope,
    h'.ownerAccountId.trans h.ownerAccountId, h.events.trans h'.events,
    h.revision.trans h'.revision, fun hterminal => ?_⟩
  have hb := h.terminal hterminal
  rw [← hb]
  exact h'.terminal (hb ▸ hterminal)

/-- A task that moves on. -/
theorem TaskRow.Evolves.append {row : TaskRow} {kind : EventKind} {task : Task} {now : Int}
    (hid : task.id = row.task.id) (hopen : row.task.status.state.isTerminal = false) :
    row.Evolves (row.append (row.revision + 1) kind task now) :=
  ⟨hid, rfl, rfl, List.prefix_append _ _, Nat.le_succ _, fun hterminal => by
    rw [hopen] at hterminal
    cases hterminal⟩

theorem Store.Evolves.refl (s : Store) : s.Evolves s :=
  ⟨fun d hd => ⟨d, hd, .refl d⟩, fun row hrow => ⟨row, hrow, .refl row⟩⟩

theorem Store.Evolves.trans {a b c : Store} (h : a.Evolves b) (h' : b.Evolves c) :
    a.Evolves c := by
  constructor
  · intro d hd
    obtain ⟨d', hd', hevolves⟩ := h.dispatches d hd
    obtain ⟨d'', hd'', hevolves'⟩ := h'.dispatches d' hd'
    exact ⟨d'', hd'', hevolves.trans hevolves'⟩
  · intro row hrow
    obtain ⟨row', hrow', hevolves⟩ := h.tasks row hrow
    obtain ⟨row'', hrow'', hevolves'⟩ := h'.tasks row' hrow'
    exact ⟨row'', hrow'', hevolves.trans hevolves'⟩

end Order

/-! ## Changes -/

section Changes

variable [ContentDigest] {cfg : Config} {s s' : Store} {now : Int} {d d' : Dispatch}
  {row row' : TaskRow}

omit [ContentDigest] in
theorem Store.Evolves.putDispatch (hkeys : KeysValid s) (hd : d ∈ s.dispatches)
    (hevolves : d.Evolves d') : s.Evolves (s.putDispatch d') :=
  ⟨hkeys.outboxIds.relates_put hd hevolves.identity.outboxId Dispatch.Evolves.refl hevolves,
    fun row hrow => ⟨row, hrow, .refl row⟩⟩

omit [ContentDigest] in
theorem Store.Evolves.commit (hkeys : KeysValid s) (hrow : row ∈ s.tasks) (hd : d ∈ s.dispatches)
    (hrowEvolves : row.Evolves row') (hevolves : d.Evolves d') : s.Evolves (s.commit row' d') :=
  ⟨hkeys.outboxIds.relates_put hd hevolves.identity.outboxId Dispatch.Evolves.refl hevolves,
    hkeys.taskIds.relates_put hrow hrowEvolves.id TaskRow.Evolves.refl hrowEvolves⟩

omit [ContentDigest] in
theorem Store.Evolves.mapDispatches {f : Dispatch → Dispatch}
    (hevolves : ∀ d ∈ s.dispatches, d.Evolves (f d)) :
    s.Evolves { s with dispatches := s.dispatches.map f } :=
  ⟨fun d hd => ⟨f d, List.mem_map_of_mem hd, hevolves d hd⟩, fun row hrow => ⟨row, hrow, .refl row⟩⟩

omit [ContentDigest] in
/-- A result is bound to a record once. -/
theorem RecordRow.complete_final {record : RecordRow} {result bound : SendMessageResponse}
    (hfinal : record.finalResult = none ↔ record.state = .inProgress)
    (hbound : record.finalResult = some bound) :
    (record.complete result now).finalResult = some bound := by
  rw [RecordRow.complete, if_neg]
  · exact hbound
  · intro hstate
    rw [hfinal.mpr hstate] at hbound
    cases hbound

omit [ContentDigest] in
theorem RecordRow.sameAdmission_complete {record : RecordRow} {result : SendMessageResponse} :
    record.SameAdmission (record.complete result now) := by
  rw [RecordRow.complete]
  split <;> exact ⟨rfl, rfl, rfl⟩

omit [ContentDigest] in
/-- A dispatch that leaves the queue with a result and the stream that goes with it. -/
theorem Dispatch.Evolves.settle {result : SendMessageResponse} {f : TranscriptRow → TranscriptRow}
    (hfinal : d.record.finalResult = none ↔ d.record.state = .inProgress)
    (hidentity : SameIdentity d d') (hpayload : d'.payload = d.payload ∧
      d'.payloadDigest = d.payloadDigest) (hmax : d'.maxAttempts = d.maxAttempts)
    (hattempts : d'.attemptCount = d.attemptCount) (hinbox : d'.inbox = d.inbox)
    (hrecord : d'.record = d.record.complete result now) (hsettled : d'.active = false)
    (htranscript : d'.transcript = d.transcript.map f)
    (hstream : ∀ t, d.transcript = some t → t.Evolves (f t)) : d.Evolves d' where
  identity := hidentity
  payload := hpayload.1
  payloadDigest := hpayload.2
  maxAttempts := hmax
  attempts := hattempts.ge
  admission := by
    rw [hrecord]
    exact RecordRow.sameAdmission_complete
  final := by
    rw [hrecord]
    exact fun _ => RecordRow.complete_final hfinal
  settled := fun _ => hsettled
  inbox := by
    rw [hinbox]
    exact fun inbox h => ⟨inbox, h, .refl inbox⟩
  stream := by
    intro t ht
    exact ⟨f t, by rw [htranscript, ht, Option.map_some], hstream t ht⟩
  unstreamed := by
    intro hnone
    rw [htranscript, hnone, Option.map_none]

omit [ContentDigest] in
/-- A stream that grows while it is open. -/
theorem TranscriptRow.Evolves.grow {t t' : TranscriptRow} (hopen : t.state = .open)
    (hframes : t.frames <+: t'.frames) : t.Evolves t' :=
  ⟨hframes, fun hclosed => absurd hopen hclosed⟩

omit [ContentDigest] in
theorem TranscriptRow.Evolves.interrupt {t : TranscriptRow} {error : String} :
    t.Evolves (t.interrupt error now) := by
  rw [TranscriptRow.interrupt]
  split
  · exact .grow ‹_› List.prefix_rfl
  · exact .refl t

theorem TranscriptRow.Evolves.cancel {t : TranscriptRow} {decoded : HashOrder} {task : Task} :
    t.Evolves (t.cancel decoded task now) := by
  rw [TranscriptRow.cancel]
  split
  · exact .grow ‹_› (List.prefix_append _ _)
  · exact .refl t

omit [ContentDigest] in
theorem InboxRow.Evolves.voidLease {inbox : InboxRow} : inbox.Evolves (inbox.voidLease now) := by
  rw [InboxRow.voidLease]
  cases hstate : inbox.state with
  | processing owner token leaseUntil =>
    exact ⟨rfl, le_rfl, fun hcompleted => by
      rw [hstate] at hcompleted
      cases hcompleted⟩
  | completed => exact .refl inbox

omit [ContentDigest] in
/-- A dispatch whose receiver row, and at most its lease and its intent, changed. -/
theorem Dispatch.Evolves.receive (hidentity : SameIdentity d d')
    (hpayload : d'.payload = d.payload ∧ d'.payloadDigest = d.payloadDigest)
    (hmax : d'.maxAttempts = d.maxAttempts) (hattempts : d'.attemptCount = d.attemptCount)
    (hrecord : d'.record = d.record) (hstate : d'.state = d.state)
    (htranscript : d'.transcript = d.transcript)
    (hinbox : ∀ inbox, d.inbox = some inbox →
      ∃ inbox', d'.inbox = some inbox' ∧ inbox.Evolves inbox') : d.Evolves d' where
  identity := hidentity
  payload := hpayload.1
  payloadDigest := hpayload.2
  maxAttempts := hmax
  attempts := hattempts.ge
  admission := by rw [hrecord]; exact ⟨rfl, rfl, rfl⟩
  final := by rw [hrecord]; exact fun _ h => h
  settled := by rw [Dispatch.active, Dispatch.active, hstate]; exact fun h => h
  inbox := hinbox
  stream := by rw [htranscript]; exact fun t h => ⟨t, h, .refl t⟩
  unstreamed := by rw [htranscript]; exact fun h => h

namespace Change

omit [ContentDigest] in
/-- A queued or leased dispatch has not left the queue. -/
theorem not_settled (hactive : d.active = true) {p : Prop} (hsettled : d.active = false) : p := by
  rw [hactive] at hsettled
  cases hsettled

theorem resume_evolves {o : HashOrder} {auth : Option Authorization} {digest : String}
    {payload : MeshRequest} {command : SendMessageAdmission} (hinv : Inv s now)
    (hc : ResumeEnabled cfg auth digest payload command row now s) :
    s.Evolves ((resume o auth digest payload command row).run cfg now s) := by
  have hopen : row.task.status.state.isTerminal = false := by
    rcases hc.waiting with hwaiting | hwaiting <;> rw [hwaiting] <;> rfl
  have happend : row.Evolves (row.append (row.revision + 1) .continued
      (continuedTask row.task command.request.message now) now) := .append rfl hopen
  constructor
  · intro d hd
    exact ⟨d, List.mem_append_left _ hd, .refl d⟩
  · exact hinv.taskIds.relates_put hc.mem rfl TaskRow.Evolves.refl happend

theorem deadLetter_evolves {attempts : List AttemptRow} {error messageId : String}
    (hinv : Inv s now) (hc : DeadLetterEnabled row d attempts error messageId now s) :
    s.Evolves ((deadLetter row d attempts error messageId).run cfg now s) := by
  have hvalid := hinv.dispatches d hc.mem_dispatches
  have hcoherent := hinv.coherent_of_taskId hc.mem_dispatches hc.mem_tasks hc.taskId_eq
  have hopen : row.task.status.state.isTerminal = false := by
    rcases hcoherent.working (Dispatch.active_iff.mpr (.inr hc.leased)) with hwork | hwork <;>
      rw [hwork] <;> rfl
  exact .commit hinv.toKeysValid hc.mem_tasks hc.mem_dispatches (.append rfl hopen)
    (.settle hvalid.final ⟨rfl, rfl, rfl, rfl, rfl, rfl⟩ ⟨rfl, rfl⟩ rfl rfl rfl rfl rfl rfl
      fun _ _ => .interrupt)

theorem progress_evolves {o decoded : HashOrder} {transcript : TranscriptRow}
    {frame : StreamResponse} (hinv : Inv s now)
    (hc : ProgressEnabled decoded d transcript frame s) :
    s.Evolves ((progress o decoded d transcript frame).run cfg now s) := by
  apply Store.Evolves.putDispatch hinv.toKeysValid hc.mem
  have hsame := Dispatch.Evolves.refl d
  refine ⟨⟨rfl, rfl, rfl, rfl, rfl, rfl⟩, rfl, rfl, rfl, le_rfl, hsame.admission, hsame.final,
    hsame.settled, hsame.inbox, fun t ht => ?_, fun hnone => ?_⟩
  · obtain rfl : transcript = t := Option.some.inj (hc.transcript_eq.symm.trans ht)
    exact ⟨_, rfl, .grow hc.unclosed (List.prefix_append _ _)⟩
  · rw [hc.transcript_eq] at hnone
    cases hnone

theorem deliver_evolves {o decoded : HashOrder} {attempts : List AttemptRow} {task : Task}
    {result : SendMessageResponse} {frames : List StreamResponse} (hinv : Inv s now)
    (hc : DeliverEnabled o decoded row d attempts task result frames now s) :
    s.Evolves ((deliver o decoded row d attempts task result frames).run cfg now s) := by
  have hvalid := hinv.dispatches d hc.mem_dispatches
  have hcoherent := hinv.coherent_of_taskId hc.mem_dispatches hc.mem_tasks hc.taskId_eq
  have hactive : d.active = true := Dispatch.active_iff.mpr (.inr hc.leased)
  have hopen : row.task.status.state.isTerminal = false := by
    rcases hcoherent.working hactive with hwork | hwork <;> rw [hwork] <;> rfl
  refine .commit hinv.toKeysValid hc.mem_tasks hc.mem_dispatches (.append hc.sameTask hopen)
    (.settle hvalid.final ⟨rfl, rfl, rfl, rfl, rfl, rfl⟩ ⟨rfl, rfl⟩ rfl rfl rfl rfl rfl rfl ?_)
  intro t ht
  exact .grow ((hvalid.transcript t ht).open_of_active hactive) (List.prefix_append _ _)

theorem cancel_evolves {decoded : HashOrder} (hinv : Inv s now)
    (hc : CancelEnabled decoded row d now s) :
    s.Evolves ((cancel decoded row d).run cfg now s) := by
  have hvalid := hinv.dispatches d hc.mem_dispatches
  have hdead : d.state ≠ .dead := by
    intro hdead
    rcases hc.serves with hactive | ⟨hdelivered, -⟩
    · simp [Dispatch.active, hdead] at hactive
    · simp [hdead] at hdelivered
  -- a record that has its result is completed already, so completing it changes nothing
  have hrecord : ∀ result, (if d.record.finalResult = none then d.record.complete result now
      else d.record) = d.record.complete result now := by
    intro result
    split
    · rfl
    · rw [RecordRow.complete, if_neg]
      rwa [← hvalid.final]
  refine .commit hinv.toKeysValid hc.mem_tasks hc.mem_dispatches (.append rfl hc.unfinished) ?_
  rw [supersede_eq hdead, hrecord]
  exact .settle hvalid.final ⟨rfl, rfl, rfl, rfl, rfl, rfl⟩ ⟨rfl, rfl⟩ rfl rfl rfl rfl rfl rfl
    fun _ _ => .cancel

/-- Every change respects the evolution of rows. -/
theorem evolves {change : Change} (hinv : Inv s now) (hc : change.Enabled cfg now s) :
    s.Evolves (change.run cfg now s) := by
  have hkeys := hinv.toKeysValid
  cases change with
  | admission o auth digest payload command =>
    exact ⟨fun d hd => ⟨d, List.mem_append_left _ hd, .refl d⟩,
      fun row hrow => ⟨row, List.mem_append_left _ hrow, .refl row⟩⟩
  | resume o auth digest payload command row => exact resume_evolves hinv hc.1
  | lease d owner token leaseUntil =>
    apply Store.Evolves.putDispatch hkeys hc.1
    have hactive : (d.lease owner token leaseUntil now).active = true := rfl
    have hclaimable := hc.2.1
    have hwas : d.active = true := by
      simp only [Dispatch.claimable, Dispatch.leaseExpired, Bool.and_eq_true, Bool.or_eq_true,
        beq_iff_eq] at hclaimable
      rw [Dispatch.active_iff]
      tauto
    exact .of_same ⟨rfl, rfl, rfl, rfl, rfl, rfl⟩ ⟨rfl, rfl⟩ rfl (Nat.le_succ _) rfl
      (not_settled hwas) rfl rfl
  | release d owner token leaseUntil =>
    apply Store.Evolves.putDispatch hkeys hc.1
    exact .of_same ⟨rfl, rfl, rfl, rfl, rfl, rfl⟩ ⟨rfl, rfl⟩ rfl le_rfl rfl (fun h => h) rfl rfl
  | retry d attempts error availableAt =>
    apply Store.Evolves.putDispatch hkeys hc.1
    exact .of_same ⟨rfl, rfl, rfl, rfl, rfl, rfl⟩ ⟨rfl, rfl⟩ rfl le_rfl rfl
      (not_settled (Dispatch.active_iff.mpr (.inr hc.2.1))) rfl rfl
  | deadLetter row d attempts error messageId => exact deadLetter_evolves hinv hc.1
  | progress o decoded d transcript frame =>
    exact progress_evolves hinv hc.1
  | accept d inbox =>
    apply Store.Evolves.putDispatch hkeys hc.mem
    refine .receive ⟨rfl, rfl, rfl, rfl, rfl, rfl⟩ ⟨rfl, rfl⟩ rfl rfl rfl rfl rfl ?_
    intro old hold
    rw [hc.unaccepted] at hold
    cases hold
  | reclaim d old inbox =>
    apply Store.Evolves.putDispatch hkeys hc.mem
    refine .receive ⟨rfl, rfl, rfl, rfl, rfl, rfl⟩ ⟨rfl, rfl⟩ rfl rfl rfl rfl rfl ?_
    intro x hx
    obtain rfl : old = x := Option.some.inj (hc.inbox_eq.symm.trans hx)
    obtain ⟨owner, token, leaseUntil, hstate, -⟩ := hc.expired
    refine ⟨inbox, rfl, hc.kept.1, hc.epoch ▸ Nat.le_succ _, fun hcompleted => ?_⟩
    rw [hstate] at hcompleted
    cases hcompleted
  | complete d inbox kind events termination =>
    apply Store.Evolves.putDispatch hkeys hc.mem
    refine .receive ⟨rfl, rfl, rfl, rfl, rfl, rfl⟩ ⟨rfl, rfl⟩ rfl rfl rfl rfl rfl ?_
    intro x hx
    obtain rfl : inbox = x := Option.some.inj (hc.inbox_eq.symm.trans hx)
    obtain ⟨owner, token, leaseUntil, hstate, -⟩ := hc.live
    refine ⟨_, rfl, rfl, le_rfl, fun hcompleted => ?_⟩
    rw [hstate] at hcompleted
    cases hcompleted
  | deliver o decoded row d attempts task result frames => exact deliver_evolves hinv hc.1
  | request d =>
    apply Store.Evolves.putDispatch hkeys hc.mem
    exact .of_same ⟨rfl, rfl, rfl, rfl, rfl, rfl⟩ ⟨rfl, rfl⟩ rfl le_rfl rfl (fun h => h) rfl rfl
  | cancel decoded row d => exact cancel_evolves hinv hc.1
  | audit decision =>
    exact ⟨fun d hd => ⟨d, hd, .refl d⟩, fun row hrow => ⟨row, hrow, .refl row⟩⟩
  | voidLeases =>
    apply Store.Evolves.mapDispatches
    intro d hd
    rw [Dispatch.voidLeases]
    split
    all_goals
      refine .receive ⟨rfl, rfl, rfl, rfl, rfl, rfl⟩ ⟨rfl, rfl⟩ rfl rfl rfl rfl rfl ?_
      intro inbox hinbox
      exact ⟨inbox.voidLease now, by rw [hinbox, Option.map_some], .voidLease⟩
  | abandon =>
    apply Store.Evolves.mapDispatches
    intro d hd
    rw [Dispatch.abandon]
    split
    · exact .of_same ⟨rfl, rfl, rfl, rfl, rfl, rfl⟩ ⟨rfl, rfl⟩ rfl le_rfl rfl
        (not_settled (Dispatch.active_iff.mpr (.inr ‹_ ∧ _›.1))) rfl rfl
    · exact .refl d

/-- A change keeps the rows of the queue, or appends a queued one. -/
theorem run_outboxIds {change : Change} :
    (change.run cfg now s).dispatches.map Dispatch.outboxId = s.dispatches.map Dispatch.outboxId ∨
      ∃ d, (change.run cfg now s).dispatches = s.dispatches ++ [d] ∧ d.state = .pending ∧
        d.inbox = none := by
  cases change with
  | admission o auth digest payload command => exact .inr ⟨_, rfl, rfl, rfl⟩
  | resume o auth digest payload command row => exact .inr ⟨_, rfl, rfl, rfl⟩
  | audit decision => exact .inl rfl
  | voidLeases =>
    refine .inl ((List.map_map).trans (List.map_congr_left fun d _ => ?_))
    simp only [Function.comp, Dispatch.voidLeases]
    split <;> rfl
  | abandon =>
    refine .inl ((List.map_map).trans (List.map_congr_left fun d _ => ?_))
    simp only [Function.comp, Dispatch.abandon]
    split <;> rfl
  | lease => exact .inl Keyed.map_key_put
  | release => exact .inl Keyed.map_key_put
  | retry => exact .inl Keyed.map_key_put
  | deadLetter => exact .inl Keyed.map_key_put
  | progress => exact .inl Keyed.map_key_put
  | accept => exact .inl Keyed.map_key_put
  | reclaim => exact .inl Keyed.map_key_put
  | complete => exact .inl Keyed.map_key_put
  | deliver => exact .inl Keyed.map_key_put
  | request => exact .inl Keyed.map_key_put
  | cancel => exact .inl Keyed.map_key_put

/-- After a change every dispatch is a new one, or what the change made of one there was. -/
theorem origin_of {R : Dispatch → Dispatch → Prop} {change : Change} (hinv : Inv s now)
    (hc : change.Enabled cfg now s)
    (hforward : ∀ d ∈ s.dispatches, ∃ d' ∈ (change.run cfg now s).dispatches,
      d'.outboxId = d.outboxId ∧ R d d') :
    ∀ d' ∈ (change.run cfg now s).dispatches, (d'.state = .pending ∧ d'.inbox = none) ∨
      ∃ d ∈ s.dispatches, R d d' := by
  intro d' hd'
  have hinv' := inv hinv hc
  have hkept : d'.outboxId ∈ s.dispatches.map Dispatch.outboxId → ∃ d ∈ s.dispatches, R d d' := by
    intro hmem
    obtain ⟨d, hd, hid⟩ := List.mem_map.mp hmem
    obtain ⟨x, hx, hxid, hrelated⟩ := hforward d hd
    obtain rfl := hinv'.outboxIds.eq_of_key hx hd' (hxid.trans hid)
    exact ⟨d, hd, hrelated⟩
  rcases run_outboxIds with hsame | ⟨new, happend, hnew⟩
  · exact .inr (hkept (hsame ▸ List.mem_map_of_mem hd'))
  · rw [happend, List.mem_append, List.mem_singleton] at hd'
    rcases hd' with hold | rfl
    · exact .inr (hkept (List.mem_map_of_mem hold))
    · exact .inl hnew

end Change

/-- Along every run rows evolve. -/
theorem Inv.evolves_of_run {allowed : Store → Operation → Prop} {t : Int} (hinv : Inv s t)
    (hrun : (system cfg).Run allowed s t s' now) : s.Evolves s' :=
  relates_of_changes Store.Evolves.refl (fun _ _ _ => Store.Evolves.trans)
    (fun _ _ _ => Change.evolves) hinv hrun

end Changes

end SmeshDurable
