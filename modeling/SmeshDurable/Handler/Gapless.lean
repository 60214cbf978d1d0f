import SmeshDurable.Handler.DurableStream
import SmeshDurable.Protocol.Runs

/-!
# Gapless streams

A reader of a stream gets the frames of the batches read, in order and each one charged,
and nothing after the first error. A stream that has not failed keeps the frames read and
not yet handed out in its queue; every turn moves the queue in one of a few ways, and what
they leave of the guarantee is proved once for both streams.
-/

namespace SmeshDurable

abbrev StreamTrace := List (Observation StreamCall StreamItem)

namespace StreamTrace

/-- The items handed out. -/
def items (trace : StreamTrace) : List StreamItem :=
  trace.filterMap fun
    | .item value => some value
    | .call _ => none

/-- The frames handed out. -/
def delivered (trace : StreamTrace) : List StreamResponse :=
  trace.filterMap fun
    | .item (.ok frame) => some frame
    | _ => none

/-- The frames charged with success. -/
def charged (trace : StreamTrace) : List StreamResponse :=
  trace.filterMap fun
    | .call (.charge frame (.ok ())) => some frame
    | _ => none

/-- The frames of the batches read. -/
def received (trace : StreamTrace) : List StreamResponse :=
  trace.flatMap fun
    | .call (.read _ (.ok frames)) => frames
    | _ => []

/-- An error has been handed out. -/
def Failed (trace : StreamTrace) : Prop := ∃ error, Except.error error ∈ trace.items

end StreamTrace

open StreamTrace

/-- No item follows an error. -/
def StopsAtError (items : List StreamItem) : Prop :=
  ∀ front error rest, items = front ++ .error error :: rest → rest = []

/-- The guarantee to the reader, when the frames of a batch are shown through `view`. -/
structure Gapless (view : StreamResponse → StreamResponse) (trace : StreamTrace) : Prop where
  ordered : trace.delivered <+: trace.received.map view
  charged : trace.delivered = trace.charged
  stops : StopsAtError trace.items

/-- A trace without an error, with the queue of frames still to be handed out. -/
structure Streaming (view : StreamResponse → StreamResponse) (trace : StreamTrace)
    (pending : List StreamResponse) : Prop where
  items : trace.items = trace.delivered.map .ok
  queue : trace.delivered ++ pending = trace.received.map view
  charged : trace.delivered = trace.charged

/-- What a turn does to the queue, with its calls, its item, and the queue it goes on with
unless it stops. -/
inductive Move (view : StreamResponse → StreamResponse) : List StreamResponse →
    List StreamCall → Option StreamItem → Option (List StreamResponse) → Prop
  | deliver (frame rest) :
      Move view (frame :: rest) [.charge frame (.ok ())] (some (.ok frame)) (some rest)
  | refuse (frame rest error) :
      Move view (frame :: rest) [.charge frame (.error error)] (some (.error error)) none
  | refill (cursor frames) :
      Move view [] [.read cursor (.ok frames)] none (some (frames.map view))
  | failRead (cursor error item) (hitem : ∀ frame, item ≠ some (.ok frame)) :
      Move view [] [.read cursor (.error error)] item none
  | failIdle (cursor item) (hitem : ∀ frame, item ≠ some (.ok frame)) :
      Move view [] [.read cursor (.ok [])] item none
  | fail (pending item) (hitem : ∀ frame, item ≠ some (.ok frame)) :
      Move view pending [] item none

section Moves

variable {view : StreamResponse → StreamResponse} {trace : StreamTrace}
  {pending pending' : List StreamResponse} {calls : List StreamCall} {item : Option StreamItem}

/-- The entries a turn adds to the trace. -/
def entries (calls : List StreamCall) (item : Option StreamItem) : StreamTrace :=
  calls.map .call ++ item.toList.map .item

theorem stopsAtError_concat {frames : List StreamResponse} {last : List StreamItem}
    (hlast : last.length ≤ 1) : StopsAtError (frames.map .ok ++ last) := by
  intro front error rest h
  induction frames generalizing front with
  | nil =>
    simp only [List.map_nil, List.nil_append] at h
    rw [h, List.length_append, List.length_cons] at hlast
    exact List.length_eq_zero_iff.mp (by omega)
  | cons frame frames ih =>
    cases front with
    | nil => simp at h
    | cons head front => exact ih front (List.cons.inj h).2

theorem Streaming.gapless (h : Streaming view trace pending) : Gapless view trace := by
  refine ⟨⟨pending, h.queue⟩, h.charged, ?_⟩
  have hstops : StopsAtError (trace.delivered.map .ok ++ []) := stopsAtError_concat (by simp)
  rwa [List.append_nil, ← h.items] at hstops

/-- A turn that goes on keeps the queue in step with what was read. -/
theorem Streaming.go_on (h : Streaming view trace pending)
    (hmove : Move view pending calls item (some pending')) :
    Streaming view (trace ++ entries calls item) pending' := by
  cases hmove with
  | deliver frame rest =>
    refine ⟨?_, ?_, ?_⟩
    · simpa [entries, StreamTrace.items, delivered] using h.items
    · simpa [entries, delivered, received] using h.queue
    · simpa [entries, delivered, StreamTrace.charged] using h.charged
  | refill cursor frames =>
    refine ⟨?_, ?_, ?_⟩
    · simpa [entries, StreamTrace.items, delivered] using h.items
    · have hqueue := h.queue
      rw [List.append_nil] at hqueue
      simpa [entries, delivered, received] using hqueue
    · simpa [entries, delivered, StreamTrace.charged] using h.charged

/-- A turn that stops keeps the guarantee. -/
theorem Streaming.stop (h : Streaming view trace pending)
    (hmove : Move view pending calls item none) : Gapless view (trace ++ entries calls item) := by
  -- no frame was handed out or charged, and nothing was read
  have hquiet : (entries calls item).delivered = [] ∧ (entries calls item).charged = [] ∧
      (entries calls item).received = [] ∧ (entries calls item).items.length ≤ 1 := by
    cases hmove with
    | refuse frame rest error =>
      simp [entries, delivered, StreamTrace.charged, received, StreamTrace.items]
    | failRead cursor error item hitem | failIdle cursor item hitem | fail pending item hitem =>
      rcases item with - | ⟨error⟩ | ⟨frame⟩
      · simp [entries, delivered, StreamTrace.charged, received, StreamTrace.items]
      · simp [entries, delivered, StreamTrace.charged, received, StreamTrace.items]
      · exact absurd rfl (hitem frame)
  obtain ⟨hdelivered, hcharged, hreceived, hitems⟩ := hquiet
  have happend : (trace ++ entries calls item).delivered = trace.delivered := by
    rw [delivered, List.filterMap_append, ← delivered, ← delivered, hdelivered, List.append_nil]
  refine ⟨?_, ?_, ?_⟩
  · rw [happend, received, List.flatMap_append, ← received, ← received, hreceived, List.append_nil]
    exact ⟨pending, h.queue⟩
  · rw [happend, StreamTrace.charged, List.filterMap_append, ← StreamTrace.charged,
      ← StreamTrace.charged, hcharged, List.append_nil]
    exact h.charged
  · rw [StreamTrace.items, List.filterMap_append, ← StreamTrace.items, ← StreamTrace.items, h.items]
    exact stopsAtError_concat hitems

theorem streaming_nil : Streaming view [] [] := ⟨rfl, rfl, rfl⟩

end Moves

/-! ## Turns -/

section Turns

variable {σ : Type} (view : StreamResponse → StreamResponse) (queue : σ → List StreamResponse)
  (live failed : σ → Prop)

/-- A turn moves the queue, and goes on in a live state or stops in a failed one. -/
def TurnMoves (pending : List StreamResponse) : List StreamCall × Turn σ StreamItem → Prop
  | (calls, .again st) => live st ∧ Move view pending calls none (some (queue st))
  | (calls, .item (.ok frame) st) =>
    live st ∧ Move view pending calls (some (.ok frame)) (some (queue st))
  | (calls, .item (.error error) st) =>
    failed st ∧ Move view pending calls (some (.error error)) none
  | (calls, .done) => Move view pending calls none none

/-- The invariant of both streams: the queue of a live one is in step with what was read, and
one that failed or ended has kept the guarantee. -/
def StreamInv (p : Unfold.Progress σ StreamCall StreamItem) : Prop :=
  match p.state with
  | none => Gapless view p.trace
  | some st => (live st ∧ Streaming view p.trace (queue st)) ∨
      (failed st ∧ Failed p.trace ∧ Gapless view p.trace)

variable {view queue live failed} {p : Unfold.Progress σ StreamCall StreamItem}
  {pending : List StreamResponse}

theorem StreamInv.gapless (h : StreamInv view queue live failed p) : Gapless view p.trace := by
  cases hstate : p.state with
  | none =>
    rw [StreamInv, hstate] at h
    exact h
  | some st =>
    simp only [StreamInv, hstate] at h
    rcases h with ⟨-, hstreaming⟩ | ⟨-, -, hgapless⟩
    · exact hstreaming.gapless
    · exact hgapless

/-- A turn of a live stream keeps the invariant. -/
theorem Streaming.after {turn : List StreamCall × Turn σ StreamItem}
    (h : Streaming view p.trace pending) (hturn : TurnMoves view queue live failed pending turn) :
    StreamInv view queue live failed (p.after turn) := by
  obtain ⟨calls, end_⟩ := turn
  cases end_ with
  | again st' =>
    have hstreaming := h.go_on hturn.2
    simp only [entries, Option.toList_none, List.map_nil, List.append_nil] at hstreaming
    exact .inl ⟨hturn.1, hstreaming⟩
  | item value st' =>
    cases value with
    | ok frame =>
      have hstreaming := h.go_on hturn.2
      rw [entries, ← List.append_assoc] at hstreaming
      exact .inl ⟨hturn.1, hstreaming⟩
    | error error =>
      have hgapless := h.stop hturn.2
      rw [entries, ← List.append_assoc] at hgapless
      refine .inr ⟨hturn.1, ⟨error, ?_⟩, hgapless⟩
      simp [Unfold.Progress.after, StreamTrace.items]
  | done =>
    have hgapless := h.stop hturn
    simp only [entries, Option.toList_none, List.map_nil, List.append_nil] at hgapless
    exact hgapless

/-- A failed stream that ends keeps the invariant. -/
theorem Gapless.after_done (h : Gapless view p.trace) :
    StreamInv view queue live failed (p.after ([], .done)) := by
  simpa [StreamInv, Unfold.Progress.after] using h

end Turns

/-! ## The stream of a message -/

theorem DurableStreamState.fail_moves {st : DurableStreamState} {error : A2AError}
    {view : StreamResponse → StreamResponse} {live : DurableStreamState → Prop}
    {pending : List StreamResponse} {calls : List StreamCall}
    (h : ∀ item, (∀ frame, item ≠ some (.ok frame)) → Move view pending calls item none) :
    TurnMoves view DurableStreamState.pending live (fun st => st.finished = true) pending
      (calls, st.fail error) := by
  unfold DurableStreamState.fail
  split
  · exact ⟨rfl, h _ (by simp)⟩
  · exact h _ (by simp)

/-- What a turn of a live stream of a message does. -/
theorem DurableStreamState.turn_moves {st : DurableStreamState} {historyLength : Option Int}
    (hlive : st.finished = false ∧ st.historyLength = historyLength) (a : StreamAnswers) :
    TurnMoves (projectStreamResponse · historyLength) DurableStreamState.pending
      (fun st => st.finished = false ∧ st.historyLength = historyLength)
      (fun st => st.finished = true) st.pending (st.turn a) := by
  obtain ⟨hfinished, rfl⟩ := hlive
  unfold DurableStreamState.turn
  rw [if_neg (by simp [hfinished])]
  split
  · exact ⟨rfl, .fail _ _ (by simp)⟩
  · cases hpending : st.pending with
    | cons frame rest =>
      cases hcharge : st.context.chargePublicEgress a.egress with
      | error error => exact ⟨rfl, .refuse frame rest error⟩
      | ok u => exact ⟨⟨hfinished, rfl⟩, .deliver frame rest⟩
    | nil =>
      simp only
      split
      · split
        · exact DurableStreamState.fail_moves (fun _ hitem => .fail _ _ hitem)
        · exact .fail _ _ (by simp)
      · cases hread : st.context.readBatch a.transcript with
        | error error =>
          exact DurableStreamState.fail_moves (fun _ hitem => .failRead _ _ _ hitem)
        | ok batch =>
          simp only [List.nil_append]
          split
          · exact ⟨⟨hfinished, rfl⟩, .refill _ _⟩
          · rename_i hidle
            -- the batch is empty, and the stream waits for the driver
            obtain ⟨hempty, -⟩ := not_or.mp hidle
            have hframes : batch.frames = [] := by simpa using hempty
            split
            · apply DurableStreamState.fail_moves
              intro item hitem
              rw [Except.map, hframes]
              exact .failIdle _ _ hitem
            · split
              · exact ⟨⟨hfinished, rfl⟩, .refill _ _⟩
              · apply DurableStreamState.fail_moves
                intro item hitem
                rw [Except.map, hframes]
                exact .failIdle _ _ hitem

/-- Whatever the outside answers, a stream of a message is gapless. -/
theorem messageUnfold_gapless {st : DurableStreamState} (hlive : st.finished = false)
    (hpending : st.pending = []) (answers : List StreamAnswers) :
    Gapless (projectStreamResponse · st.historyLength) (messageUnfold.run st answers).trace := by
  have hinv : StreamInv (projectStreamResponse · st.historyLength) DurableStreamState.pending
      (fun state => state.finished = false ∧ state.historyLength = st.historyLength)
      (fun state => state.finished = true) (messageUnfold.run st answers) := by
    apply Unfold.run_induction
    · refine .inl ⟨⟨hlive, rfl⟩, ?_⟩
      rw [hpending]
      exact streaming_nil
    · intro before answer after state _ hstate hinv
      simp only [StreamInv, hstate] at hinv
      rcases hinv with ⟨hlive, hstreaming⟩ | ⟨hfinished, -, hgapless⟩
      · exact hstreaming.after (DurableStreamState.turn_moves hlive answer)
      · -- the finished flag ends the stream before anything else is looked at
        have hturn : messageUnfold.turn state answer = ([], .done) := by
          show state.turn answer = _
          rw [DurableStreamState.turn, if_pos hfinished]
        rw [hturn]
        exact hgapless.after_done
  exact hinv.gapless

/-! ## The stream of a task -/

theorem DurableTaskEventStreamState.fail_moves {st : DurableTaskEventStreamState}
    {error : A2AError} {view : StreamResponse → StreamResponse}
    {live : DurableTaskEventStreamState → Prop} {pending : List StreamResponse}
    {calls : List StreamCall}
    (h : ∀ item, (∀ frame, item ≠ some (.ok frame)) → Move view pending calls item none) :
    TurnMoves view DurableTaskEventStreamState.pending live (fun st => st.closed = true) pending
      (calls, st.fail error) := by
  unfold DurableTaskEventStreamState.fail
  split
  · exact ⟨rfl, h _ (by simp)⟩
  · exact h _ (by simp)

/-- What a turn of a stream of a task does. -/
theorem DurableTaskEventStreamState.turn_moves (st : DurableTaskEventStreamState)
    (a : StreamAnswers) :
    TurnMoves id DurableTaskEventStreamState.pending (fun _ => True) (fun st => st.closed = true)
      st.pending (st.turn a) := by
  unfold DurableTaskEventStreamState.turn
  split
  · exact ⟨rfl, .fail _ _ (by simp)⟩
  · cases hpending : st.pending with
    | cons frame rest =>
      cases hcharge : st.context.chargePublicEgress a.egress with
      | error error => exact ⟨rfl, .refuse frame rest error⟩
      | ok u => exact ⟨trivial, .deliver frame rest⟩
    | nil =>
      simp only
      split
      · exact .fail _ _ (by simp)
      · cases hread : st.context.readBatch a.events with
        | error error =>
          exact DurableTaskEventStreamState.fail_moves (fun _ hitem => .failRead _ _ _ hitem)
        | ok batch =>
          have hrefill : Move id [] [.read st.lastRevision (.ok batch.frames)] none
              (some batch.frames) := by
            have hmove : Move id [] [.read st.lastRevision (.ok batch.frames)] none
                (some (batch.frames.map id)) := .refill _ _
            rwa [List.map_id] at hmove
          simp only [List.nil_append]
          split
          · exact ⟨trivial, hrefill⟩
          · rename_i hidle
            obtain ⟨hempty, -⟩ := not_or.mp hidle
            have hframes : batch.frames = [] := not_not.mp hempty
            split
            · apply DurableTaskEventStreamState.fail_moves
              intro item hitem
              rw [Except.map, hframes]
              exact .failIdle _ _ hitem
            · split
              · exact ⟨trivial, hrefill⟩
              · apply DurableTaskEventStreamState.fail_moves
                intro item hitem
                rw [Except.map, hframes]
                exact .failIdle _ _ hitem

/-- Nothing is pending and the lease has not failed. -/
def DurableTaskEventStreamState.Quiet (st : DurableTaskEventStreamState) (a : StreamAnswers) :
    Prop :=
  st.pending = [] ∧ (st.quotaLease = true → a.leaseFailure = none)

theorem DurableTaskEventStreamState.turn_of_quiet {st : DurableTaskEventStreamState}
    {a : StreamAnswers} (hclosed : st.closed = true) (hquiet : st.Quiet a) :
    st.turn a = ([], .done) := by
  obtain ⟨hpending, hlease⟩ := hquiet
  have hfailure : (a.leaseFailure.filter fun _ => st.quotaLease) = none := by
    cases hheld : st.quotaLease with
    | false => simp
    | true => simp [hlease hheld]
  simp [DurableTaskEventStreamState.turn, hfailure, hpending, hclosed]

/-- A turn that is not quiet hands out an item. -/
theorem DurableTaskEventStreamState.turn_of_not_quiet {st : DurableTaskEventStreamState}
    {a : StreamAnswers} (h : ¬ st.Quiet a) :
    ∃ calls value st', st.turn a = (calls, .item value st') := by
  unfold DurableTaskEventStreamState.turn
  split
  · exact ⟨_, _, _, rfl⟩
  · rename_i hfailure
    cases hpending : st.pending with
    | nil =>
      refine absurd ⟨hpending, fun hheld => ?_⟩ h
      apply Option.eq_none_iff_forall_ne_some.mpr
      simpa [hheld] using hfailure
    | cons frame rest =>
      cases hcharge : st.context.chargePublicEgress a.egress with
      | error error => exact ⟨_, _, _, rfl⟩
      | ok u => exact ⟨_, _, _, rfl⟩

/-- Every turn after an error is quiet. -/
def QuietAfterError (st : DurableTaskEventStreamState) (answers : List StreamAnswers) : Prop :=
  ∀ before answer after state, answers = before ++ answer :: after →
    (revisionUnfold.run st before).state = some state →
    Failed (revisionUnfold.run st before).trace → state.Quiet answer

theorem Gapless.quietAfterError {st : DurableTaskEventStreamState} {answers : List StreamAnswers}
    (h : Gapless id (revisionUnfold.run st answers).trace) : QuietAfterError st answers := by
  intro before answer after state hsplit hstate hfailed
  by_contra hquiet
  obtain ⟨calls, value, state', hturn⟩ := DurableTaskEventStreamState.turn_of_not_quiet hquiet
  -- the item of that turn stands behind the error
  have hnext : revisionUnfold.run st (before ++ [answer]) =
      (revisionUnfold.run st before).after (calls, .item value state') := by
    rw [Unfold.run_concat, Unfold.advance_of_some _ hstate]
    exact congrArg _ hturn
  have hgrows : (revisionUnfold.run st (before ++ [answer])).trace <+:
      (revisionUnfold.run st (before ++ [answer] ++ after)).trace :=
    Unfold.run_trace_append _ _
  rw [List.append_assoc, List.singleton_append, ← hsplit, hnext] at hgrows
  obtain ⟨later, hlater⟩ := hgrows
  obtain ⟨error, herror⟩ := hfailed
  obtain ⟨front, rest, hitems⟩ := List.append_of_mem herror
  have hstops := h.stops front error (rest ++ value :: items later) (by
    rw [← hlater]
    simp only [Unfold.Progress.after, StreamTrace.items] at hitems ⊢
    simp [List.filterMap_append, hitems])
  simp at hstops

theorem QuietAfterError.gapless {st : DurableTaskEventStreamState} {answers : List StreamAnswers}
    (hpending : st.pending = []) (h : QuietAfterError st answers) :
    Gapless id (revisionUnfold.run st answers).trace := by
  have hinv : StreamInv id DurableTaskEventStreamState.pending (fun _ => True)
      (fun state => state.closed = true) (revisionUnfold.run st answers) := by
    apply Unfold.run_induction
    · refine .inl ⟨trivial, ?_⟩
      rw [hpending]
      exact streaming_nil
    · intro before answer after state hsplit hstate hinv
      simp only [StreamInv, hstate] at hinv
      rcases hinv with ⟨-, hstreaming⟩ | ⟨hclosed, hfailed, hgapless⟩
      · exact hstreaming.after (state.turn_moves answer)
      · have hquiet := h before answer after state hsplit hstate hfailed
        have hturn : revisionUnfold.turn state answer = ([], .done) :=
          DurableTaskEventStreamState.turn_of_quiet hclosed hquiet
        rw [hturn]
        exact hgapless.after_done
  exact hinv.gapless

/-! ## Streams the handler returns -/

namespace DurableStream

/-- The trace of a stream after its snapshot. -/
def trace : DurableStream → List StreamAnswers → StreamTrace
  | .refusal error, answers => (onceUnfold.run (some (.error error)) answers).trace
  | .message _ st, answers => (messageUnfold.run st answers).trace
  | .revision _ st, answers => (revisionUnfold.run st answers).trace

/-- How the stream shows the frames of a batch. -/
def view : DurableStream → StreamResponse → StreamResponse
  | .message _ st => (projectStreamResponse · st.historyLength)
  | _ => id

/-- Nothing is asked of a stream of a message; one of a task must be quiet after an error. -/
def QuietAfterError : DurableStream → List StreamAnswers → Prop
  | .revision _ st, answers => SmeshDurable.QuietAfterError st answers
  | _, _ => True

/-- The stream has read and handed out nothing yet. -/
def Fresh : DurableStream → Prop
  | .refusal _ => True
  | .message _ st => st.finished = false ∧ st.pending = []
  | .revision _ st => st.pending = []

end DurableStream

theorem preflightStreamError_fresh {c : StreamContext} {error : A2AError} {stream : DurableStream}
    (h : preflightStreamError c error = .ok stream) : stream.Fresh := by
  unfold preflightStreamError at h
  split at h
  · cases h
  · cases h
  · split at h
    · cases h
    · cases h
      trivial

theorem sendStreamingMessage_fresh {c : StreamContext} {a : SendAnswers} {stream : DurableStream}
    (h : sendStreamingMessage c a = .ok stream) : stream.Fresh := by
  unfold sendStreamingMessage at h
  split at h
  · cases h
  · split at h
    · exact preflightStreamError_fresh h
    · split at h
      · exact preflightStreamError_fresh h
      · cases h
        exact ⟨rfl, rfl⟩

theorem subscribeToTask_fresh {c : StreamContext} {taskId : String} {a : SubscribeAnswers}
    {stream : DurableStream} (h : subscribeToTask c taskId a = .ok stream) : stream.Fresh := by
  simp only [subscribeToTask, Transaction.bind_eq_ok] at h
  obtain ⟨-, -, -, -, -, -, -, -, captured, -, ⟨snapshot, cursor⟩, -, -, -, quotaLease, -, -, -,
    h⟩ := h
  cases cursor with
  | transcript messageId position =>
    cases h
    exact ⟨rfl, rfl⟩
  | taskRevision revision =>
    cases h
    rfl

/-- The handler returns the stream to some request. -/
def Returned (stream : DurableStream) : Prop :=
  (∃ c a, sendStreamingMessage c a = .ok stream) ∨
    ∃ c taskId a, subscribeToTask c taskId a = .ok stream

theorem Returned.fresh {stream : DurableStream} (h : Returned stream) : stream.Fresh := by
  rcases h with ⟨c, a, h⟩ | ⟨c, taskId, a, h⟩
  · exact sendStreamingMessage_fresh h
  · exact subscribeToTask_fresh h

/-- A refused stream is its error. -/
theorem refusal_gapless (error : A2AError) (answers : List StreamAnswers) :
    Gapless id (onceUnfold.run (some (.error error)) answers).trace := by
  have hinv : StreamInv id (fun _ => []) (· = some (.error error)) (· = none)
      (onceUnfold.run (some (.error error)) answers) := by
    apply Unfold.run_induction
    · exact .inl ⟨rfl, streaming_nil⟩
    · intro before answer after state _ hstate hinv
      simp only [StreamInv, hstate] at hinv
      rcases hinv with ⟨rfl, hstreaming⟩ | ⟨rfl, -, hgapless⟩
      · apply Streaming.after hstreaming
        exact ⟨rfl, .fail _ _ (by simp)⟩
      · exact hgapless.after_done
  exact hinv.gapless

/-- Every stream the handler returns is gapless for all answers after which it is quiet when it
has failed; that is asked of the streams of a task only. -/
theorem returned_stream_gapless_iff {stream : DurableStream} (hreturned : Returned stream)
    (answers : List StreamAnswers) :
    Gapless stream.view (stream.trace answers) ↔ stream.QuietAfterError answers := by
  have hfresh := hreturned.fresh
  cases stream with
  | refusal error => exact iff_of_true (refusal_gapless error answers) trivial
  | message snapshot st =>
      exact iff_of_true (messageUnfold_gapless hfresh.1 hfresh.2 answers) trivial
  | revision snapshot st => exact ⟨Gapless.quietAfterError, QuietAfterError.gapless hfresh⟩

/-! A subscription to the sample task whose events are read when it has completed with an
artifact, so that two frames come in one batch. -/

def sampleArtifact (artifactId : String) : Artifact :=
  { artifactId, name := none, description := none, parts := [Part.ofText "world"],
    metadata := none, extensions := none }

/-- A caller under a quota policy. -/
def meteredContext : StreamContext :=
  { quotaPolicy := true, authorization := true, localCompatibility := false,
    errorsBeforeStream := false }

def sampleSubscription : SubscribeAnswers :=
  { refused := none, driverFailure := none, tenant := none, requestCharge := .answered (.ok ()),
    snapshot := .ok (some (sampleTask, .taskRevision 1)), lease := .answered (.ok ()),
    egress := .answered (.ok ()) }

def sampleTail : DurableStream :=
  .revision sampleTask (streamFromTaskRevision meteredContext 1 true)

/-- The completed sample task with an artifact. -/
def sampleWithArtifact : Task :=
  { sampleCompleted "done" with artifacts := some [sampleArtifact "a-1"] }

/-- A turn in which a charge is answered as given. -/
def sampleAnswers (charge : Except A2AError Unit) : StreamAnswers :=
  { leaseFailure := none, egress := .answered charge
    transcript := .error (.internal "unused")
    events := .ok ⟨eventFrames (some sampleTask) sampleWithArtifact, true, 2⟩
    driverFailure := none, driverRunning := true }

theorem sampleTail_returned : Returned sampleTail :=
  .inr ⟨meteredContext, "t-1", sampleSubscription, rfl⟩

theorem sampleTail_gapless_iff :
    Returned sampleTail ∧
      (Gapless sampleTail.view (sampleTail.trace [sampleAnswers (.ok ()), sampleAnswers (.ok ())]) ↔
        sampleTail.QuietAfterError [sampleAnswers (.ok ()), sampleAnswers (.ok ())]) :=
  ⟨sampleTail_returned, returned_stream_gapless_iff sampleTail_returned _⟩

/-- The charge for the artifact is refused and the one for the status that follows is not: the
subscriber gets the error, and then the status. -/
theorem refused_charge_omits_frame :
    Returned sampleTail ∧
      items (sampleTail.trace [sampleAnswers (.ok ()),
          sampleAnswers (.error (.quotaExceeded "quota exceeded")), sampleAnswers (.ok ())]) =
        [.error (.quotaExceeded "quota exceeded"), .ok (statusFrame sampleWithArtifact)] ∧
      ¬ Gapless sampleTail.view (sampleTail.trace [sampleAnswers (.ok ()),
          sampleAnswers (.error (.quotaExceeded "quota exceeded")), sampleAnswers (.ok ())]) := by
  have hitems : items (sampleTail.trace [sampleAnswers (.ok ()),
          sampleAnswers (.error (.quotaExceeded "quota exceeded")), sampleAnswers (.ok ())]) =
        [.error (.quotaExceeded "quota exceeded"), .ok (statusFrame sampleWithArtifact)] := by
    decide
  refine ⟨sampleTail_returned, hitems, fun hgapless => ?_⟩
  have hstops := hgapless.stops [] _ _ hitems
  simp at hstops

end SmeshDurable
