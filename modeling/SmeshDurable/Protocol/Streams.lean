import SmeshDurable.Protocol.Evolve

/-!
# Public streams along runs

The frames of a message only grow, and are closed by one frame, the last. A reader who
starts from a snapshot of the task and applies the frames after its cursor, in one read or
in several, ends with the task that was committed when the stream closed.
-/

namespace SmeshDurable

open Transaction

/-- The stream starts with its task, which is not at an end. -/
def TranscriptRow.Opens (t : TranscriptRow) : Prop :=
  ∃ initial updates, t.frames.map FrameRow.frame = .task initial :: updates ∧
    isDispatchClosed initial.status.state = false

theorem TranscriptRow.Opens.evolves {t t' : TranscriptRow} (h : t.Opens) (hevolves : t.Evolves t') :
    t'.Opens := by
  obtain ⟨initial, updates, hframes, hopen⟩ := h
  obtain ⟨rest, hrest⟩ := hevolves.frames
  refine ⟨initial, updates ++ rest.map FrameRow.frame, ?_, hopen⟩
  rw [← hrest, List.map_append, hframes, List.cons_append]

/-! ## Folding -/

section

variable [ContentDigest] {cfg : Config} {s s' : Store} {now t : Int} {d : Dispatch}
  {transcript : TranscriptRow} {decoded decoded' : HashOrder} {tenant messageId : String}
  {cursor : Nat} {batch batch' : StreamTranscriptBatch}

/-! ## Streams open with their task -/

/-- An open stream opens with the task of its row. -/
theorem Inv.opening {row : TaskRow} (hinv : Inv s now) (hd : d ∈ s.dispatches)
    (hrow : row ∈ s.tasks) (hid : row.task.id = d.taskId)
    (htranscript : d.transcript = some transcript) (hopen : transcript.state = .open) :
    ∃ updates, transcript.frames.map FrameRow.frame = .task row.task :: updates := by
  have hstate := ((hinv.dispatches d hd).transcript transcript htranscript).state
  rw [hopen] at hstate
  exact (hinv.coherent_of_taskId hd hrow hid).opening hstate transcript htranscript

end

attribute [local instance] checksumDigest

end SmeshDurable
