import SmeshDurable.Store.Cancellation

/-!
# Sizes of derived documents

What an operation derives from a task that fits is bounded by the task: the status frame of
its stream, and the payload that dispatches a message of its history.
-/

namespace SmeshDurable

open Json Transaction

/-- The status of a task that has a message is shorter than the task. -/
theorem statusFrame_jsonBytes_le {task : Task} {message : Message} {earlier : List Message}
    (h : task.history = some (message :: earlier)) :
    (statusFrame task).jsonBytes ≤ task.jsonBytes := by
  have hkeys : quotedSize "statusUpdate" = 14 ∧ quotedSize "taskId" = 8 ∧
      quotedSize "id" = 4 ∧ quotedSize "history" = 9 ∧ quotedSize "messageId" = 11 := by
    decide
  obtain ⟨hupdate, htaskId, hid, hhistory, hmessageId⟩ := hkeys
  -- the message alone outweighs the wrapper of the update and its longer key
  have hmessage : 13 ≤ (message.toJson .sorted).size := by
    rw [Message.toJson, size_obj]
    simp only [List.map_append, List.sum_append, List.map_cons, List.sum_cons, fieldSize,
      hmessageId]
    omega
  rw [StreamResponse.jsonBytes, statusFrame, StreamResponse.toJson, size_obj_singleton,
    TaskStatusUpdateEvent.toJson, size_obj, Task.jsonBytes, Task.toJson, size_obj, h]
  simp only [optionalField, List.append_nil, List.map_append, List.sum_append, List.map_cons,
    List.map_nil, List.sum_cons, List.sum_nil, List.length_append, List.length_cons,
    List.length_nil, fieldSize, size_arr, hupdate, htaskId, hid, hhistory]
  omega

theorem encodeFrames_size {o : HashOrder} (frames : List StreamResponse) :
    (encodeFrames o frames).utf8ByteSize =
      (frames.map StreamResponse.jsonBytes).sum + (frames.length - 1) + 2 := by
  have hsize := size_arr (frames.map (StreamResponse.toJson o))
  rw [List.map_map, List.length_map] at hsize
  have hframes : frames.map (size ∘ StreamResponse.toJson o) =
      frames.map StreamResponse.jsonBytes :=
    List.map_congr_left fun frame _ => frame.size_toJson o
  rw [hframes] at hsize
  exact hsize

/-! ## Payloads -/

/-- A text part outweighs its quoted text and a newline. -/
theorem Part.quotedSize_le {part : Part} {body : String} (h : part.content = .text body) :
    quotedSize body + 9 ≤ (part.toJson .sorted).size := by
  have hkey : quotedSize "text" = 6 := by decide
  rw [Part.toJson, size_obj, h]
  simp only [PartContent.toField, List.cons_append, List.nil_append, List.map_cons, List.sum_cons,
    fieldSize, size_str, hkey]
  omega

theorem extractTextLoop_quotedSize_le {limit : Nat} {parts : List Part} {output text : String}
    {first : Bool} (h : extractTextLoop limit parts output first = .ok text) :
    quotedSize text ≤ quotedSize output + (parts.map fun part => (part.toJson .sorted).size).sum := by
  induction parts generalizing output first with
  | nil =>
    obtain rfl := Except.ok.inj h
    simp
  | cons part parts ih =>
    rw [extractTextLoop] at h
    split at h
    case h_1 body hcontent =>
      by_cases hlarge :
        limit < output.utf8ByteSize + (if first then 0 else 1) + body.utf8ByteSize
      · rw [if_pos hlarge] at h
        cases h
      · rw [if_neg hlarge] at h
        have hnewline : quotedSize "\n" = 4 := by decide
        have hrest := ih h
        have hpart := Part.quotedSize_le hcontent
        -- the part is written after the output, which may get a newline first
        have hjoined := quotedSize_append (if first then output else output ++ "\n") body
        have hseparated :
            quotedSize (if first then output else output ++ "\n") ≤ quotedSize output + 2 := by
          by_cases hfirst : first = true
          · rw [if_pos hfirst]
            omega
          · rw [if_neg hfirst]
            have := quotedSize_append output "\n"
            omega
        rw [List.map_cons, List.sum_cons]
        omega
    case h_2 => cases h

/-- The text a message dispatches is shorter than the message. -/
theorem fromA2a_quotedSize_le {taskId contextId : String} {message : Message} {limit : Nat}
    {payload : MeshRequest} (h : MeshRequest.fromA2a taskId contextId message limit = .ok payload) :
    payload = { protocol := "a2a-v1", taskId, contextId, text := payload.text } ∧
      quotedSize payload.text ≤
        2 + (message.parts.map fun part => (part.toJson .sorted).size).sum := by
  simp only [MeshRequest.fromA2a, extractText, bind_eq_ok] at h
  obtain ⟨text, ⟨output, hloop, htext⟩, h⟩ := h
  obtain rfl := Except.ok.inj h
  split at htext
  case isTrue => cases htext
  case isFalse =>
    obtain rfl := Except.ok.inj htext
    have hempty : quotedSize "" = 2 := by decide
    exact ⟨rfl, hempty ▸ extractTextLoop_quotedSize_le hloop⟩

/-- The payload of a message is shorter than a task whose history ends with it. -/
theorem fromA2a_jsonBytes_le {task : Task} {message : Message} {earlier : List Message}
    {limit : Nat} {payload : MeshRequest} (hhistory : task.history = some (earlier ++ [message]))
    (h : MeshRequest.fromA2a task.id task.contextId message limit = .ok payload) :
    payload.jsonBytes ≤ task.jsonBytes := by
  have hkeys : quotedSize "protocol" = 10 ∧ quotedSize "a2a-v1" = 8 ∧
      quotedSize "task_id" = 9 ∧ quotedSize "context_id" = 12 ∧ quotedSize "text" = 6 ∧
      quotedSize "messageId" = 11 ∧ quotedSize "role" = 6 ∧ quotedSize "parts" = 7 ∧
      quotedSize "id" = 4 ∧ quotedSize "contextId" = 11 ∧ quotedSize "status" = 8 ∧
      quotedSize "history" = 9 := by decide
  obtain ⟨hprotocol, hversion, htaskId, hcontext_id, htext, hmessageId, hrole, hparts, hid,
    hcontextId, hstatus, hhistoryKey⟩ := hkeys
  obtain ⟨hpayload, hbound⟩ := fromA2a_quotedSize_le h
  have hnamed := two_le_quotedSize message.messageId
  -- the message is longer than its parts, and the task is longer than the message
  have hmessage : 24 + (message.parts.map fun part => (part.toJson .sorted).size).sum ≤
      (message.toJson .sorted).size := by
    rw [Message.toJson, size_obj]
    simp only [List.map_append, List.sum_append, List.map_cons, List.map_nil, List.sum_cons,
      List.sum_nil, List.length_append, List.length_cons, List.length_nil, fieldSize, size_arr,
      List.map_map, Function.comp_def, size_str, hmessageId, hrole, hparts]
    omega
  rw [MeshRequest.jsonBytes, MeshRequest.encode, ← size, hpayload, MeshRequest.toJson, size_obj,
    Task.jsonBytes, Task.toJson, size_obj, hhistory]
  simp only [optionalField, List.map_append, List.sum_append, List.map_cons,
    List.map_nil, List.sum_cons, List.sum_nil, List.length_append, List.length_cons,
    List.length_nil, fieldSize, size_arr, size_str, hprotocol, hversion, htaskId, hcontext_id,
    htext, hid, hcontextId, hstatus, hhistoryKey]
  omega

end SmeshDurable
