import SmeshDurable.A2A.Types

/-!
# JSON form of protocol values

The serializers of the wire types. Hash maps are visited in an arbitrary order, so
an encoding takes a `HashOrder`. The length of an encoding does not depend on that
order, which is why `jsonBytes` needs none; the text does, except for values whose
maps all have at most one entry (`orderFree`).
-/

namespace SmeshDurable

/-- The order in which one serialization pass visits the entries of hash maps. -/
structure HashOrder where
  arrange : Metadata → List (String × Json)
  perm : ∀ m, (arrange m).Perm m.entries

/-- The pass that visits every map in key order. -/
def HashOrder.sorted : HashOrder := ⟨Metadata.entries, fun _ => .refl _⟩

/-- An object entry that is skipped when the value is absent. -/
def optionalField {α : Type} (key : String) (value : Option α) (encode : α → Json) :
    List (String × Json) :=
  match value with
  | none => []
  | some a => [(key, encode a)]

/-! ## Base64 -/

def base64Char (n : Nat) : Char :=
  if n < 26 then Char.ofNat (65 + n)
  else if n < 52 then Char.ofNat (71 + n)
  else if n < 62 then Char.ofNat (n - 4)
  else if n = 62 then '+' else '/'

/-- Standard base64 with padding. -/
def base64Encode : List UInt8 → List Char
  | [] => []
  | [a] => [base64Char (a.toNat / 4), base64Char (a.toNat % 4 * 16), '=', '=']
  | [a, b] =>
    [base64Char (a.toNat / 4), base64Char (a.toNat % 4 * 16 + b.toNat / 16),
      base64Char (b.toNat % 16 * 4), '=']
  | a :: b :: c :: rest =>
    base64Char (a.toNat / 4) :: base64Char (a.toNat % 4 * 16 + b.toNat / 16) ::
      base64Char (b.toNat % 16 * 4 + c.toNat / 64) :: base64Char (c.toNat % 64) ::
      base64Encode rest

/-! ## Serializers -/

def Role.toJson : Role → Json
  | .unspecified => .str "ROLE_UNSPECIFIED"
  | .user => .str "ROLE_USER"
  | .agent => .str "ROLE_AGENT"

/-- The wire name of a task state. -/
def TaskState.wireName : TaskState → String
  | .unspecified => "TASK_STATE_UNSPECIFIED"
  | .submitted => "TASK_STATE_SUBMITTED"
  | .working => "TASK_STATE_WORKING"
  | .completed => "TASK_STATE_COMPLETED"
  | .failed => "TASK_STATE_FAILED"
  | .canceled => "TASK_STATE_CANCELED"
  | .inputRequired => "TASK_STATE_INPUT_REQUIRED"
  | .rejected => "TASK_STATE_REJECTED"
  | .authRequired => "TASK_STATE_AUTH_REQUIRED"

def TaskState.toJson (state : TaskState) : Json := .str state.wireName

def strings (items : List String) : Json := .arr (items.map .str)

section Encoding

variable (o : HashOrder)

def Metadata.toJson (m : Metadata) : Json := .obj (o.arrange m)

def PartContent.toField : PartContent → String × Json
  | .text body => ("text", .str body)
  | .raw bytes => ("raw", .str (String.ofList (base64Encode bytes)))
  | .url link => ("url", .str link)
  | .data value => ("data", value)

def Part.toJson (part : Part) : Json :=
  .obj ([part.content.toField] ++ optionalField "filename" part.filename .str ++
    optionalField "mediaType" part.mediaType .str ++
    (if part.metadata.entries = [] then [] else [("metadata", part.metadata.toJson o)]))

def Message.toJson (message : Message) : Json :=
  .obj ([("messageId", .str message.messageId)] ++
    optionalField "contextId" message.contextId .str ++
    optionalField "taskId" message.taskId .str ++
    [("role", message.role.toJson), ("parts", .arr (message.parts.map (Part.toJson o)))] ++
    optionalField "metadata" message.metadata (Metadata.toJson o) ++
    optionalField "extensions" message.extensions strings ++
    optionalField "referenceTaskIds" message.referenceTaskIds strings)

def TaskStatus.toJson (status : TaskStatus) : Json :=
  .obj ([("state", status.state.toJson)] ++
    optionalField "message" status.message (Message.toJson o) ++
    optionalField "timestamp" status.timestamp (fun t => .str t.render))

def Artifact.toJson (artifact : Artifact) : Json :=
  .obj ([("artifactId", .str artifact.artifactId)] ++
    optionalField "name" artifact.name .str ++
    optionalField "description" artifact.description .str ++
    [("parts", .arr (artifact.parts.map (Part.toJson o)))] ++
    optionalField "metadata" artifact.metadata (Metadata.toJson o) ++
    optionalField "extensions" artifact.extensions strings)

def Task.toJson (task : Task) : Json :=
  .obj ([("id", .str task.id), ("contextId", .str task.contextId),
      ("status", task.status.toJson o)] ++
    optionalField "artifacts" task.artifacts (fun xs => .arr (xs.map (Artifact.toJson o))) ++
    optionalField "history" task.history (fun xs => .arr (xs.map (Message.toJson o))) ++
    optionalField "metadata" task.metadata (Metadata.toJson o))

def SendMessageResponse.toJson : SendMessageResponse → Json
  | .task t => .obj [("task", t.toJson o)]
  | .message m => .obj [("message", m.toJson o)]

def TaskStatusUpdateEvent.toJson (update : TaskStatusUpdateEvent) : Json :=
  .obj ([("taskId", .str update.taskId), ("contextId", .str update.contextId),
      ("status", update.status.toJson o)] ++
    optionalField "metadata" update.metadata (Metadata.toJson o))

def TaskArtifactUpdateEvent.toJson (update : TaskArtifactUpdateEvent) : Json :=
  .obj ([("taskId", .str update.taskId), ("contextId", .str update.contextId),
      ("artifact", update.artifact.toJson o)] ++
    optionalField "append" update.append .bool ++
    optionalField "lastChunk" update.lastChunk .bool ++
    optionalField "metadata" update.metadata (Metadata.toJson o))

def StreamResponse.toJson : StreamResponse → Json
  | .task t => .obj [("task", t.toJson o)]
  | .message m => .obj [("message", m.toJson o)]
  | .statusUpdate update => .obj [("statusUpdate", update.toJson o)]
  | .artifactUpdate update => .obj [("artifactUpdate", update.toJson o)]

end Encoding

/-! ## Lengths

The length of an encoding is that of the pass in key order. -/

def Task.jsonBytes (task : Task) : Nat := (task.toJson .sorted).size

def SendMessageResponse.jsonBytes (response : SendMessageResponse) : Nat :=
  (response.toJson .sorted).size

def StreamResponse.jsonBytes (frame : StreamResponse) : Nat := (frame.toJson .sorted).size

section Size

open Json

variable (o o' : HashOrder)

theorem Metadata.size_toJson (m : Metadata) : (m.toJson o).size = (m.toJson o').size :=
  size_obj_perm ((o.perm m).trans (o'.perm m).symm)

/-- Two objects whose entries have equal sizes have equal sizes. -/
theorem size_obj_congr {fields fields' : List (String × Json)}
    (h : fields.map fieldSize = fields'.map fieldSize) :
    size (.obj fields) = size (.obj fields') := by
  have hlen : fields.length = fields'.length := by
    simpa using congrArg List.length h
  rw [size_obj, size_obj, h, hlen]

theorem optionalField_fieldSize {α : Type} (key : String) (value : Option α)
    {encode encode' : α → Json} (h : ∀ a, (encode a).size = (encode' a).size) :
    (optionalField key value encode).map fieldSize =
      (optionalField key value encode').map fieldSize := by
  cases value <;> simp [optionalField, fieldSize, h]

theorem size_arr_congr {α : Type} (xs : List α) {encode encode' : α → Json}
    (h : ∀ a, (encode a).size = (encode' a).size) :
    size (.arr (xs.map encode)) = size (.arr (xs.map encode')) := by
  simp [size_arr, Function.comp_def, h]

theorem Part.size_toJson (part : Part) : (part.toJson o).size = (part.toJson o').size := by
  refine size_obj_congr ?_
  split
  · rfl
  · simp [fieldSize, part.metadata.size_toJson o o']

theorem Message.size_toJson (message : Message) :
    (message.toJson o).size = (message.toJson o').size := by
  refine size_obj_congr ?_
  simp only [List.map_append, List.map_cons, fieldSize,
    optionalField_fieldSize _ message.metadata (Metadata.size_toJson o o'),
    size_arr_congr message.parts (Part.size_toJson o o')]

theorem TaskStatus.size_toJson (status : TaskStatus) :
    (status.toJson o).size = (status.toJson o').size := by
  refine size_obj_congr ?_
  simp only [List.map_append, optionalField_fieldSize _ status.message (Message.size_toJson o o')]

theorem Artifact.size_toJson (artifact : Artifact) :
    (artifact.toJson o).size = (artifact.toJson o').size := by
  refine size_obj_congr ?_
  simp only [List.map_append, List.map_cons, fieldSize,
    optionalField_fieldSize _ artifact.metadata (Metadata.size_toJson o o'),
    size_arr_congr artifact.parts (Part.size_toJson o o')]

theorem Task.size_toJson (task : Task) : (task.toJson o).size = task.jsonBytes := by
  refine size_obj_congr ?_
  simp only [List.map_append, List.map_cons, fieldSize, task.status.size_toJson o .sorted,
    optionalField_fieldSize _ task.metadata (Metadata.size_toJson o .sorted),
    optionalField_fieldSize _ task.artifacts
      (fun xs => size_arr_congr xs (Artifact.size_toJson o .sorted)),
    optionalField_fieldSize _ task.history
      (fun xs => size_arr_congr xs (Message.size_toJson o .sorted))]

theorem SendMessageResponse.size_toJson (response : SendMessageResponse) :
    (response.toJson o).size = response.jsonBytes := by
  cases response with
  | task task =>
    refine size_obj_congr ?_
    simp [fieldSize, task.size_toJson o, task.size_toJson .sorted]
  | message message =>
    refine size_obj_congr ?_
    simp [fieldSize, message.size_toJson o .sorted]

theorem StreamResponse.size_toJson (frame : StreamResponse) :
    (frame.toJson o).size = frame.jsonBytes := by
  cases frame with
  | task task =>
    refine size_obj_congr ?_
    simp [fieldSize, task.size_toJson o, task.size_toJson .sorted]
  | message message =>
    refine size_obj_congr ?_
    simp [fieldSize, message.size_toJson o .sorted]
  | statusUpdate update =>
    refine size_obj_congr ?_
    have hupdate : (update.toJson o).size = (update.toJson .sorted).size := by
      refine size_obj_congr ?_
      simp only [List.map_append, List.map_cons, fieldSize, update.status.size_toJson o .sorted,
        optionalField_fieldSize _ update.metadata (Metadata.size_toJson o .sorted)]
    simp [fieldSize, hupdate]
  | artifactUpdate update =>
    refine size_obj_congr ?_
    have hupdate : (update.toJson o).size = (update.toJson .sorted).size := by
      refine size_obj_congr ?_
      simp only [List.map_append, List.map_cons, fieldSize, update.artifact.size_toJson o .sorted,
        optionalField_fieldSize _ update.metadata (Metadata.size_toJson o .sorted)]
    simp [fieldSize, hupdate]

/-- Wrapping a task as a response adds the nine bytes of the wrapper and its key. -/
@[simp] theorem SendMessageResponse.jsonBytes_task (task : Task) :
    (SendMessageResponse.task task).jsonBytes = task.jsonBytes + 9 := by
  have hkey : quotedSize "task" = 6 := by decide
  rw [SendMessageResponse.jsonBytes, SendMessageResponse.toJson, size_obj_singleton, hkey,
    task.size_toJson]
  omega

@[simp] theorem StreamResponse.jsonBytes_task (task : Task) :
    (StreamResponse.task task).jsonBytes = task.jsonBytes + 9 :=
  SendMessageResponse.jsonBytes_task task

end Size

/-! ## Values with one encoding -/

/-- A map with at most one entry is visited in only one order. -/
def Metadata.orderFree (m : Metadata) : Bool := m.entries.length ≤ 1

def Part.orderFree (part : Part) : Bool := part.metadata.orderFree

def Message.orderFree (message : Message) : Bool :=
  message.parts.all Part.orderFree && message.metadata.all Metadata.orderFree

def TaskStatus.orderFree (status : TaskStatus) : Bool := status.message.all Message.orderFree

def Artifact.orderFree (artifact : Artifact) : Bool :=
  artifact.parts.all Part.orderFree && artifact.metadata.all Metadata.orderFree

def Task.orderFree (task : Task) : Bool :=
  task.status.orderFree && task.artifacts.all (·.all Artifact.orderFree) &&
    task.history.all (·.all Message.orderFree) && task.metadata.all Metadata.orderFree

/-- Every hash map inside the frame has at most one entry. -/
def StreamResponse.orderFree : StreamResponse → Bool
  | .task t => t.orderFree
  | .message m => m.orderFree
  | .statusUpdate update => update.status.orderFree && update.metadata.all Metadata.orderFree
  | .artifactUpdate update =>
    update.artifact.orderFree && update.metadata.all Metadata.orderFree

section OrderFree

variable (o o' : HashOrder)

theorem Metadata.arrange_orderFree {m : Metadata} (h : m.orderFree = true) :
    o.arrange m = m.entries := by
  have hlen : m.entries.length ≤ 1 := by simpa [Metadata.orderFree] using h
  cases hentries : m.entries with
  | nil => exact List.perm_nil.mp (hentries ▸ o.perm m)
  | cons entry rest =>
    rw [hentries] at hlen
    obtain rfl : rest = [] := by
      cases rest with
      | nil => rfl
      | cons => simp at hlen
    exact List.perm_singleton.mp (hentries ▸ o.perm m)

theorem Metadata.toJson_orderFree {m : Metadata} (h : m.orderFree = true) :
    m.toJson o = m.toJson o' := by
  rw [Metadata.toJson, Metadata.toJson, arrange_orderFree o h, arrange_orderFree o' h]

theorem optionalField_congr {α : Type} (key : String) {value : Option α} {free : α → Bool}
    {encode encode' : α → Json} (h : ∀ a, free a = true → encode a = encode' a)
    (hfree : value.all free = true) :
    optionalField key value encode = optionalField key value encode' := by
  cases value with
  | none => rfl
  | some a => simp [optionalField, h a (by simpa using hfree)]

theorem map_congr_free {α : Type} {xs : List α} {free : α → Bool} {encode encode' : α → Json}
    (h : ∀ a, free a = true → encode a = encode' a) (hfree : xs.all free = true) :
    xs.map encode = xs.map encode' :=
  List.map_congr_left fun a ha => h a (List.all_eq_true.mp hfree a ha)

theorem Part.toJson_orderFree (part : Part) (h : part.orderFree = true) :
    part.toJson o = part.toJson o' := by
  rw [Part.toJson, Part.toJson, Metadata.toJson_orderFree o o' h]

theorem Message.toJson_orderFree (message : Message) (h : message.orderFree = true) :
    message.toJson o = message.toJson o' := by
  simp only [Message.orderFree, Bool.and_eq_true] at h
  rw [Message.toJson, Message.toJson, map_congr_free (Part.toJson_orderFree o o') h.1,
    optionalField_congr _ (fun _ => Metadata.toJson_orderFree o o') h.2]

theorem TaskStatus.toJson_orderFree (status : TaskStatus) (h : status.orderFree = true) :
    status.toJson o = status.toJson o' := by
  rw [TaskStatus.toJson, TaskStatus.toJson, optionalField_congr _ (Message.toJson_orderFree o o') h]

theorem Artifact.toJson_orderFree (artifact : Artifact) (h : artifact.orderFree = true) :
    artifact.toJson o = artifact.toJson o' := by
  simp only [Artifact.orderFree, Bool.and_eq_true] at h
  rw [Artifact.toJson, Artifact.toJson, map_congr_free (Part.toJson_orderFree o o') h.1,
    optionalField_congr _ (fun _ => Metadata.toJson_orderFree o o') h.2]

theorem Task.toJson_orderFree (task : Task) (h : task.orderFree = true) :
    task.toJson o = task.toJson o' := by
  simp only [Task.orderFree, Bool.and_eq_true] at h
  obtain ⟨⟨⟨hstatus, hartifacts⟩, hhistory⟩, hmetadata⟩ := h
  rw [Task.toJson, Task.toJson, TaskStatus.toJson_orderFree o o' _ hstatus,
    optionalField_congr _ (fun _ => Metadata.toJson_orderFree o o') hmetadata,
    optionalField_congr _
      (fun _ hx => congrArg Json.arr (map_congr_free (Artifact.toJson_orderFree o o') hx))
      hartifacts,
    optionalField_congr _
      (fun _ hx => congrArg Json.arr (map_congr_free (Message.toJson_orderFree o o') hx))
      hhistory]

/-- A frame without maps of two or more entries has only one encoding. -/
theorem StreamResponse.toJson_orderFree (frame : StreamResponse) (h : frame.orderFree = true) :
    frame.toJson o = frame.toJson o' := by
  cases frame with
  | task task => rw [toJson, toJson, Task.toJson_orderFree o o' task h]
  | message message => rw [toJson, toJson, Message.toJson_orderFree o o' message h]
  | statusUpdate update =>
    simp only [StreamResponse.orderFree, Bool.and_eq_true] at h
    rw [toJson, toJson, TaskStatusUpdateEvent.toJson, TaskStatusUpdateEvent.toJson,
      TaskStatus.toJson_orderFree o o' _ h.1,
      optionalField_congr _ (fun _ => Metadata.toJson_orderFree o o') h.2]
  | artifactUpdate update =>
    simp only [StreamResponse.orderFree, Bool.and_eq_true] at h
    rw [toJson, toJson, TaskArtifactUpdateEvent.toJson, TaskArtifactUpdateEvent.toJson,
      Artifact.toJson_orderFree o o' _ h.1,
      optionalField_congr _ (fun _ => Metadata.toJson_orderFree o o') h.2]

end OrderFree

end SmeshDurable
