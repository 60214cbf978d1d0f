import SmeshDurable.Library.Json
import SmeshDurable.Library.Rfc3339
import Mathlib.Data.List.Sort

/-!
# Agent-to-agent protocol values

The wire types of the task protocol: messages and their parts, task status, tasks,
artifacts, unary responses and stream frames. Metadata maps are kept as their
entries sorted by key, so that two maps are equal exactly when they hold the same
entries; the order in which a serializer happens to visit them is a separate
argument of the encoding. A part without metadata and a part with an empty
metadata map have the same wire form and are not distinguished.
-/

namespace SmeshDurable

inductive Role where
  | unspecified | user | agent
deriving DecidableEq, Repr

/-- The lifecycle state of a task. -/
inductive TaskState where
  | unspecified | submitted | working | completed | failed | canceled
  | inputRequired | rejected | authRequired
deriving DecidableEq, Repr

namespace TaskState

/-- States after which no further change is permitted. -/
def isTerminal : TaskState → Bool
  | completed | failed | canceled | rejected => true
  | _ => false

/-- The closed transition matrix of the task lifecycle. -/
def transitionAllowed (source target : TaskState) : Bool :=
  source == target ||
  match source with
  | unspecified => [submitted, failed, rejected].contains target
  | submitted =>
    [working, inputRequired, authRequired, completed, failed, canceled, rejected].contains target
  | working =>
    [inputRequired, authRequired, completed, failed, canceled, rejected].contains target
  | inputRequired | authRequired => [working, failed, canceled, rejected].contains target
  | completed | failed | canceled | rejected => false

end TaskState

/-- A task state closes a dispatch when it is terminal or hands control back to the
client. -/
def isDispatchClosed (state : TaskState) : Bool :=
  state.isTerminal || state == .inputRequired || state == .authRequired

/-- A string-keyed map of JSON values, as its entries in key order. -/
structure Metadata where
  entries : List (String × Json)
  sorted : (entries.map Prod.fst).Pairwise (· < ·)
deriving DecidableEq

/-- The empty metadata map. -/
def Metadata.empty : Metadata := ⟨[], List.Pairwise.nil⟩

inductive PartContent where
  | text (text : String)
  | raw (bytes : List UInt8)
  | url (url : String)
  | data (value : Json)
deriving DecidableEq

structure Part where
  content : PartContent
  filename : Option String
  mediaType : Option String
  metadata : Metadata
deriving DecidableEq

/-- A plain text part. -/
def Part.ofText (text : String) : Part := ⟨.text text, none, none, .empty⟩

structure Message where
  messageId : String
  contextId : Option String
  taskId : Option String
  role : Role
  parts : List Part
  metadata : Option Metadata
  extensions : Option (List String)
  referenceTaskIds : Option (List String)
deriving DecidableEq

structure TaskStatus where
  state : TaskState
  message : Option Message
  timestamp : Option Instant
deriving DecidableEq

structure Artifact where
  artifactId : String
  name : Option String
  description : Option String
  parts : List Part
  metadata : Option Metadata
  extensions : Option (List String)
deriving DecidableEq

structure Task where
  id : String
  contextId : String
  status : TaskStatus
  artifacts : Option (List Artifact)
  history : Option (List Message)
  metadata : Option Metadata
deriving DecidableEq

/-- The unary response to a sent message. -/
inductive SendMessageResponse where
  | task (task : Task)
  | message (message : Message)
deriving DecidableEq

structure TaskStatusUpdateEvent where
  taskId : String
  contextId : String
  status : TaskStatus
  metadata : Option Metadata
deriving DecidableEq

structure TaskArtifactUpdateEvent where
  taskId : String
  contextId : String
  artifact : Artifact
  append : Option Bool
  lastChunk : Option Bool
  metadata : Option Metadata
deriving DecidableEq

/-- One frame of a public stream. -/
inductive StreamResponse where
  | task (task : Task)
  | message (message : Message)
  | statusUpdate (update : TaskStatusUpdateEvent)
  | artifactUpdate (update : TaskArtifactUpdateEvent)
deriving DecidableEq

/-- The parts of a send-message request that admission reads. -/
structure SendMessageRequest where
  message : Message
  metadata : Option Metadata
deriving DecidableEq

end SmeshDurable
