import Taskboard.Model

/-!
# Requests, events and errors

The requests of `internal/model`, what a request hash is taken of, the events the
service writes and the errors it returns.

A request hash is the SHA-256 of the request's encoding. It is only ever compared with
another such hash of the same operation and is treated as injective, so the model keeps
the encoded request itself as the hash (`Digest`).
-/

namespace Taskboard

structure StartRequest where
  title : String
  type : String := ""
  visibility : String := ""
  summary : String := ""
  «section» : String := ""
  project : String := ""
  repository : String := ""
  priority : String := ""
  dueDate : String := ""
  deferUntil : String := ""
  recurrence : String := ""
  checklist : List String
  agent : String := ""
  client : String := ""
  agentSessionKey : String := ""
  forceNew : Bool := false
  idempotencyKey : String := ""
  deriving DecidableEq

structure CreateRequest where
  title : String
  type : String := ""
  visibility : String := ""
  summary : String := ""
  «section» : String := ""
  project : String := ""
  repository : String := ""
  priority : String := ""
  dueDate : String := ""
  deferUntil : String := ""
  recurrence : String := ""
  checklist : List String := []
  requirements : List String := []
  forceNew : Bool := false
  idempotencyKey : String := ""
  deriving DecidableEq

structure ClaimRequest where
  expectedVersion : Int
  agent : String := ""
  client : String := ""
  agentSessionKey : String := ""
  idempotencyKey : String := ""
  deriving DecidableEq

/-- A field left out of an update is `none`, or the empty string where the source uses
one for that. -/
structure UpdateRequest where
  expectedVersion : Int
  runID : String := ""
  status : String := ""
  title : Option String := none
  type : Option String := none
  visibility : Option String := none
  summary : Option String := none
  owner : Option String := none
  «section» : Option String := none
  project : Option String := none
  repository : Option String := none
  priority : Option String := none
  dueDate : Option String := none
  deferUntil : Option String := none
  recurrence : Option String := none
  reviewed : Bool := false
  checklist : Option (List String) := none
  currentNote : Option String := none
  blocker : Option String := none
  waitingFor : Option String := none
  currentItemID : String := ""
  completeItemIDs : List String := []
  skipItemIDs : List String := []
  skipReason : String := ""
  addItems : List String := []
  duplicateOf : Option String := none
  idempotencyKey : String := ""
  deriving DecidableEq

structure MoveRequest where
  expectedVersion : Int
  direction : String
  deriving DecidableEq

structure RenameRunRequest where
  expectedVersion : Int
  callsign : String
  deriving DecidableEq

structure AddTaskDependencyRequest where
  blockedByTaskID : String
  expectedVersion : Int
  deriving DecidableEq

structure SetTaskRequirementsRequest where
  requirements : List String
  expectedVersion : Int
  deriving DecidableEq

structure AdvertiseWorkerRequest where
  capabilities : List String := []
  descriptions : List (String × String) := []
  capacity : Int := 0
  ttlSeconds : Int := 0
  deriving DecidableEq

structure AddMessageRequest where
  authorRunID : String := ""
  targetRunID : String := ""
  kind : String
  body : String
  replyToID : String := ""
  supersedesID : String := ""
  requiresAck : Bool := false
  idempotencyKey : String := ""
  deriving DecidableEq

structure CreateEscalationRequest where
  runID : String
  expectedVersion : Int
  question : String
  options : List String := []
  recommendation : String := ""
  blocking : Bool
  answerers : List String := []
  expiresIn : Int := 0
  idempotencyKey : String := ""
  deriving DecidableEq

structure ResolveEscalationRequest where
  expectedVersion : Int
  answer : String := ""
  selectedOption : String := ""
  idempotencyKey : String := ""
  deriving DecidableEq

structure CreateRunControlRequest where
  targetRunID : String
  kind : String
  reason : String := ""
  expectedVersion : Int
  idempotencyKey : String := ""
  deriving DecidableEq

structure UpdateRunControlRequest where
  status : String
  outcomeNote : String := ""
  expectedVersion : Int := 0
  idempotencyKey : String := ""
  deriving DecidableEq

structure ReviewRequeueRequest where
  targetRunID : String
  expectedVersion : Int
  reviewNote : String
  deriving DecidableEq

structure AddTaskReferenceRequest where
  runID : String := ""
  kind : String
  label : String
  locator : String := ""
  url : String := ""
  idempotencyKey : String := ""
  deriving DecidableEq

structure AddRunHandoffRequest where
  runID : String
  kind : String := ""
  lastCompletedStep : String := ""
  worktree : String := ""
  branch : String := ""
  commits : List String := []
  pullRequests : List String := []
  validation : List String := []
  reviewFindings : List String := []
  blocker : String := ""
  nextAction : String := ""
  idempotencyKey : String := ""
  deriving DecidableEq

structure CreateCompletionRequirementRequest where
  kind : String
  label : String
  required : Bool
  expectedVersion : Int
  deriving DecidableEq

structure SubmitCompletionEvidenceRequest where
  runID : String := ""
  referenceID : String := ""
  note : String := ""
  idempotencyKey : String := ""
  deriving DecidableEq

structure ReviewCompletionRequest where
  status : String
  evidenceID : String := ""
  note : String := ""
  separationOverride : Bool := false
  separationOverrideReason : String := ""
  idempotencyKey : String := ""
  expectedVersion : Int
  deriving DecidableEq

structure RecordUsageRequest where
  runID : String
  provider : String := ""
  model : String := ""
  inputTokens : Int
  outputTokens : Int
  estimatedCostMicros : Int
  idempotencyKey : String := ""
  deriving DecidableEq

structure MessageReceiptRequest where
  observedMessageIDs : List String := []
  acknowledgedMessageIDs : List String := []
  idempotencyKey : String := ""
  deriving DecidableEq

structure DiscussionMessageRequest where
  body : String
  idempotencyKey : String := ""
  deriving DecidableEq

/-- What a request hash is taken of, operation by operation. -/
inductive Digest where
  | start (request : StartRequest)
  | create (request : CreateRequest)
  | claim (taskID : String) (request : ClaimRequest)
  | update (taskID : String) (request : UpdateRequest)
  | addMessage (taskID : String) (request : AddMessageRequest)
  | recordReceipts (taskID runID : String) (request : MessageReceiptRequest)
  | createEscalation (taskID : String) (request : CreateEscalationRequest)
  | resolveEscalation (taskID escalationID delegatedBy : String)
      (request : ResolveEscalationRequest)
  | createRunControl (taskID : String) (request : CreateRunControlRequest)
  | updateRunControl (controlID : String) (request : UpdateRunControlRequest)
  | addReference (taskID : String) (request : AddTaskReferenceRequest)
  | addHandoff (taskID : String) (request : AddRunHandoffRequest)
  | submitEvidence (taskID requirementID : String)
      (request : SubmitCompletionEvidenceRequest)
  | reviewCompletion (taskID requirementID : String) (request : ReviewCompletionRequest)
  | recordUsage (taskID : String) (request : RecordUsageRequest)
  | discussionMessage (discussionID body : String)
  deriving DecidableEq

/-- A value in an event's payload. The hash of a request that was never hashed is the
empty string, here `digest none`. -/
inductive PayloadValue where
  | text (value : String)
  | number (value : Int)
  | flag (value : Bool)
  | texts (values : List String)
  | digest (hash : Option Digest)
  deriving DecidableEq

/-- An event's payload. The first entry of a name is the one that counts. -/
abbrev Payload := List (String × PayloadValue)

/-- `mergePayload`: entries of `extra` replace those of `base`. -/
def mergePayload (base extra : Payload) : Payload :=
  extra ++ base

/-- A row of `events`. -/
structure Event where
  id : String
  taskID : String
  runID : String := ""
  kind : String
  actor : String
  message : String := ""
  payload : Payload := []
  createdAt : Instant
  deriving DecidableEq

/-- An open task that resembles one about to be recorded. -/
structure DuplicateCandidate where
  taskID : String
  title : String
  status : TaskStatus
  owner : String
  repository : String
  version : Int
  deriving DecidableEq

/-- The errors of the service. A text with placeholders keeps them and lists the values
that fill them. -/
inductive ServiceError where
  | conflict (text : String)
  | versionConflict (current expected : Int) (hint : String)
  | duplicateCandidates (candidates : List DuplicateCandidate)
  | forbidden (text : String) (values : List String)
  | validation (text : String) (values : List String)
  | rateLimit (text : String) (limit : Int)
  | notFound
  | database (text : String)
  deriving DecidableEq

/-- `ErrForbidden` with no further text. -/
def ErrForbidden : ServiceError := .forbidden "" []

/-- `ErrConflict` with no further text. -/
def ErrConflict : ServiceError := .conflict ""

/-- `ErrValidation` with a fixed text. -/
def ErrValidation (text : String) : ServiceError := .validation text []

/-- Names the capability an action needs. -/
def missingCapability (capability action : String) : ServiceError :=
  .forbidden "the %s capability is required to %s" [capability, action]

end Taskboard
