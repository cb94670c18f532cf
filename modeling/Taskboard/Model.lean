import Mathlib.Logic.Basic

/-!
# Records of the board

The data types of `internal/model`: the enumerations, the rows the database keeps and
the requests the service receives.

* An instant is a number of nanoseconds since the Unix epoch. The code stores it as
  text; how that text compares is the subject of `Timestamps`.
* A field the code leaves as a free string until it is validated (a requested status,
  a visibility, a priority) is a string in the request and an enumeration in the row.
* Fields tagged as not part of a request's encoding, which the service fills in
  itself, are arguments of the operation and not fields of the request.
-/

namespace Taskboard

/-- Nanoseconds since the Unix epoch. -/
abbrev Instant := Int

/-- The zero value of a time: midnight of the first day of year 1. -/
def zeroTime : Instant := -62135596800 * 1000000000

/-- A number of nanoseconds. -/
abbrev Duration := Int

/-- `time.Second`. -/
def second : Duration := 1000000000

/-- `time.Minute`. -/
def minute : Duration := 60 * second

/-- `time.Hour`. -/
def hour : Duration := 60 * minute

inductive TaskStatus where
  | queued | active | waiting | blocked | stale | done | cancelled
  deriving DecidableEq

inductive TaskType where
  | personal | work
  deriving DecidableEq

inductive TaskVisibility where
  | «private» | team | agent
  deriving DecidableEq

inductive Priority where
  | low | normal | high | urgent
  deriving DecidableEq

inductive ItemStatus where
  | todo | active | done | skipped
  deriving DecidableEq

/-- The status a string names; `IsTaskStatus` is that it names one. -/
def TaskStatus.ofString? : String → Option TaskStatus
  | "queued" => some .queued
  | "active" => some .active
  | "waiting" => some .waiting
  | "blocked" => some .blocked
  | "stale" => some .stale
  | "done" => some .done
  | "cancelled" => some .cancelled
  | _ => none

def TaskStatus.toString : TaskStatus → String
  | .queued => "queued"
  | .active => "active"
  | .waiting => "waiting"
  | .blocked => "blocked"
  | .stale => "stale"
  | .done => "done"
  | .cancelled => "cancelled"

/-- The type a string names; `IsTaskType` is that it names one. -/
def TaskType.ofString? : String → Option TaskType
  | "personal" => some .personal
  | "work" => some .work
  | _ => none

def TaskType.toString : TaskType → String
  | .personal => "personal"
  | .work => "work"

/-- The visibility a string names; `IsTaskVisibility` is that it names one. -/
def TaskVisibility.ofString? : String → Option TaskVisibility
  | "private" => some .private
  | "team" => some .team
  | "agent" => some .agent
  | _ => none

def TaskVisibility.toString : TaskVisibility → String
  | .private => "private"
  | .team => "team"
  | .agent => "agent"

/-- The priority a string names; `IsPriority` is that it names one. -/
def Priority.ofString? : String → Option Priority
  | "low" => some .low
  | "normal" => some .normal
  | "high" => some .high
  | "urgent" => some .urgent
  | _ => none

/-- The statuses in which a task's work is over. -/
def TaskStatus.terminal (status : TaskStatus) : Bool :=
  status = .done ∨ status = .cancelled

/-- A row of `tasks`. -/
structure Task where
  id : String
  title : String
  summary : String := ""
  type : TaskType := .personal
  visibility : TaskVisibility := .team
  createdBy : String := ""
  lastEditedBy : String := ""
  «section» : String := "General"
  project : String := ""
  repository : String := ""
  priority : Priority := .normal
  dueDate : String := ""
  deferUntil : String := ""
  recurrence : String := ""
  sortOrder : Int := 0
  reviewedAt : Option Instant := none
  status : TaskStatus
  owner : String := ""
  currentNote : String := ""
  blocker : String := ""
  waitingFor : String := ""
  version : Int := 1
  createdAt : Instant
  updatedAt : Instant
  completedAt : Option Instant := none
  scheduleID : String := ""
  duplicateOf : Option String := none
  deriving DecidableEq

/-- A row of `checklist_items`. -/
structure ChecklistItem where
  id : String
  taskID : String
  label : String
  status : ItemStatus
  position : Int
  required : Bool := true
  note : String := ""
  updatedAt : Instant
  deriving DecidableEq

/-- A row of `agent_runs`. Its status comes from the task statuses. -/
structure AgentRun where
  id : String
  taskID : String
  sessionID : String := ""
  agent : String
  client : String := ""
  callsign : String := ""
  status : TaskStatus
  leaseExpires : Instant
  lastHeartbeat : Instant
  startedAt : Instant
  endedAt : Option Instant := none
  deriving DecidableEq

/-- A row of `agent_sessions`. SHA-256 is treated as injective: `keyHash` is the key
material itself. -/
structure AgentSession where
  id : String
  agent : String
  client : String
  keyHash : String
  callsign : String
  createdAt : Instant
  updatedAt : Instant
  deriving DecidableEq

/-- A row of `task_dependencies`. -/
structure TaskDependency where
  taskID : String
  blockedByTaskID : String
  createdBy : String
  createdAt : Instant
  deriving DecidableEq

/-- A row of `task_requirements`. -/
structure TaskRequirement where
  taskID : String
  requirement : String
  createdBy : String
  createdAt : Instant
  deriving DecidableEq

/-- A row of `worker_advertisements`. -/
structure WorkerAdvertisement where
  principal : String
  capabilities : List String
  descriptions : List (String × String)
  capacity : Int
  updatedAt : Instant
  expiresAt : Instant
  deriving DecidableEq

inductive MessageKind where
  | note | instruction | question | answer
  deriving DecidableEq

/-- The kind a string names; `IsMessageKind` is that it names one. -/
def MessageKind.ofString? : String → Option MessageKind
  | "note" => some .note
  | "instruction" => some .instruction
  | "question" => some .question
  | "answer" => some .answer
  | _ => none

def MessageKind.toString : MessageKind → String
  | .note => "note"
  | .instruction => "instruction"
  | .question => "question"
  | .answer => "answer"

/-- A row of `task_messages`. -/
structure TaskMessage where
  id : String
  taskID : String
  author : String
  authorRunID : String := ""
  targetRunID : String := ""
  kind : MessageKind
  body : String
  replyToID : String := ""
  supersedesID : String := ""
  requiresAck : Bool := false
  createdAt : Instant
  deriving DecidableEq

/-- A row of `message_receipts`. -/
structure MessageReceipt where
  messageID : String
  runID : String
  observer : String
  observedAt : Instant
  acknowledgedAt : Option Instant := none
  deriving DecidableEq

inductive EscalationStatus where
  | «open» | answered | expired
  deriving DecidableEq

def EscalationStatus.toString : EscalationStatus → String
  | .open => "open"
  | .answered => "answered"
  | .expired => "expired"

/-- A row of `task_escalations`. The status `expired` is derived on reading and never
stored. -/
structure TaskEscalation where
  id : String
  taskID : String
  runID : String
  questionMessageID : String
  answerMessageID : String := ""
  blocking : Bool
  options : List String := []
  recommendation : String := ""
  selectedOption : String := ""
  status : EscalationStatus
  answerers : List String := []
  expiresAt : Option Instant := none
  resolvedBy : String := ""
  delegatedBy : String := ""
  createdAt : Instant
  resolvedAt : Option Instant := none
  deriving DecidableEq

inductive RunControlKind where
  | pause | cancel | resume | retry
  deriving DecidableEq

/-- The kind a string names; `isRunControlKind` is that it names one. -/
def RunControlKind.ofString? : String → Option RunControlKind
  | "pause" => some .pause
  | "cancel" => some .cancel
  | "resume" => some .resume
  | "retry" => some .retry
  | _ => none

def RunControlKind.toString : RunControlKind → String
  | .pause => "pause"
  | .cancel => "cancel"
  | .resume => "resume"
  | .retry => "retry"

inductive RunControlStatus where
  | requested | acknowledged | accepted | rejected | completed | expired
  deriving DecidableEq

def RunControlStatus.ofString? : String → Option RunControlStatus
  | "requested" => some .requested
  | "acknowledged" => some .acknowledged
  | "accepted" => some .accepted
  | "rejected" => some .rejected
  | "completed" => some .completed
  | "expired" => some .expired
  | _ => none

def RunControlStatus.toString : RunControlStatus → String
  | .requested => "requested"
  | .acknowledged => "acknowledged"
  | .accepted => "accepted"
  | .rejected => "rejected"
  | .completed => "completed"
  | .expired => "expired"

/-- The statuses of a control that is still to be decided or carried out. -/
def RunControlStatus.isOpen (status : RunControlStatus) : Bool :=
  status = .requested ∨ status = .acknowledged ∨ status = .accepted

/-- A row of `run_control_requests`. -/
structure RunControlRequest where
  id : String
  taskID : String
  targetRunID : String
  targetAgent : String
  kind : RunControlKind
  status : RunControlStatus
  requestedBy : String
  reason : String := ""
  outcomeNote : String := ""
  taskVersion : Int
  createdAt : Instant
  updatedAt : Instant
  expiresAt : Instant
  acknowledgedAt : Option Instant := none
  decidedAt : Option Instant := none
  completedAt : Option Instant := none
  deriving DecidableEq

inductive ReferenceKind where
  | linear | repository | worktree | branch | commit | pullRequest | ciRun | deployment
  | screenshot | review | transcript
  deriving DecidableEq

/-- The kind a string names; `isReferenceKind` is that it names one. -/
def ReferenceKind.ofString? : String → Option ReferenceKind
  | "linear" => some .linear
  | "repository" => some .repository
  | "worktree" => some .worktree
  | "branch" => some .branch
  | "commit" => some .commit
  | "pull_request" => some .pullRequest
  | "ci_run" => some .ciRun
  | "deployment" => some .deployment
  | "screenshot" => some .screenshot
  | "review" => some .review
  | "transcript" => some .transcript
  | _ => none

def ReferenceKind.toString : ReferenceKind → String
  | .linear => "linear"
  | .repository => "repository"
  | .worktree => "worktree"
  | .branch => "branch"
  | .commit => "commit"
  | .pullRequest => "pull_request"
  | .ciRun => "ci_run"
  | .deployment => "deployment"
  | .screenshot => "screenshot"
  | .review => "review"
  | .transcript => "transcript"

inductive ReferenceProvenance where
  | human | agent
  deriving DecidableEq

/-- A row of `task_references`. -/
structure TaskReference where
  id : String
  taskID : String
  runID : String := ""
  kind : ReferenceKind
  label : String
  locator : String := ""
  url : String := ""
  createdBy : String
  provenance : ReferenceProvenance
  createdAt : Instant
  deriving DecidableEq

inductive HandoffKind where
  | checkpoint | final | stale
  deriving DecidableEq

def HandoffKind.toString : HandoffKind → String
  | .checkpoint => "checkpoint"
  | .final => "final"
  | .stale => "stale"

/-- A row of `run_handoffs`. -/
structure RunHandoff where
  id : String
  taskID : String
  runID : String
  kind : HandoffKind
  lastCompletedStep : String := ""
  worktree : String := ""
  branch : String := ""
  commits : List String := []
  pullRequests : List String := []
  validation : List String := []
  reviewFindings : List String := []
  blocker : String := ""
  nextAction : String := ""
  createdBy : String
  createdAt : Instant
  deriving DecidableEq

inductive CompletionRequirementKind where
  | pullRequest | greenCI | validation | resolvedReview | deployment | humanApproval
  | custom
  deriving DecidableEq

/-- The kind a string names; `isRequirementKind` is that it names one. -/
def CompletionRequirementKind.ofString? : String → Option CompletionRequirementKind
  | "pull_request" => some .pullRequest
  | "green_ci" => some .greenCI
  | "validation" => some .validation
  | "resolved_review" => some .resolvedReview
  | "deployment" => some .deployment
  | "human_approval" => some .humanApproval
  | "custom" => some .custom
  | _ => none

def CompletionRequirementKind.toString : CompletionRequirementKind → String
  | .pullRequest => "pull_request"
  | .greenCI => "green_ci"
  | .validation => "validation"
  | .resolvedReview => "resolved_review"
  | .deployment => "deployment"
  | .humanApproval => "human_approval"
  | .custom => "custom"

inductive CompletionRequirementStatus where
  | pending | satisfied | waived
  deriving DecidableEq

def CompletionRequirementStatus.ofString? :
    String → Option CompletionRequirementStatus
  | "pending" => some .pending
  | "satisfied" => some .satisfied
  | "waived" => some .waived
  | _ => none

def CompletionRequirementStatus.toString : CompletionRequirementStatus → String
  | .pending => "pending"
  | .satisfied => "satisfied"
  | .waived => "waived"

inductive CompletionEvidenceStatus where
  | submitted | verified | rejected
  deriving DecidableEq

/-- A row of `completion_requirements`. -/
structure CompletionRequirement where
  id : String
  taskID : String
  kind : CompletionRequirementKind
  label : String
  required : Bool
  status : CompletionRequirementStatus
  createdBy : String
  verifiedBy : String := ""
  waiverReason : String := ""
  createdAt : Instant
  updatedAt : Instant
  verifiedAt : Option Instant := none
  deriving DecidableEq

/-- A row of `completion_evidence`. -/
structure CompletionEvidence where
  id : String
  requirementID : String
  taskID : String
  runID : String := ""
  referenceID : String := ""
  note : String := ""
  status : CompletionEvidenceStatus
  submittedBy : String
  reviewedBy : String := ""
  reviewNote : String := ""
  submittedAt : Instant
  reviewedAt : Option Instant := none
  deriving DecidableEq

/-- A row of `usage_records`. -/
structure UsageRecord where
  id : String
  taskID : String
  runID : String
  provider : String := ""
  model : String := ""
  inputTokens : Int
  outputTokens : Int
  estimatedCostMicros : Int
  recordedBy : String
  createdAt : Instant
  deriving DecidableEq

inductive DiscussionStatus where
  | requested | active | ended
  deriving DecidableEq

def DiscussionStatus.toString : DiscussionStatus → String
  | .requested => "requested"
  | .active => "active"
  | .ended => "ended"

/-- A row of `task_discussions`. -/
structure TaskDiscussion where
  id : String
  taskID : String
  controller : String
  status : DiscussionStatus
  agentStatus : String := ""
  requestedBy : String
  endReason : String := ""
  createdAt : Instant
  startedAt : Option Instant := none
  lastActivityAt : Instant
  endedAt : Option Instant := none
  deriving DecidableEq

/-- A row of `task_discussion_messages`. -/
structure DiscussionMessage where
  id : String
  discussionID : String
  taskID : String
  author : String
  role : String
  body : String
  createdAt : Instant
  deriving DecidableEq

inductive SessionAction where
  | «open» | resume
  deriving DecidableEq

inductive SessionRequestStatus where
  | requested | acknowledged | completed | rejected
  deriving DecidableEq

def SessionRequestStatus.toString : SessionRequestStatus → String
  | .requested => "requested"
  | .acknowledged => "acknowledged"
  | .completed => "completed"
  | .rejected => "rejected"

/-- A row of `session_bridge_requests`. -/
structure SessionBridgeRequest where
  id : String
  taskID : String
  runID : String
  controller : String
  action : SessionAction
  status : SessionRequestStatus
  requestedBy : String
  outcomeNote : String := ""
  createdAt : Instant
  updatedAt : Instant
  deriving DecidableEq

inductive ScheduleOverlap where
  | skip | allow
  deriving DecidableEq

/-- What a run of a schedule came to. -/
inductive ScheduleOutcome where
  | created | skipped | stopped
  deriving DecidableEq

/-- A row of `task_schedules`. The times of runs are in whole seconds. -/
structure TaskSchedule where
  id : String
  name : String
  enabled : Bool
  cron : String
  timezone : String
  overlap : ScheduleOverlap
  title : String
  type : TaskType
  summary : String := ""
  «section» : String := "General"
  project : String := ""
  repository : String := ""
  priority : Priority := .normal
  checklist : List String := []
  requirements : List String := []
  createdBy : String
  lastEditedBy : String
  nextRunAt : Option Instant := none
  lastRunAt : Option Instant := none
  lastOutcome : Option ScheduleOutcome := none
  lastTaskID : String := ""
  version : Int := 1
  createdAt : Instant
  updatedAt : Instant
  deriving DecidableEq

end Taskboard
