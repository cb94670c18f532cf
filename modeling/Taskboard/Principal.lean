import Taskboard.Text

/-!
# Principals and what they may do

A principal is a person or an agent. Its constructors trim the identifier and the server
gives every agent a name (`mcpPrincipal`), so a principal carries the proofs that its
identifier is trimmed and, for an agent, not empty.

The rules below decide from a task row, and where they say so from its runs, whether a
principal may see or change it.
-/

namespace Taskboard

inductive Capability where
  | taskRead | taskCreate | taskClaim | taskUpdate | taskMessage | taskEscalate
  | taskControl | taskReference | taskHandoff | taskEvidence | taskValidate | taskSession
  | taskComplete | taskSkip | taskSensitive | workerAdvertise | taskUsage | templateRead
  | templateManage
  deriving DecidableEq

/-- What an agent may do, and how much of it. A limit of zero is no limit. -/
structure AgentPolicy where
  capabilities : List Capability := []
  maxConcurrentRuns : Int := 0
  maxPickupsPerMinute : Int := 0
  maxRunDuration : Duration := 0
  requireIdempotency : Bool := false
  allowedRequirements : List String := []
  deriving DecidableEq

/-- `DefaultAgentPolicy`: every known capability but two. -/
def defaultAgentPolicy : AgentPolicy where
  capabilities := [.taskRead, .taskCreate, .taskClaim, .taskUpdate, .taskMessage,
    .taskEscalate, .taskControl, .taskReference, .taskHandoff, .taskEvidence, .taskSession,
    .taskUsage, .taskComplete, .taskSkip, .workerAdvertise, .templateRead, .templateManage]
  maxConcurrentRuns := 8
  maxPickupsPerMinute := 30
  maxRunDuration := 8 * hour

inductive Role where
  | unset | owner | admin | member | viewer | agent
  deriving DecidableEq

inductive Permission where
  | taskRead | taskWrite | taskMessage | templateRead | templateManage | eventStream
  | pushManage
  deriving DecidableEq

/-- Who a principal is, apart from whom it acts for. -/
structure Identity where
  id : String
  agent : Bool
  role : Role
  policy : AgentPolicy := {}
  trimmed : trimSpace id = id
  named : agent = true → id ≠ ""
  deriving DecidableEq

/-- A caller of the service. -/
structure Principal extends Identity where
  onBehalfOf : Option Identity := none
  operator : String := ""
  deriving DecidableEq

/-- `IsHumanRole`. -/
def isHumanRole (role : Role) : Bool :=
  role = .owner ∨ role = .admin ∨ role = .member ∨ role = .viewer

/-- `HumanPrincipalWithRole`. -/
def humanPrincipal (id : String) (role : Role) : Principal where
  id := trimSpace id
  agent := false
  role := if isHumanRole role then role else .viewer
  trimmed := trimSpace_idem id
  named := by simp

theorem builder_named : trimSpace "builder" ≠ "" := by decide

/-- `AgentPrincipalWithPolicy`. -/
def agentPrincipal (id : String) (policy : AgentPolicy)
    (named : trimSpace id ≠ "" := by first | exact builder_named | decide) : Principal where
  id := trimSpace id
  agent := true
  role := .agent
  policy := policy
  trimmed := trimSpace_idem id
  named _ := named

/-- The principal of someone who acts for nobody else. -/
def Identity.alone (identity : Identity) : Principal :=
  { identity with }

def Identity.hasCapability (principal : Identity) (capability : Capability) : Bool :=
  principal.agent && capability ∈ principal.policy.capabilities

/-- `Can`. -/
def Identity.can (principal : Identity) (permission : Permission) : Bool :=
  if principal.agent then
    match permission with
    | .taskRead => principal.hasCapability .taskRead
    | .taskWrite => principal.hasCapability .taskUpdate
    | .taskMessage => principal.hasCapability .taskMessage
    | .templateRead => principal.hasCapability .templateRead
    | .templateManage => principal.hasCapability .templateManage
    | _ => false
  else
    let role := if principal.role = .unset then .viewer else principal.role
    match permission with
    | .taskRead | .templateRead | .eventStream | .pushManage => isHumanRole role
    | .taskWrite | .taskMessage => role = .owner ∨ role = .admin ∨ role = .member
    | .templateManage => role = .owner ∨ role = .admin

/-- `CanView`. -/
def canView (task : Task) (principal : Principal) : Bool :=
  principal.can .taskRead &&
    if principal.agent then
      if task.visibility = .private then
        (principal.operator ≠ "" && task.createdBy = principal.operator) ||
          match principal.onBehalfOf with
          | some person => task.createdBy ≠ "" && task.createdBy = person.id
          | none => false
      else if principal.operator ≠ "" then
        task.visibility = .agent || task.visibility = .team
      else
        task.visibility = .agent ||
          (task.visibility = .team && (task.owner = "" || task.owner = principal.id))
    else
      task.visibility ≠ .private || (task.createdBy ≠ "" && task.createdBy = principal.id)

/-- `canMutate`. -/
def canMutate (task : Task) (principal : Principal) : Bool :=
  canView task principal &&
    (!principal.agent || principal.operator ≠ "" ||
      (task.owner ≠ "" && task.owner = principal.id))

/-- `producerMayUpdate`: the agent that created a task, until someone claims it. -/
def producerMayUpdate (task : Task) (runs : List AgentRun) (principal : Principal) : Bool :=
  principal.agent && task.createdBy ≠ "" && task.createdBy = principal.id &&
    task.owner = "" && task.status = .queued && runs.all fun run => run.endedAt.isSome

/-- `producerFieldsOnly`. -/
def producerFieldsOnly (request : UpdateRequest) : Bool :=
  request.runID = "" && (request.status = "" || request.status = "cancelled") &&
    request.type.isNone && request.visibility.isNone && request.owner.isNone &&
    request.section.isNone && request.project.isNone && request.repository.isNone &&
    request.dueDate.isNone && request.deferUntil.isNone && request.recurrence.isNone &&
    !request.reviewed && request.checklist.isNone && request.blocker.isNone &&
    request.waitingFor.isNone && request.currentItemID = "" &&
    request.completeItemIDs.isEmpty && request.skipItemIDs.isEmpty &&
    request.addItems.isEmpty && request.duplicateOf.isNone

/-- `pickupRunnerMayNote`: a runner's reason on an unclaimed pickup task. -/
def pickupRunnerMayNote (task : Task) (runs : List AgentRun) (principal : Principal)
    (request : UpdateRequest) : Bool :=
  principal.hasCapability .taskClaim && task.visibility = .agent && task.owner = "" &&
    (task.status = .queued || task.status = .stale) &&
    (runs.all fun run => run.endedAt.isSome) &&
    request.currentNote.isSome && request.status = "" && request.title.isNone &&
    request.summary.isNone && request.priority.isNone && producerFieldsOnly request

/-- `activeTaskRun`. -/
def activeTaskRun (runs : List AgentRun) (runID : String) : Option AgentRun :=
  runs.find? fun run => run.id = runID ∧ run.status = .active ∧ run.endedAt = none

/-- `activeOwnedRun`. -/
def activeOwnedRun (runs : List AgentRun) (runID principal : String) : Option AgentRun :=
  (activeTaskRun runs runID).filter fun run => run.agent = principal

/-- `holdsLease`: the run is this agent's live run on the task. -/
def holdsLease (runs : List AgentRun) (runID : String) (principal : Principal)
    (now : Instant) : Bool :=
  principal.agent &&
    match activeOwnedRun runs (trimSpace runID) principal.id with
    | some run => run.id ≠ "" && now < run.leaseExpires
    | none => false

/-- `mayRecover`. -/
def mayRecover (task : Task) (principal : Principal) : Bool :=
  principal.role = .owner || principal.role = .admin ||
    "agent:".toList.isPrefixOf task.createdBy.toList ||
    (task.createdBy ≠ "" && task.createdBy = principal.id)

end Taskboard
