import Taskboard.Store

/-!
# What the statements of the service may do

A footprint bounds what a statement may do to the database, table by table. Most records
of the board are only ever added; a few rows are edited but keep the fields that identify
them; and what may happen to tasks, runs and events is for each operation to say.

* `Footprint lg tk rn ev`: tasks change as `tk` allows, runs as `rn`, and the events that
  are added satisfy `ev`.
* `Plain lg ev`: the work itself stays as it is. Every task keeps its status and its place,
  every run its lease; only a task's version may move forward.
* `Still lg ev`: tasks keep their work, and runs go through their life.
* `Calm lg ev`: no task becomes claimable, no run is opened, and runs go through their life
  (`AgentRun.Follows`): a lease is renewed until the run ends, and an ended run stays as
  it is.
* `Steady lg ev`: no task and no run is opened, and runs go through their life.
* `Lively lg ev`: runs go through their life, and new ones start active.
* `Loose lg ev`: tasks and runs keep what identifies them, whatever else happens to them.
-/

namespace Taskboard

variable {run run' : AgentRun} {expected : Int} {tasks : List Task} {taskID : String}
  {also : Task → Bool} {f : Task → Task} {lg : List Ledger}

variable {db db' : Db} {ev : Event → Prop} {rn : List AgentRun → List AgentRun → Prop}
  {tk : List Task → List Task → Prop} {task task' : Task}

/-- What holds of every row of `tasks`: it has a name and a version, and the columns that go
with a status are empty in the others. -/
structure Task.Proper (task : Task) : Prop where
  named : task.id ≠ ""
  trimmed : trimSpace task.id = task.id
  version : 1 ≤ task.version
  blocker : task.status ≠ .blocked → task.blocker = ""
  waitingFor : task.status ≠ .waiting → task.waitingFor = ""
  completedAt : task.status.terminal = false → task.completedAt = none
  finished : task.status.terminal = true → task.completedAt ≠ none

/-- A task that is blocked or waits says why. -/
structure Task.Reasoned (task : Task) : Prop where
  blocked : task.status = .blocked → task.blocker ≠ ""
  waiting : task.status = .waiting → task.waitingFor ≠ ""

theorem Task.reasoned_of_ne (status : TaskStatus) (hstatus : task.status = status)
    (hne : status ≠ .blocked ∧ status ≠ .waiting) : task.Reasoned :=
  ⟨fun h => absurd (hstatus.symm.trans h) hne.1, fun h => absurd (hstatus.symm.trans h) hne.2⟩

/-- The same row at its next version. -/
theorem Task.Proper.next (h : task.Proper) (hid : task'.id = task.id)
    (hversion : task'.version = task.version + 1)
    (hblocker : task'.status ≠ .blocked → task'.blocker = "")
    (hwaiting : task'.status ≠ .waiting → task'.waitingFor = "")
    (hcompleted : task'.status.terminal = false → task'.completedAt = none)
    (hfinished : task'.status.terminal = true → task'.completedAt ≠ none) : task'.Proper where
  named := by
    rw [hid]
    exact h.named
  trimmed := by
    rw [hid]
    exact h.trimmed
  version := by
    have hold := h.version
    omega
  blocker := hblocker
  waitingFor := hwaiting
  completedAt := hcompleted
  finished := hfinished

/-- The row of the same task with the same work on it. -/
structure Task.SameWork (task task' : Task) : Prop where
  id : task'.id = task.id
  status : task'.status = task.status
  owner : task'.owner = task.owner
  visibility : task'.visibility = task.visibility
  createdBy : task'.createdBy = task.createdBy
  duplicateOf : task'.duplicateOf = task.duplicateOf
  blocker : task'.blocker = task.blocker
  waitingFor : task'.waitingFor = task.waitingFor
  completedAt : task'.completedAt = task.completedAt
  version : task.version ≤ task'.version

instance : IsPreorder Task Task.SameWork where
  refl _ := ⟨rfl, rfl, rfl, rfl, rfl, rfl, rfl, rfl, rfl, le_rfl⟩
  trans _ _ _ h h' :=
    ⟨h'.id.trans h.id, h'.status.trans h.status, h'.owner.trans h.owner,
      h'.visibility.trans h.visibility, h'.createdBy.trans h.createdBy,
      h'.duplicateOf.trans h.duplicateOf, h'.blocker.trans h.blocker,
      h'.waitingFor.trans h.waitingFor, h'.completedAt.trans h.completedAt,
      h.version.trans h'.version⟩

theorem Task.SameWork.proper (h : task.SameWork task') (hp : task.Proper) :
    task'.Proper where
  named := by
    rw [h.id]
    exact hp.named
  trimmed := by
    rw [h.id]
    exact hp.trimmed
  version := hp.version.trans h.version
  blocker hne := by
    rw [h.blocker]
    exact hp.blocker (h.status ▸ hne)
  waitingFor hne := by
    rw [h.waitingFor]
    exact hp.waitingFor (h.status ▸ hne)
  completedAt hopen := by
    rw [h.completedAt]
    exact hp.completedAt (h.status ▸ hopen)
  finished hterminal := by
    rw [h.completedAt]
    exact hp.finished (h.status ▸ hterminal)

theorem Task.SameWork.reasoned (h : task.SameWork task') (hr : task.Reasoned) :
    task'.Reasoned where
  blocked hblocked := by
    rw [h.blocker]
    exact hr.blocked (h.status ▸ hblocked)
  waiting hwaiting := by
    rw [h.waitingFor]
    exact hr.waiting (h.status ▸ hwaiting)

/-- What an operation on one task does to a row of `tasks`: the row `current` goes to `status`
and to its next version, in its place; the others stay as they are. -/
structure Task.Shifts (current : Task) (status : TaskStatus) (task task' : Task) : Prop where
  id : task'.id = task.id
  visibility : task'.visibility = task.visibility
  createdBy : task'.createdBy = task.createdBy
  duplicateOf : task'.duplicateOf = task.duplicateOf
  proper : task.Proper → task'.Proper
  hit : task = current → task'.status = status ∧ task'.version = task.version + 1
  reasoned : task = current → task'.Reasoned
  miss : task ≠ current → task' = task

/-- A statement that moves the version of one row shifts that row. -/
theorem shifts_bumped {current : Task} {status : TaskStatus}
    (hone : (tasks.filter (bumps taskID expected also)).length = 1) (hmem : current ∈ tasks)
    (hhit : bumps taskID expected also current = true)
    (hf : ∀ task, (f task).id = task.id ∧ (f task).visibility = task.visibility ∧
      (f task).createdBy = task.createdBy ∧ (f task).duplicateOf = task.duplicateOf ∧
      (f task).status = status ∧ (f task).version = task.version + 1)
    (hproper : current.Proper → (f current).Proper) (hreasoned : (f current).Reasoned) :
    List.Forall₂ (Task.Shifts current status) tasks
      (mapWhere (bumps taskID expected also) f tasks) := by
  rw [mapWhere, List.forall₂_map_right_iff, List.forall₂_same]
  intro task htask
  obtain ⟨hid, hvisibility, hcreated, hlink, hstatus, hversion⟩ := hf task
  by_cases h : bumps taskID expected also task = true
  · have hcurrent := eq_of_filter_length_one hone htask h hmem hhit
    rw [if_pos h]
    exact ⟨hid, hvisibility, hcreated, hlink, hcurrent ▸ hproper, fun _ => ⟨hstatus, hversion⟩,
      fun _ => hcurrent ▸ hreasoned, fun hne => absurd hcurrent hne⟩
  · rw [if_neg h]
    have hne : task ≠ current := fun hcurrent => h (hcurrent ▸ hhit)
    exact ⟨rfl, rfl, rfl, rfl, fun hp => hp, fun hcurrent => absurd hcurrent hne,
      fun hcurrent => absurd hcurrent hne, fun _ => rfl⟩

/-- The same run, under another callsign perhaps. -/
def AgentRun.SameLease (run run' : AgentRun) : Prop :=
  ∃ callsign, run' = { run with callsign }

instance : IsPreorder AgentRun AgentRun.SameLease where
  refl run := ⟨run.callsign, rfl⟩
  trans _ _ _ h h' := by
    obtain ⟨_, rfl⟩ := h
    obtain ⟨callsign, rfl⟩ := h'
    exact ⟨callsign, rfl⟩

/-- One more stretch of a run's life: nothing but its lease changes, and that only before it
ends; or it ends. -/
structure AgentRun.Follows (run run' : AgentRun) : Prop where
  id : run'.id = run.id
  taskID : run'.taskID = run.taskID
  agent : run'.agent = run.agent
  startedAt : run'.startedAt = run.startedAt
  life : (run'.status = run.status ∧ run'.endedAt = run.endedAt ∧
      (run.endedAt ≠ none → run'.leaseExpires = run.leaseExpires)) ∨
    (run.endedAt = none ∧ run'.endedAt ≠ none)

instance : IsPreorder AgentRun AgentRun.Follows where
  refl _ := ⟨rfl, rfl, rfl, rfl, Or.inl ⟨rfl, rfl, fun _ => rfl⟩⟩
  trans _ _ _ h h' := by
    refine ⟨h'.id.trans h.id, h'.taskID.trans h.taskID, h'.agent.trans h.agent,
      h'.startedAt.trans h.startedAt, ?_⟩
    rcases h.life with ⟨hs, he, hl⟩ | ⟨hn, he⟩
    · rcases h'.life with ⟨hs', he', hl'⟩ | ⟨hn', he'⟩
      · exact Or.inl ⟨hs'.trans hs, he'.trans he,
          fun hended => (hl' (he ▸ hended)).trans (hl hended)⟩
      · exact Or.inr ⟨he ▸ hn', he'⟩
    · rcases h'.life with ⟨hs', he', hl'⟩ | ⟨hn', he'⟩
      · exact Or.inr ⟨hn, he' ▸ he⟩
      · exact absurd hn' he

theorem AgentRun.SameLease.follows (h : run.SameLease run') :
    run.Follows run' := by
  obtain ⟨callsign, rfl⟩ := h
  exact ⟨rfl, rfl, rfl, rfl, Or.inl ⟨rfl, rfl, fun _ => rfl⟩⟩

/-- A run that has not ended is active. -/
def AgentRun.Sound (run : AgentRun) : Prop :=
  run.endedAt = none → run.status = .active

theorem AgentRun.Follows.sound (h : run.Follows run') (hs : run.Sound) :
    run'.Sound := by
  intro hend
  rcases h.life with ⟨hst, he, -⟩ | ⟨-, he⟩
  · rw [hst]
    exact hs (he ▸ hend)
  · exact absurd hend he

/-- The statuses in which `claimFor` takes a task. -/
def TaskStatus.claimable (status : TaskStatus) : Bool :=
  status = .queued ∨ status = .stale

/-- The row of the same task, which has not become claimable. -/
def Task.Rests (task task' : Task) : Prop :=
  task'.id = task.id ∧ (task'.status = task.status ∨ task'.status.claimable = false)

instance : IsPreorder Task Task.Rests where
  refl _ := ⟨rfl, Or.inl rfl⟩
  trans _ _ _ h h' :=
    ⟨h'.1.trans h.1, h'.2.elim (fun hs => hs ▸ h.2) Or.inr⟩

/-- Rows of which `key` stays the same. -/
def SameKey {ρ κ : Type} (key : ρ → κ) (row row' : ρ) : Prop :=
  key row' = key row

instance {ρ κ : Type} (key : ρ → κ) : IsPreorder ρ (SameKey key) where
  refl _ := rfl
  trans _ _ _ h h' := Eq.trans h' h

/-- One more stretch of an escalation's life: it stays as it is, or it was open and is so no
longer. -/
structure TaskEscalation.Follows (row row' : TaskEscalation) : Prop where
  id : row'.id = row.id
  taskID : row'.taskID = row.taskID
  blocking : row'.blocking = row.blocking
  life : row' = row ∨ (row.status = .open ∧ row'.status ≠ .open)

instance : IsPreorder TaskEscalation TaskEscalation.Follows where
  refl _ := ⟨rfl, rfl, rfl, Or.inl rfl⟩
  trans _ _ _ h h' := by
    refine ⟨h'.id.trans h.id, h'.taskID.trans h.taskID, h'.blocking.trans h.blocking, ?_⟩
    rcases h.life with rfl | ⟨hopen, hclosed⟩
    · exact h'.life
    · rcases h'.life with rfl | ⟨hopen', -⟩
      · exact Or.inr ⟨hopen, hclosed⟩
      · exact absurd hopen' hclosed

/-- Where a task stands: its place in a section, and who is to work on it. -/
def Task.post (task : Task) : String × String × Int × TaskVisibility :=
  (task.id, task.section, task.sortOrder, task.visibility)

/-- The tables that few operations write, and the posts of tasks. -/
inductive Ledger where
  | escalations | controls | completionRequirements | evidence | dependencies | items | handoffs
  | discussions | receipts | posts | taskRequirements | usage
  deriving DecidableEq

/-- What may happen to the database: to tasks as `tk` says, to runs as `rn` says, with
further events that satisfy `ev`; records are added, and keep what identifies them; and the
tables that `lg` does not name stay as they are. -/
structure Footprint (lg : List Ledger) (tk : List Task → List Task → Prop)
    (rn : List AgentRun → List AgentRun → Prop) (ev : Event → Prop) (db db' : Db) : Prop where
  tasks : tk db.tasks db'.tasks
  runs : rn db.runs db'.runs
  events : Evolves Eq ev db.events db'.events
  messages : Appends messageTable.key db.messages db'.messages
  references : Appends referenceTable.key db.references db'.references
  handoffs : Appends handoffTable.key db.handoffs db'.handoffs
  usage : Appends usageTable.key db.usage db'.usage
  discussionMessages : Appends discussionMessageTable.key db.discussionMessages db'.discussionMessages
  escalations : Evolves TaskEscalation.Follows (fun _ => True) db.escalations db'.escalations
  controls : Evolves (SameKey RunControlRequest.id) (fun _ => True) db.controls db'.controls
  discussions : Evolves (SameKey TaskDiscussion.id) (fun _ => True) db.discussions db'.discussions
  completionRequirements : Evolves (SameKey fun row => (row.id, row.taskID)) (fun _ => True)
    db.completionRequirements db'.completionRequirements
  evidence : Evolves (SameKey fun row => (row.id, row.requirementID)) (fun _ => True)
    db.evidence db'.evidence
  sameEscalations : Ledger.escalations ∉ lg → db'.escalations = db.escalations
  sameControls : Ledger.controls ∉ lg → db'.controls = db.controls
  sameRequirements : Ledger.completionRequirements ∉ lg →
    db'.completionRequirements = db.completionRequirements
  sameEvidence : Ledger.evidence ∉ lg → db'.evidence = db.evidence
  sameDependencies : Ledger.dependencies ∉ lg → db'.dependencies = db.dependencies
  sameItems : Ledger.items ∉ lg → db'.items = db.items
  sameHandoffs : Ledger.handoffs ∉ lg → db'.handoffs = db.handoffs
  sameDiscussions : Ledger.discussions ∉ lg →
    db'.discussions = db.discussions ∧ db'.discussionMessages = db.discussionMessages
  sameReceipts : Ledger.receipts ∉ lg → db'.receipts = db.receipts
  samePosts : Ledger.posts ∉ lg → db'.tasks.map Task.post = db.tasks.map Task.post
  sameTaskRequirements : Ledger.taskRequirements ∉ lg → db'.requirements = db.requirements
  sameUsage : Ledger.usage ∉ lg → db'.usage = db.usage

namespace Footprint

variable {tk' : List Task → List Task → Prop} {rn' : List AgentRun → List AgentRun → Prop}
  {ev' : Event → Prop} {db'' : Db}

protected theorem refl (lg : List Ledger) (tk : List Task → List Task → Prop)
    (rn : List AgentRun → List AgentRun → Prop) (ev : Event → Prop) [Std.Refl tk] [Std.Refl rn]
    (db : Db) : Footprint lg tk rn ev db db where
  tasks := refl_of tk _
  runs := refl_of rn _
  events := refl_of (Evolves Eq ev) _
  messages := refl_of (Appends _) _
  references := refl_of (Appends _) _
  handoffs := refl_of (Appends _) _
  usage := refl_of (Appends _) _
  discussionMessages := refl_of (Appends _) _
  escalations := refl_of (Evolves _ _) _
  controls := refl_of (Evolves _ _) _
  discussions := refl_of (Evolves _ _) _
  completionRequirements := refl_of (Evolves _ _) _
  evidence := refl_of (Evolves _ _) _
  sameEscalations _ := rfl
  sameControls _ := rfl
  sameRequirements _ := rfl
  sameEvidence _ := rfl
  sameDependencies _ := rfl
  sameItems _ := rfl
  sameHandoffs _ := rfl
  sameDiscussions _ := ⟨rfl, rfl⟩
  sameReceipts _ := rfl
  samePosts _ := rfl
  sameTaskRequirements _ := rfl
  sameUsage _ := rfl

protected theorem trans [IsTrans _ tk] [IsTrans _ rn] (h : Footprint lg tk rn ev db db')
    (h' : Footprint lg tk rn ev db' db'') : Footprint lg tk rn ev db db'' where
  tasks := trans_of tk h.tasks h'.tasks
  runs := trans_of rn h.runs h'.runs
  events := trans_of (Evolves Eq ev) h.events h'.events
  messages := trans_of (Appends _) h.messages h'.messages
  references := trans_of (Appends _) h.references h'.references
  handoffs := trans_of (Appends _) h.handoffs h'.handoffs
  usage := trans_of (Appends _) h.usage h'.usage
  discussionMessages := trans_of (Appends _) h.discussionMessages h'.discussionMessages
  escalations := trans_of (Evolves _ _) h.escalations h'.escalations
  controls := trans_of (Evolves _ _) h.controls h'.controls
  discussions := trans_of (Evolves _ _) h.discussions h'.discussions
  completionRequirements :=
    trans_of (Evolves _ _) h.completionRequirements h'.completionRequirements
  evidence := trans_of (Evolves _ _) h.evidence h'.evidence
  sameEscalations hl := (h'.sameEscalations hl).trans (h.sameEscalations hl)
  sameControls hl := (h'.sameControls hl).trans (h.sameControls hl)
  sameRequirements hl := (h'.sameRequirements hl).trans (h.sameRequirements hl)
  sameEvidence hl := (h'.sameEvidence hl).trans (h.sameEvidence hl)
  sameDependencies hl := (h'.sameDependencies hl).trans (h.sameDependencies hl)
  sameItems hl := (h'.sameItems hl).trans (h.sameItems hl)
  sameHandoffs hl := (h'.sameHandoffs hl).trans (h.sameHandoffs hl)
  sameDiscussions hl :=
    ⟨(h'.sameDiscussions hl).1.trans (h.sameDiscussions hl).1,
      (h'.sameDiscussions hl).2.trans (h.sameDiscussions hl).2⟩
  sameReceipts hl := (h'.sameReceipts hl).trans (h.sameReceipts hl)
  samePosts hl := (h'.samePosts hl).trans (h.samePosts hl)
  sameTaskRequirements hl := (h'.sameTaskRequirements hl).trans (h.sameTaskRequirements hl)
  sameUsage hl := (h'.sameUsage hl).trans (h.sameUsage hl)

instance [IsPreorder _ tk] [IsPreorder _ rn] : IsPreorder Db (Footprint lg tk rn ev) where
  refl := Footprint.refl lg tk rn ev
  trans _ _ _ := Footprint.trans

/-- A footprint may be taken larger. -/
theorem mono (h : Footprint lg tk rn ev db db') (htk : tk db.tasks db'.tasks → tk' db.tasks db'.tasks)
    (hrn : rn db.runs db'.runs → rn' db.runs db'.runs) (hev : ∀ e, ev e → ev' e) :
    Footprint lg tk' rn' ev' db db' :=
  { h with
    tasks := htk h.tasks
    runs := hrn h.runs
    events := by
      obtain ⟨kept, added, hrows, hkept, hadded⟩ := h.events
      exact ⟨kept, added, hrows, hkept, fun e he => hev e (hadded e he)⟩ }

theorem each_insertEvent [Std.Refl tk] [Std.Refl rn] {event : Event} (h : ev event) :
    (insertEvent event).Each (Footprint lg tk rn ev) :=
  Table.each_insert fun db => { Footprint.refl lg tk rn ev db with events := evolves_append h }

/-- Moving a task's version, with what else the statement sets. -/
theorem each_bumpTask {keep : Task → Task → Prop} [Std.Refl keep] [Std.Refl rn]
    {hf : ∀ task, (f task).id = task.id}
    (h : ∀ task, keep task { f task with version := task.version + 1 })
    (hposts : Ledger.posts ∉ lg → ∀ task, (f task).post = task.post := by exact fun _ _ => rfl) :
    (bumpTask taskID expected also f hf).Each (Footprint lg (List.Forall₂ keep) rn ev) :=
  Table.each_updateWhere fun db =>
    { Footprint.refl lg (List.Forall₂ keep) rn ev db with
      tasks := forall₂_mapWhere fun task _ _ => h task
      samePosts := fun hl => map_mapWhere (hposts hl) }

end Footprint

/-- Nothing changes but checklist items, sessions, operational requirements and
advertisements. -/
def Aside (db db' : Db) : Prop :=
  ∃ items sessions requirements advertisements,
    db' = { db with items, sessions, requirements, advertisements }

instance : IsPreorder Db Aside where
  refl _ := ⟨_, _, _, _, rfl⟩
  trans _ _ _ h h' := by
    obtain ⟨_, _, _, _, rfl⟩ := h
    obtain ⟨_, _, _, _, rfl⟩ := h'
    exact ⟨_, _, _, _, rfl⟩

/-- Nothing changes but sessions, operational requirements and advertisements. -/
def Beside (db db' : Db) : Prop :=
  ∃ sessions requirements advertisements, db' = { db with sessions, requirements, advertisements }

instance : IsPreorder Db Beside where
  refl _ := ⟨_, _, _, rfl⟩
  trans _ _ _ h h' := by
    obtain ⟨_, _, _, rfl⟩ := h
    obtain ⟨_, _, _, rfl⟩ := h'
    exact ⟨_, _, _, rfl⟩

theorem Beside.aside (h : Beside db db') : Aside db db' := by
  obtain ⟨_, _, _, rfl⟩ := h
  exact ⟨_, _, _, _, rfl⟩

/-- Nothing changes but checklist items. -/
def OnItems (db db' : Db) : Prop :=
  ∃ items, db' = { db with items }

instance : IsPreorder Db OnItems where
  refl _ := ⟨_, rfl⟩
  trans _ _ _ h h' := by
    obtain ⟨_, rfl⟩ := h
    obtain ⟨_, rfl⟩ := h'
    exact ⟨_, rfl⟩

theorem OnItems.aside (h : OnItems db db') : Aside db db' := by
  obtain ⟨_, rfl⟩ := h
  exact ⟨_, _, _, _, rfl⟩

theorem aside_of_onItems {α : Type} {t : TxM α} (h : t.Each OnItems) : t.Each Aside :=
  h.mono fun _ _ => OnItems.aside

theorem aside_of_beside {α : Type} {t : TxM α} (h : t.Each Beside) : t.Each Aside :=
  h.mono fun _ _ => Beside.aside

/-- Nothing changes but sessions and advertisements. -/
def Nearby (db db' : Db) : Prop :=
  ∃ sessions advertisements, db' = { db with sessions, advertisements }

instance : IsPreorder Db Nearby where
  refl _ := ⟨_, _, rfl⟩
  trans _ _ _ h h' := by
    obtain ⟨_, _, rfl⟩ := h
    obtain ⟨_, _, rfl⟩ := h'
    exact ⟨_, _, rfl⟩

/-- The operational requirements of tasks stay as they are. -/
def SameRequirements (db db' : Db) : Prop :=
  db'.requirements = db.requirements

instance : IsPreorder Db SameRequirements where
  refl _ := rfl
  trans _ _ _ h h' := Eq.trans h' h

theorem Nearby.sameRequirements (h : Nearby db db') : SameRequirements db db' := by
  obtain ⟨_, _, rfl⟩ := h
  rfl

theorem OnItems.sameRequirements (h : OnItems db db') : SameRequirements db db' := by
  obtain ⟨_, rfl⟩ := h
  rfl

theorem Nearby.footprint [Std.Refl tk] [Std.Refl rn]
    (h : Nearby db db') : Footprint lg tk rn ev db db' := by
  obtain ⟨_, _, rfl⟩ := h
  exact { Footprint.refl lg tk rn ev db with }

theorem Beside.footprint [Std.Refl tk] [Std.Refl rn]
    (h : Beside db db') (hlg : Ledger.taskRequirements ∈ lg) :
    Footprint lg tk rn ev db db' := by
  obtain ⟨_, _, _, rfl⟩ := h
  exact { Footprint.refl lg tk rn ev db with sameTaskRequirements := fun hl => absurd hlg hl }

/-- The work itself stays as it is. -/
abbrev Plain (lg : List Ledger) (ev : Event → Prop) : Db → Db → Prop :=
  Footprint lg (List.Forall₂ Task.SameWork) (List.Forall₂ AgentRun.SameLease) ev

/-- Tasks keep their work, and runs go through their life. -/
abbrev Still (lg : List Ledger) (ev : Event → Prop) : Db → Db → Prop :=
  Footprint lg (List.Forall₂ Task.SameWork) (List.Forall₂ AgentRun.Follows) ev

/-- No task becomes claimable, no run is opened, and runs go through their life. -/
abbrev Calm (lg : List Ledger) (ev : Event → Prop) : Db → Db → Prop :=
  Footprint lg (List.Forall₂ Task.Rests) (List.Forall₂ AgentRun.Follows) ev

/-- No task and no run is opened, and runs go through their life. -/
abbrev Steady (lg : List Ledger) (ev : Event → Prop) : Db → Db → Prop :=
  Footprint lg (List.Forall₂ (SameKey Task.id)) (List.Forall₂ AgentRun.Follows) ev

instance : IsPreorder (List AgentRun) (Evolves AgentRun.Follows AgentRun.Sound) where
  refl rows := .of_forall₂ (List.forall₂_refl rows)
  trans _ _ _ h h' := h.trans (fun _ _ hf hs => hf.sound hs) h'

/-- Runs go through their life, and new ones start active. -/
abbrev Lively (lg : List Ledger) (ev : Event → Prop) : Db → Db → Prop :=
  Footprint lg (Evolves (SameKey Task.id) fun _ => True) (Evolves AgentRun.Follows AgentRun.Sound) ev

/-- What a footprint says once the tasks, the runs and the events have been written, with
changes aside before or after. -/
theorem Footprint.of_aside {runs : List AgentRun} {events : List Event}
    (h : Aside { db with tasks, runs, events } db') (htk : tk db.tasks tasks)
    (hrn : rn db.runs runs) (hev : Evolves Eq ev db.events events)
    (hposts : Ledger.posts ∉ lg → tasks.map Task.post = db.tasks.map Task.post := by simp)
    (hrequirements : Ledger.taskRequirements ∉ lg → db'.requirements = db.requirements := by simp)
    (hitems : Ledger.items ∈ lg := by simp) : Footprint lg tk rn ev db db' := by
  obtain ⟨_, _, _, _, rfl⟩ := h
  exact { Footprint.refl lg (fun _ _ => True) (fun _ _ => True) ev db with
    tasks := htk, runs := hrn, events := hev
    sameItems := fun hl => absurd hitems hl
    samePosts := hposts
    sameTaskRequirements := hrequirements }

/-- Tasks and runs keep what identifies them. -/
abbrev Loose (lg : List Ledger) (ev : Event → Prop) : Db → Db → Prop :=
  Footprint lg (Evolves (SameKey Task.id) fun _ => True)
    (Evolves (SameKey fun run => (run.id, run.taskID, run.agent, run.startedAt)) fun _ => True) ev

section Classes

theorem Plain.still (h : Plain lg ev db db') : Still lg ev db db' :=
  h.mono (fun h => h) (fun h => h.imp fun _ _ h => h.follows) fun _ h => h

theorem Still.calm (h : Still lg ev db db') : Calm lg ev db db' :=
  h.mono (fun h => h.imp fun _ _ h => ⟨h.id, Or.inl h.status⟩) (fun h => h) fun _ h => h

theorem Calm.steady (h : Calm lg ev db db') : Steady lg ev db db' :=
  h.mono (fun h => h.imp fun _ _ h => h.1) (fun h => h) fun _ h => h

theorem Steady.lively (h : Steady lg ev db db') : Lively lg ev db db' :=
  h.mono (fun h => .of_forall₂ h) (fun h => .of_forall₂ h) fun _ h => h

theorem Lively.loose (h : Lively lg ev db db') : Loose lg ev db db' :=
  h.mono (fun h => h)
    (fun ⟨kept, added, hrows, hkept, _⟩ => ⟨kept, added, hrows,
      hkept.imp fun _ _ h => Prod.ext h.id (Prod.ext h.taskID (Prod.ext h.agent h.startedAt)),
      fun _ _ => trivial⟩)
    fun _ h => h

end Classes

end Taskboard
