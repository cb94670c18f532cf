import Taskboard.Operations

/-!
# Private work that agents record

An agent records private work only for the person it acts for, who is then its creator.
`createFor` keeps to this for every visibility that is asked for. `startFor` compares the
visibility as it was sent, and `Start` cleans it afterwards: a spelling that only becomes
`private` there, such as `Private`, passes the comparison.
-/

namespace Taskboard

variable {item : NewTask} {delegatedVia : String} {db db' : Db} {env : Env} {principal : Principal}
  {svc : Service} {task : Task}

variable {request : CreateRequest}

/-- Lower-case ASCII letters are in lower case. -/
def Unicode.KeepsLower (u : Unicode) : Prop :=
  ∀ c : Char, c.isLower = true → u.toLower c = c

/-- The task is recorded between two states. -/
def Task.Recorded (task : Task) (db db' : Db) : Prop :=
  task ∈ db'.tasks ∧ ∀ row ∈ db.tasks, row.id ≠ task.id

/-- If the task is private, then it was created by the person the principal acts for. -/
def Task.PrivateFor (task : Task) (principal : Principal) : Prop :=
  task.visibility = .private →
    ∃ person, principal.onBehalfOf = some person ∧ task.createdBy = person.id

/-- A visibility that `Start` cleans to `private` is sent as such; or the person the agent acts
for goes by the agent's own name. -/
def StartRequest.SpelledPlainly (svc : Service) (request : StartRequest) (principal : Principal) :
    Prop :=
  svc.normalizedVisibility request.visibility "team" = "private" →
    request.visibility = "private" ∨
      ∃ person, principal.onBehalfOf = some person ∧ person.id = principal.id

/-- One task is added, by `actor` and with the visibility that was asked for, cleaned. -/
def Records (svc : Service) (visibility actor : String) (db db' : Db) : Prop :=
  ∃ task, db'.tasks = db.tasks ++ [task] ∧
    TaskVisibility.ofString? (svc.normalizedVisibility visibility "team") = some task.visibility ∧
    task.createdBy = defaultActor actor "user"

section Recorded

variable {actor : String} {hash : Option Digest} {overridden : List String}

theorem validateNewTask_visibility {tooLong : Bool}
    (h : validateNewTask svc request tooLong = .ok item) :
    TaskVisibility.ofString? (svc.normalizedVisibility request.visibility "team") =
      some item.visibility := by
  simp only [validateNewTask, Except.bind_ok_iff, named_ok_iff] at h
  obtain ⟨_, -, type, -, visibility, hvisibility, _, -, priority, -, h⟩ := h
  cases h
  exact hvisibility

theorem validateStart_visibility {request : StartRequest}
    (h : validateStart svc request = .ok item) :
    TaskVisibility.ofString? (svc.normalizedVisibility request.visibility "team") =
      some item.visibility := by
  simp only [validateStart, Except.bind_ok_iff] at h
  obtain ⟨base, hbase, _, -, checklist, -, h⟩ := h
  have hvisibility := validateNewTask_visibility hbase
  cases h
  exact hvisibility

theorem validateCreate_visibility {queued : QueuedTask}
    (h : validateCreate svc request actor delegatedVia hash overridden = .ok queued) :
    TaskVisibility.ofString? (svc.normalizedVisibility request.visibility "team") =
        some queued.item.visibility ∧ queued.createdBy = defaultActor actor "user" := by
  simp only [validateCreate, Except.bind_ok_iff] at h
  obtain ⟨base, hbase, _, -, _, -, h⟩ := h
  have hvisibility := validateNewTask_visibility hbase
  cases h
  exact ⟨hvisibility, rfl⟩

theorem records_start {request : StartRequest} :
    (start svc env request actor hash overridden).AtMost (Records svc request.visibility actor) := by
  apply Call.atMost_lift_bind
  intro item hitem
  refine Call.atMost_then_quiet ((Call.atMost_tx _).mono ?_) fun _ => ?_
  · rintro db db' ⟨u, hrun⟩
    obtain ⟨order, _, _, _, -, -, -, -, -, -, _, _, _, _, rfl⟩ := startTx_ok hrun
    exact ⟨startedTask env item request actor order, rfl, validateStart_visibility hitem, rfl⟩
  · refine Call.quiet_bind quiet_getTask fun task => ?_
    split
    · exact Call.quiet_pure _
    · exact Call.quiet_fail _

theorem records_create :
    (create svc env request actor delegatedVia hash overridden).AtMost
      (Records svc request.visibility actor) := by
  apply Call.atMost_lift_bind
  intro queued hqueued
  refine Call.atMost_then_quiet ((Call.atMost_tx _).mono ?_) fun _ => quiet_getTask
  rintro db db' ⟨u, hrun⟩
  obtain ⟨order, _, _, -, -, -, -, -, _, _, _, _, rfl⟩ := createTx_ok hqueued hrun
  obtain ⟨hvisibility, hcreated⟩ := validateCreate_visibility hqueued
  exact ⟨queued.row (env.newID 0) order env.now, rfl, hvisibility, hcreated⟩

/-- The task that was recorded is the one that was added. -/
theorem Records.recorded {visibility : String} (h : Records svc visibility actor db db')
    (hnew : task.Recorded db db') :
    TaskVisibility.ofString? (svc.normalizedVisibility visibility "team") = some task.visibility ∧
      task.createdBy = defaultActor actor "user" := by
  obtain ⟨added, htasks, hvisibility, hcreated⟩ := h
  obtain ⟨hmem, hfresh⟩ := hnew
  rw [htasks, List.mem_append] at hmem
  rcases hmem with hold | hadded
  · exact absurd rfl (hfresh task hold)
  · obtain rfl := List.mem_singleton.mp hadded
    exact ⟨hvisibility, hcreated⟩

theorem not_recorded_of_same (hsame : db' = db) : ¬ task.Recorded db db' := by
  rintro ⟨hmem, hfresh⟩
  exact hfresh task (hsame ▸ hmem) rfl

end Recorded

section Names

variable {visibility : TaskVisibility} {value : String}

theorem ofString?_eq_private_iff (h : TaskVisibility.ofString? value = some visibility) :
    visibility = .private ↔ value = "private" := by
  unfold TaskVisibility.ofString? at h
  split at h
  · cases h
    exact iff_of_true rfl rfl
  · cases h
    exact iff_of_false (by decide) (by decide)
  · cases h
    exact iff_of_false (by decide) (by decide)
  · cases h

theorem normalizedVisibility_agent (hlower : svc.unicode.KeepsLower) :
    svc.normalizedVisibility "agent" "team" = "agent" := by
  have htrim : trimSpace "agent" = "agent" := by decide
  have hchars : "agent".toList = ['a', 'g', 'e', 'n', 't'] := by decide
  have hsame : svc.unicode.lower "agent" = "agent" := by
    simp only [Unicode.lower, hchars, List.map_cons, List.map_nil, hlower 'a' (by decide),
      hlower 'g' (by decide), hlower 'e' (by decide), hlower 'n' (by decide),
      hlower 't' (by decide)]
  unfold Service.normalizedVisibility Service.normalized
  rw [htrim, hsame]
  decide

theorem normalizedVisibility_empty : svc.normalizedVisibility "" "team" = "team" := by
  have htrim : trimSpace "" = "" := by decide
  unfold Service.normalizedVisibility Service.normalized
  rw [htrim]
  rfl

theorem defaultActor_id {identity : Identity} (h : identity.id ≠ "") :
    defaultActor identity.id "user" = identity.id := by
  unfold defaultActor
  rw [identity.trimmed, if_pos h]

end Names

section Agents

theorem records_createAgentTask :
    (createAgentTask svc env request principal).AtMost
      (Records svc request.visibility principal.id) :=
  Call.atMost_bind_quiet quiet_checkDuplicates fun _ => records_create

/-- An agent's `createFor` records a task for the agents, or one of the person it acts for. -/
theorem records_createFor (hagent : principal.agent = true) :
    (createFor svc env request principal).AtMost fun db db' =>
      Records svc "agent" principal.id db db' ∨
        ∃ person visibility, principal.onBehalfOf = some person ∧ person.id ≠ "" ∧
          Records svc visibility person.id db db' := by
  have hown : (createOwn svc env request principal).AtMost (Records svc "agent" principal.id) := by
    refine Call.atMost_lift_bind fun _ _ => ?_
    apply Call.atMost_lift_bind
    intro _ hvisibility
    rw [refuse_ok_iff, ne_eq, not_not] at hvisibility
    refine (atMost_keyed (fun _ => quiet_getForHidden) records_createAgentTask).mono ?_
    intro db db' hrecords
    rwa [hvisibility] at hrecords
  unfold createFor
  rw [if_pos hagent]
  refine Call.atMost_lift_bind fun _ _ => ?_
  split
  · rename_i person hperson
    refine Call.atMost_ite ?_ (hown.mono fun _ _ => Or.inl)
    apply Call.atMost_lift_bind
    intro _ hpermitted
    simp only [refuse_ok_iff, Bool.or_eq_true, decide_eq_true_eq, not_or] at hpermitted
    refine (atMost_keyedAs (fun _ => quiet_getForHidden) records_create).mono fun _ _ hrecords => ?_
    exact Or.inr ⟨person, _, hperson, hpermitted.1.1.2, hrecords⟩
  · exact hown.mono fun _ _ => Or.inl

/-- An agent's `startFor` records a task with the visibility of the request it has checked. -/
theorem records_startFor {request : StartRequest} (hagent : principal.agent = true) :
    (startFor svc env request principal).AtMost fun db db' =>
      ∃ checked, startRequestOf request principal = .ok checked ∧
        Records svc checked.visibility
          (if startsDelegated request principal then principal.onBehalfOf.elim "" (·.id)
            else principal.id) db db' := by
  unfold startFor
  refine Call.atMost_lift_bind fun _ _ => ?_
  rw [if_pos hagent]
  apply Call.atMost_lift_bind
  intro checked hchecked
  refine Call.atMost_holding (atMost_keyed (fun _ => quiet_replayedRun) ?_)
  refine Call.atMost_bind_quiet quiet_enforceAgentPickupLimits fun _ => ?_
  refine Call.atMost_bind_quiet quiet_checkDuplicates fun overridden => ?_
  exact records_start.mono fun _ _ hrecords => ⟨checked, hchecked, hrecords⟩

theorem createFor_private (hlower : svc.unicode.KeepsLower) (hagent : principal.agent = true)
    (hnew : task.Recorded db ((createFor svc env request principal).exec db).2) :
    task.PrivateFor principal := by
  intro hprivate
  rcases records_createFor hagent db with hsame | hown | ⟨person, visibility, hperson, hid, hrecords⟩
  · exact absurd hnew (not_recorded_of_same hsame)
  · obtain ⟨hvisibility, -⟩ := hown.recorded hnew
    rw [normalizedVisibility_agent hlower] at hvisibility
    have hagents := (ofString?_eq_private_iff hvisibility).mp hprivate
    exact absurd hagents (by decide)
  · obtain ⟨-, hcreated⟩ := hrecords.recorded hnew
    exact ⟨person, hperson, hcreated.trans (defaultActor_id hid)⟩

/-- The request that is checked: private for the person, or not sent as private. -/
theorem startRequestOf_ok {request checked : StartRequest}
    (h : startRequestOf request principal = .ok checked) :
    (startsDelegated request principal = true ∧ checked.visibility = "private" ∧
        ∃ person, principal.onBehalfOf = some person ∧ person.id ≠ "") ∨
      (startsDelegated request principal = false ∧ request.visibility ≠ "private" ∧
        checked.visibility = if request.visibility = "" then "agent" else request.visibility) := by
  simp only [startRequestOf, Except.bind_ok_iff, refuse_ok_iff] at h
  obtain ⟨_, -, _, hperson, _, hprivate, h⟩ := h
  cases h
  by_cases hdelegated : startsDelegated request principal = true
  · left
    simp only [hdelegated, true_and, if_true]
    have hsome : principal.onBehalfOf.isSome = true := by
      simp only [startsDelegated, Bool.and_eq_true] at hdelegated
      exact hdelegated.1.2
    obtain ⟨person, hbehalf⟩ := Option.isSome_iff_exists.mp hsome
    refine ⟨person, hbehalf, fun hid => hperson ⟨hdelegated, ?_⟩⟩
    simp [hbehalf, hid]
  · right
    rw [Bool.not_eq_true] at hdelegated
    simp only [hdelegated, Bool.false_eq_true, if_false, Bool.not_false, and_true] at hprivate ⊢
    refine ⟨trivial, ?_⟩
    intro hsent
    apply hprivate
    rw [hsent]
    rfl

theorem startFor_private (hlower : svc.unicode.KeepsLower) (hagent : principal.agent = true)
    {request : StartRequest}
    (hnew : task.Recorded db ((startFor svc env request principal).exec db).2) :
    task.PrivateFor principal ↔ request.SpelledPlainly svc principal := by
  rcases records_startFor hagent db with hsame | ⟨checked, hchecked, hrecords⟩
  · exact absurd hnew (not_recorded_of_same hsame)
  obtain ⟨hvisibility, hcreated⟩ := hrecords.recorded hnew
  rcases startRequestOf_ok hchecked with
    ⟨hdelegated, -, person, hperson, hid⟩ | ⟨hdelegated, hsent, hasked⟩
  · -- The task is the person's, however it was asked for.
    rw [if_pos hdelegated, hperson] at hcreated
    apply iff_of_true
    · exact fun _ => ⟨person, hperson, hcreated.trans (defaultActor_id hid)⟩
    · intro hclean
      simp only [startsDelegated, Bool.and_eq_true, Bool.or_eq_true, decide_eq_true_eq] at hdelegated
      rcases hdelegated.2 with hempty | hsent
      · rw [hempty, normalizedVisibility_empty] at hclean
        exact absurd hclean (by decide)
      · exact Or.inl hsent
  · have hname : defaultActor principal.id "user" = principal.id :=
      defaultActor_id (principal.named hagent)
    rw [if_neg (by simp [hdelegated]), hname] at hcreated
    by_cases hempty : request.visibility = ""
    · rw [if_pos hempty] at hasked
      rw [hasked, normalizedVisibility_agent hlower] at hvisibility
      apply iff_of_true
      · intro hprivate
        exact absurd ((ofString?_eq_private_iff hvisibility).mp hprivate) (by decide)
      · intro hclean
        rw [hempty, normalizedVisibility_empty] at hclean
        exact absurd hclean (by decide)
    · -- The agent is the creator, and the task is private where the cleaned text says so.
      rw [if_neg hempty] at hasked
      rw [hasked] at hvisibility
      unfold Task.PrivateFor StartRequest.SpelledPlainly
      rw [ofString?_eq_private_iff hvisibility, or_iff_right hsent, hcreated]
      simp only [eq_comm]

end Agents

/-- **Private work of agents.** What an agent records by `createFor` is private only as the work
of the person it acts for. By `startFor` this is so just when a visibility that is cleaned to
`private` was sent as such. -/
theorem private_work_is_a_persons {svc : Service} (hlower : svc.unicode.KeepsLower)
    {principal : Principal} (hagent : principal.agent = true) (env : Env) (db : Db) (task : Task) :
    (∀ request, task.Recorded db ((createFor svc env request principal).exec db).2 →
      task.PrivateFor principal) ∧
    ∀ request, task.Recorded db ((startFor svc env request principal).exec db).2 →
      (task.PrivateFor principal ↔ request.SpelledPlainly svc principal) :=
  ⟨fun _ => createFor_private hlower hagent, fun _ => startFor_private hlower hagent⟩

/-- An agent that acts for a person. -/
def helperOf (person : Principal) : Principal :=
  { sampleAgent "builder" with onBehalfOf := some person.toIdentity }

/-- The agent starts work with the visibility named, on an empty board. -/
def startAs (visibility : String) (principal : Principal) :
    Except ServiceError (TaskView × AgentRun) × Db :=
  (startFor .ascii (.numbered 1 0)
    { title := "Fix the login", checklist := ["Find the cause"], visibility } principal).exec {}

theorem keepsLower_ascii : Unicode.KeepsLower Unicode.ascii := by
  intro c hlower
  have hfirst : 'a'.val ≤ c.val := of_decide_eq_true (Bool.and_eq_true_iff.mp hlower).1
  apply dif_neg
  intro hupper
  exact absurd (UInt32.le_trans hfirst hupper.2) (by decide)

theorem started_work_is_anns :
    ((startAs "" (helperOf (humanPrincipal "ann" .member))).2.tasks.map fun task =>
        (task.visibility, task.createdBy, task.owner)) = [(.private, "ann", "builder")] ∧
      ∀ task ∈ (startAs "" (helperOf (humanPrincipal "ann" .member))).2.tasks,
        task.PrivateFor (helperOf (humanPrincipal "ann" .member)) := by
  refine ⟨by decide +kernel, fun task htask => ?_⟩
  have hspelled : StartRequest.SpelledPlainly .ascii
      { title := "Fix the login", checklist := ["Find the cause"], visibility := "" }
      (helperOf (humanPrincipal "ann" .member)) := by
    intro hclean
    exact absurd hclean (by decide)
  exact ((private_work_is_a_persons keepsLower_ascii rfl (.numbered 1 0) {} task).2 _
    ⟨htask, List.forall_mem_nil _⟩).mpr hspelled

/-- An agent that acts for nobody starts a private task of its own. -/
theorem agent_starts_private_work :
    (startAs "Private" (sampleAgent "builder")).1.isOk = true ∧
      ((startAs "Private" (sampleAgent "builder")).2.tasks.map fun task =>
        (task.visibility, task.createdBy)) = [(.private, "builder")] ∧
      (sampleAgent "builder").agent = true ∧ (sampleAgent "builder").onBehalfOf = none := by
  decide +kernel

end Taskboard
