import Taskboard.Listing
import Taskboard.Rows

/-!
# What is offered can be claimed

Whether a task is open to an agent is decided twice: a listing looks at the view of the task that
it has just read, and a claim counts again in its own transaction. The claim is followed forward
here, statement by statement, to the state in which it succeeds (`succeeds_claimFor_iff`), and the
two decisions are compared.
-/

namespace Taskboard

variable {run : AgentRun} {now : Instant} {hash : Option Digest} {request : ClaimRequest} {db : Db}
  {env : Env} {principal : Principal} {svc : Service} {task : Task}

section Reads

/-- Nothing is unmet where every dependency that is shown is satisfied. -/
theorem unmetDependencies_eq_zero (svc : Service) (taskID : String) :
    db.unmetDependencies taskID = 0 ↔
      (svc.listTaskDependencies db taskID).all (·.satisfied) = true := by
  rw [Db.unmetDependencies, List.length_eq_zero_iff, List.filter_eq_nil_iff, List.all_eq_true]
  constructor
  · intro h view hview
    obtain ⟨row, hrow, hblocker⟩ := List.mem_filterMap.mp hview
    obtain ⟨hmem, hof⟩ := List.mem_filter.mp (mem_sortBy.mp hrow)
    obtain ⟨blocker, hfound, rfl⟩ := Option.map_eq_some_iff.mp hblocker
    simpa [of_decide_eq_true hof, hfound] using h row hmem
  · intro h row hrow
    simp only [Bool.and_eq_true, decide_eq_true_eq, not_and]
    intro hof
    cases hfound : db.task? row.blockedByTaskID with
    | none => simp
    | some blocker =>
        have hshown : { taskID := row.taskID
                        blockedByTaskID := row.blockedByTaskID
                        blockedByTitle := blocker.title
                        blockedByStatus := some blocker.status
                        satisfied := decide (blocker.status = .done)
                        createdBy := row.createdBy
                        createdAt := row.createdAt } ∈ svc.listTaskDependencies db taskID := by
          refine List.mem_filterMap.mpr ⟨row, mem_sortBy.mpr ?_, ?_⟩
          · exact List.mem_filter.mpr ⟨hrow, decide_eq_true hof⟩
          · rw [hfound]
            rfl
        simpa using h _ hshown

end Reads

section Opening

theorem candidates_ne (seed : String) : ∀ callsign ∈ candidates seed, callsign ≠ "" := by
  have hword : ∀ index < 64, words.getD index "" ≠ "" := by decide
  intro callsign hmem
  rcases List.mem_append.mp hmem with hone | htwo
  · obtain ⟨index, -, rfl⟩ := List.mem_map.mp hone
    exact hword _ (Nat.mod_lt _ (by decide))
  · obtain ⟨left, -, hright⟩ := List.mem_flatMap.mp htwo
    obtain ⟨right, -, rfl⟩ := List.mem_map.mp hright
    intro hempty
    simp at hempty

/-- A callsign that no session has. -/
def Service.Free (svc : Service) (db : Db) (callsign : String) : Prop :=
  ∀ session ∈ db.sessions, svc.unicode.lower session.callsign ≠ svc.unicode.lower callsign

/-- A session is opened under the first free callsign. -/
theorem run_openSession {keyHash sessionID : String} {names : List String}
    (hnone : ∀ session ∈ db.sessions, ¬ (session.agent = run.agent ∧ session.keyHash = keyHash))
    (hfresh : ∀ session ∈ db.sessions, session.id ≠ sessionID)
    (hnames : ∀ name ∈ names, name ≠ "") (hfree : ∃ name ∈ names, svc.Free db name) :
    ∃ callsign db', callsign ≠ "" ∧
      (openSession svc run keyHash sessionID names).run db = .ok ((sessionID, callsign), db') := by
  induction names with
  | nil =>
      obtain ⟨_, hmem, -⟩ := hfree
      cases hmem
  | cons name rest ih =>
      by_cases hname : svc.Free db name
      · let opened : AgentSession :=
          { id := sessionID
            agent := run.agent
            client := run.client
            keyHash := keyHash
            callsign := name
            createdAt := run.startedAt
            updatedAt := run.startedAt }
        refine ⟨name, sessionTable.put (db.sessions ++ [opened]) db,
          hnames name List.mem_cons_self, Tx.run_bind_ok.mpr ⟨1, _, ?_, by simp; rfl⟩⟩
        refine Table.run_insertUnless_new (fun session hsession => ?_) rfl
        refine ⟨fun hkey => hfresh session hsession (RowKey.session.inj hkey), ?_⟩
        have hcallsign := hname session hsession
        have hkey := hnone session hsession
        simp only [Bool.or_eq_false_iff, decide_eq_false_iff_not, Bool.and_eq_false_iff]
        exact ⟨not_and_or.mp hkey, hcallsign⟩
      · have hlater : ∃ name ∈ rest, svc.Free db name := by
          obtain ⟨other, hother, hfree⟩ := hfree
          rcases List.mem_cons.mp hother with rfl | hother
          · exact absurd hfree hname
          · exact ⟨other, hother, hfree⟩
        obtain ⟨callsign, db', hcallsign, hrun⟩ :=
          ih (fun name hmem => hnames name (List.mem_cons_of_mem _ hmem)) hlater
        refine ⟨callsign, db', hcallsign, Tx.run_bind_ok.mpr ⟨0, db, ?_, ?_⟩⟩
        · simp only [Service.Free, not_forall, not_not] at hname
          obtain ⟨session, hsession, htaken⟩ := hname
          exact Table.run_insertUnless_taken hsession (Or.inr (by simp [htaken]))
        · have hmissing : (db.sessions.find? fun session =>
              session.agent = run.agent ∧ session.keyHash = keyHash) = none := by
            rw [List.find?_eq_none]
            intro session hsession
            simpa using hnone session hsession
          simp only [if_neg (Nat.zero_ne_one), Tx.run_select_bind_ok, hmissing]
          exact hrun

/-- The identifiers that a claim draws are new, and a callsign is free for its session. -/
structure Env.Draws (svc : Service) (env : Env) (db : Db) : Prop where
  run : ∀ run ∈ db.runs, run.id ≠ env.newID 0
  session : ∀ session ∈ db.sessions, session.id ≠ env.newID 1
  event : ∀ event ∈ db.events, event.id ≠ env.newID 2
  callsign : ∃ callsign ∈ candidates (env.newID 1), svc.Free db callsign

theorem succeeds_findSession (run : AgentRun) (sessionKey : String) (h : env.Draws svc db) :
    ∃ r, (findSession svc run sessionKey (env.newID 1)).run db = .ok r := by
  unfold findSession
  generalize (if sessionKey = "" then "run\x00" ++ run.id else "session\x00" ++ sessionKey) = keyHash
  refine Tx.succeeds_bind (Tx.run_select_ok.mpr ⟨rfl, rfl⟩) ?_
  cases hfound : db.sessions.find? fun session =>
      session.agent = run.agent ∧ session.keyHash = keyHash with
  | some session => exact ⟨_, rfl⟩
  | none =>
      have hnone : ∀ session ∈ db.sessions,
          ¬ (session.agent = run.agent ∧ session.keyHash = keyHash) := by
        intro session hsession
        simpa using List.find?_eq_none.mp hfound session hsession
      obtain ⟨callsign, db', hcallsign, hrun⟩ :=
        run_openSession hnone h.session (candidates_ne _) h.callsign
      refine Tx.succeeds_bind hrun ?_
      exact ⟨_, Tx.run_refuse_bind_ok.mpr ⟨hcallsign, rfl⟩⟩

theorem succeeds_insertAgentRun (sessionKey : String) (h : env.Draws svc db)
    (hid : run.id = env.newID 0) (htask : (db.task? run.taskID).isSome = true) :
    ∃ r, (insertAgentRun svc run sessionKey (env.newID 1)).run db = .ok r := by
  obtain ⟨⟨⟨sessionID, callsign⟩, db1⟩, hsession⟩ := succeeds_findSession run sessionKey h
  obtain ⟨sessions, _, rfl⟩ : Nearby db db1 := nearby_findSession.run hsession
  refine Tx.succeeds_bind hsession ?_
  refine Tx.succeeds_bind (Table.run_updateWhere_ok.mpr ⟨rfl, rfl⟩) ?_
  refine Tx.succeeds_bind (Table.run_insertUnless_new (fun row hrow => ⟨?_, rfl⟩) htask) ?_
  · exact fun hkey => h.run row hrow ((RowKey.run.inj hkey).trans hid)
  · exact ⟨_, Tx.run_lift_ok.mpr ⟨rfl, rfl⟩⟩

end Opening

section Claiming

/-- The transaction of a claim succeeds where its checks pass. -/
theorem succeeds_claimTx (agent : String) (hash : Option Digest) (hdraws : env.Draws svc db)
    (hunique : db.Unique) (hmem : task ∈ db.tasks) (hversion : request.expectedVersion = task.version)
    (hopen : task.status.terminal = false) (hunmet : db.unmetDependencies task.id = 0)
    (hdefer : svc.deferActive task.deferUntil env.now = false) :
    ∃ r, (claimTx svc env task.id request agent hash).run db = .ok r := by
  have hfound := hunique.task? hmem
  have hexists : (db.task? task.id).isSome = true := by rw [hfound]; rfl
  refine Tx.succeeds_bind (run_loadTask_ok.mpr ⟨hfound, rfl⟩) ?_
  refine Tx.succeeds_refuse_bind (by simp [hversion]) ?_
  refine Tx.succeeds_refuse_bind (by simp [hopen]) ?_
  refine Tx.succeeds_refuse_bind (by simp [hopen]) ?_
  refine Tx.succeeds_bind (Tx.run_select_ok.mpr ⟨rfl, rfl⟩) ?_
  refine Tx.succeeds_refuse_bind (by simp [hunmet]) ?_
  refine Tx.succeeds_refuse_bind (by simp [hdefer]) ?_
  obtain ⟨items, hitem⟩ : ∃ items, (activateFirstItem task.id env.now).run db =
      .ok ((), { db with items }) :=
    ⟨_, Tx.run_bind_ok.mpr ⟨_, _, Table.run_updateWhere_ok.mpr ⟨rfl, rfl⟩, rfl⟩⟩
  refine Tx.succeeds_bind hitem ?_
  have hdraws' : env.Draws svc { db with items } :=
    ⟨hdraws.run, hdraws.session, hdraws.event, hdraws.callsign⟩
  obtain ⟨⟨u, db1⟩, hrun⟩ := succeeds_insertAgentRun (trimSpace request.agentSessionKey) hdraws'
    (rfl : (newRun svc env (env.newID 0) task.id agent request.client).id = env.newID 0) hexists
  refine Tx.succeeds_bind hrun ?_
  obtain ⟨sessionID, callsign, -, -, _, _, _, rfl⟩ := insertAgentRun_ok hrun
  refine Tx.succeeds_bind (run_bumpTask_ok.mpr ⟨rfl, rfl⟩) ?_
  have hone : (db.tasks.filter (bumps task.id request.expectedVersion fun _ => true)).length = 1 := by
    rw [hversion]
    exact length_filter_bumps hunique hmem
  rw [hone, if_neg (not_not.mpr rfl)]
  refine Tx.succeeds_bind (Tx.run_pure_ok.mpr ⟨rfl, rfl⟩) ?_
  refine ⟨((), _), run_insertEvent_ok.mpr ⟨?_, hdraws.event, rfl⟩⟩
  rw [Db.task?, List.find?_isSome]
  refine ⟨_, mem_mapWhere.mpr ⟨task, hmem, rfl⟩, ?_⟩
  split <;> simp

/-- A claim is made of a task that waits for nothing. -/
theorem claimTx_ready {agent taskID : String} {r : Unit × Db}
    (h : (claimTx svc env taskID request agent hash).run db = .ok r) :
    db.unmetDependencies taskID = 0 ∧
      ∃ current, db.task? taskID = some current ∧
        svc.deferActive current.deferUntil env.now = false := by
  simp only [claimTx, run_loadTask_bind_ok, Tx.run_refuse_bind_ok, Tx.run_select_bind_ok] at h
  obtain ⟨current, hcurrent, -, -, -, hunmet, hdefer, -⟩ := h
  exact ⟨Nat.eq_zero_of_not_pos hunmet, current, hcurrent, Bool.eq_false_iff.mpr hdefer⟩

/-- Claiming succeeds where its transaction does: the task and its new run are then read. -/
theorem succeeds_claim {actor : String} (hdraws : env.Draws svc db)
    (hunique : db.Unique) (hproper : task.Proper) (hmem : task ∈ db.tasks)
    (hversion : request.expectedVersion = task.version)
    (hsession : byteLen (trimSpace request.agentSessionKey) ≤ 200)
    (hopen : task.status.terminal = false) (hunmet : db.unmetDependencies task.id = 0)
    (hdefer : svc.deferActive task.deferUntil env.now = false) :
    ∃ result db', (claim svc env task.id request actor hash).exec db = (.ok result, db') := by
  have hpositive := hproper.version
  unfold claim
  simp only [hproper.trimmed]
  refine Call.succeeds_refuse_bind ?_ (Call.succeeds_refuse_bind (by omega) ?_)
  · rw [hversion, not_or]
    exact ⟨hproper.named, by omega⟩
  generalize (if trimSpace request.agent = "" then defaultActor actor "unassigned"
    else trimSpace request.agent) = agent
  obtain ⟨⟨u, db'⟩, htx⟩ := succeeds_claimTx agent hash hdraws hunique hmem hversion hopen
    hunmet hdefer
  refine Call.succeeds_bind (by rw [Call.exec_tx, htx]) ?_
  obtain ⟨_, sessionID, callsign, _, -, -, -, -, -, -, -, -, -, _, _, _, _, hafter⟩ := claimTx_ok htx
  have htask : (db'.task? task.id).isSome = true := by
    rw [hafter, Db.task?, List.find?_isSome]
    refine ⟨_, mem_mapWhere.mpr ⟨task, hmem, rfl⟩, ?_⟩
    split <;> simp
  obtain ⟨row, hrow⟩ := Option.isSome_iff_exists.mp htask
  have hid : row.id = task.id := (mem_of_task? hrow).2
  have hget : (getTask svc env.now task.id).exec db' = (.ok (svc.view db' env.now row), db') :=
    hid ▸ exec_getTask (hid.symm ▸ hrow)
  refine Call.succeeds_bind hget ?_
  have hrun : ((svc.listRuns db' task.id).find? fun run => run.id = env.newID 0).isSome = true := by
    rw [List.find?_isSome]
    refine ⟨_, mem_listRuns.mpr ⟨{ newRun svc env (env.newID 0) task.id agent request.client with
      sessionID, callsign }, ?_, rfl, rfl⟩, ?_⟩
    · rw [hafter]
      exact List.mem_append_right _ List.mem_cons_self
    · rw [withCallsign_id]
      exact decide_eq_true rfl
  obtain ⟨run, hrun⟩ := Option.isSome_iff_exists.mp hrun
  refine ⟨(svc.view db' env.now row, run), db', ?_⟩
  have hruns : (svc.view db' env.now row).runs = svc.listRuns db' task.id := by rw [← hid]; rfl
  rw [hruns, hrun]
  rfl

end Claiming

/-- Nothing but the task itself holds the agent back: no limit of its policy, no key that it must
send, no capacity that it advertised. -/
structure Principal.Unlimited (principal : Principal) (db : Db) (now : Instant) : Prop where
  runs : principal.policy.maxConcurrentRuns ≤ 0
  pickups : principal.policy.maxPickupsPerMinute ≤ 0
  key : principal.policy.requireIdempotency = false
  capacity : ∀ advertisement ∈ db.getWorkerAdvertisement principal.id now,
    advertisement.capacity ≤ 0

section Checks

theorem exec_checkWorker (h : principal.Unlimited db now) (view : TaskView) :
    (checkWorker view principal now).exec db =
      (refuse (!workerMatches view.requirements (advertisedCapabilities principal now db))
        (ErrValidation "worker is missing operational requirements"), db) := by
  have hcapacity : ¬ 0 < (db.getWorkerAdvertisement principal.id now).elim 0 (·.capacity) := by
    cases hfound : db.getWorkerAdvertisement principal.id now with
    | none => simp
    | some advertisement => simpa using h.capacity advertisement hfound
  simp only [checkWorker, Call.exec_bind, Call.exec_look, Call.exec_lift, if_neg hcapacity,
    Call.exec_pure, advertisedCapabilities]
  by_cases hmatches : workerMatches view.requirements
      ((db.getWorkerAdvertisement principal.id now).elim [] (·.capabilities)) = true
  · simp [refuse, hmatches]
  · simp [refuse, hmatches]

theorem exec_enforceAgentPickupLimits (h : principal.Unlimited db now) :
    (enforceAgentPickupLimits svc principal now).exec db = (.ok (), db) := by
  unfold enforceAgentPickupLimits
  split
  · simp only [if_neg (not_lt.mpr h.runs), if_neg (not_lt.mpr h.pickups)]
    rfl
  · rfl

/-- What an agent on its own may see of open work, it may claim. -/
theorem checkClaim_of_view {view : TaskView} (hagent : principal.agent = true)
    (hoperator : principal.operator = "") (hlink : view.duplicateLink = none)
    (hstatus : view.status = .queued ∨ view.status = .stale)
    (hview : canView view.toTask principal = true) : checkClaim view principal = .ok () := by
  have howner : ¬ (principal.operator = "" ∧ view.visibility = .team ∧ view.owner ≠ "" ∧
      view.owner ≠ principal.id) := by
    rintro ⟨-, hteam, hsome, hother⟩
    simp [canView, hagent, hoperator, hteam, hsome, hother] at hview
  have hopen : ¬ (view.status ≠ .queued ∧ view.status ≠ .stale) := by tauto
  simp only [checkClaim, hlink, refuse, if_neg howner, if_neg hopen]
  rfl

end Checks

section Claimable

/-- A task is held back by nothing in the view of it just when the claim's own counts say so. -/
theorem ready_iff : (svc.view db now task).ready = true ↔
    db.unmetDependencies task.id = 0 ∧ svc.deferActive task.deferUntil now = false := by
  rw [unmetDependencies_eq_zero svc]
  simp [Service.view, and_comm]

theorem duplicateLink_none (h : ∀ keptID ∈ task.duplicateOf, keptID = "") :
    (svc.view db now task).duplicateLink = none := by
  cases hkept : task.duplicateOf with
  | none => simp [Service.view, hkept]
  | some keptID =>
      have hempty := h keptID hkept
      simp [Service.view, hkept, hempty]

/-- When a claim of open work succeeds that is made at one moment by an agent on its own. -/
theorem succeeds_claimFor_iff (hunique : db.Unique) (hproper : task.Proper) (hmem : task ∈ db.tasks)
    (hstatus : task.status = .queued ∨ task.status = .stale)
    (hlink : ∀ keptID ∈ task.duplicateOf, keptID = "") (hagent : principal.agent = true)
    (hclaim : principal.hasCapability .taskClaim = true) (hoperator : principal.operator = "")
    (hunlimited : principal.Unlimited db env.now) (hchecked : env.checked = env.now)
    (hdraws : env.Draws svc db) (hversion : request.expectedVersion = task.version)
    (hkey : request.idempotencyKey = "")
    (hsession : byteLen (trimSpace request.agentSessionKey) ≤ 200) :
    (∃ result db', (claimFor svc env task.id request principal).exec db = (.ok result, db')) ↔
      canView task principal = true ∧ (svc.view db env.now task).ready = true ∧
        workerMatches (db.listTaskRequirements task.id)
          (advertisedCapabilities principal env.now db) = true := by
  have hfound := hunique.task? hmem
  rw [ready_iff]
  constructor
  · rintro ⟨result, db', h⟩
    obtain ⟨_, -, h⟩ := Call.exec_lift_bind_ok h
    rw [Call.exec_holding] at h
    rcases exec_keyedAs_ok h with ⟨_, ⟨hkeyed, -⟩, -⟩ | ⟨-, h⟩
    · exact absurd hkey hkeyed
    obtain ⟨view, hget, h⟩ := Call.exec_bind_quiet_ok quiet_getForHidden h
    obtain ⟨_, -, h⟩ := Call.exec_lift_bind_ok h
    obtain ⟨_, hworker, h⟩ := Call.exec_bind_quiet_ok quiet_checkWorker h
    obtain ⟨_, -, h⟩ := Call.exec_bind_quiet_ok quiet_enforceAgentPickupLimits h
    obtain ⟨_, -, h⟩ := Call.exec_lift_bind_ok h
    obtain ⟨_, -, h⟩ := Call.exec_lift_bind_ok h
    obtain ⟨_, db1, htx, h⟩ := Call.exec_bind_ok h
    obtain ⟨hrow, -, hrequirements, hview⟩ := getForHidden_ok hget
    rw [hproper.trimmed] at hrow hrequirements htx
    obtain rfl : task = view.toTask := Option.some.inj (hfound.symm.trans hrow)
    rw [hchecked, exec_checkWorker hunlimited] at hworker
    have hmatches : workerMatches view.requirements
        (advertisedCapabilities principal env.now db) = true := by
      simpa using refuse_ok_iff.mp (Prod.mk.inj hworker).1
    obtain ⟨u, hrun, -⟩ | ⟨_, -, herror, -⟩ := Call.exec_tx_cases htx
    · obtain ⟨hunmet, current, hcurrent, hdefer⟩ := claimTx_ready hrun
      obtain rfl : view.toTask = current := Option.some.inj (hfound.symm.trans hcurrent)
      exact ⟨hview, ⟨hunmet, hdefer⟩, hrequirements ▸ hmatches⟩
    · cases herror
  · rintro ⟨hview, ⟨hunmet, hdefer⟩, hmatches⟩
    have hopen : task.status.terminal = false := by
      rcases hstatus with h | h <;> rw [h] <;> rfl
    refine Call.succeeds_refuse_bind (by simp [hclaim]) ?_
    have hnokey : principal.keyRequired = false := by simp [Identity.keyRequired, hunlimited.key]
    simp only [keyed, keyedAs, hkey, replayIdempotency, Call.exec_holding, hnokey, ne_eq,
      not_true_eq_false, decide_false, Bool.false_eq_true, if_false, if_true]
    refine Call.succeeds_bind (by rfl) ?_
    obtain ⟨view, hget, hrow, hrequirements, hnolink⟩ := exec_getForHidden svc env.checked
      hproper.trimmed hfound hview
    refine Call.succeeds_bind hget ?_
    have hcheck : checkClaim view principal = .ok () :=
      checkClaim_of_view hagent hoperator (hnolink (duplicateLink_none hlink)) (hrow ▸ hstatus)
        (hrow ▸ hview)
    refine Call.succeeds_bind (by rw [hcheck]; rfl) ?_
    rw [← hchecked] at hunlimited hmatches
    have hworker := exec_checkWorker hunlimited view
    rw [hrequirements, hmatches] at hworker
    refine Call.succeeds_bind hworker ?_
    refine Call.succeeds_bind (exec_enforceAgentPickupLimits hunlimited) ?_
    exact succeeds_claim hdraws hunique hproper hmem hversion hsession hopen hunmet hdefer

end Claimable

/-- **What is offered is what can be claimed.** An agent that acts for nobody and is not limited
finds an open task in the pages of its listing just when its claim of the task, made at the same
moment and at the task's version, succeeds. -/
theorem offered_iff_claimable (list : Lister) {svc : Service}
    (hbefore : IsStrictTotalOrder Instant fun a b => svc.before a b = true) {db : Db}
    (hunique : db.Unique) (hproper : ∀ task ∈ db.tasks, task.Proper) {principal : Principal}
    (hagent : principal.agent = true) (hread : principal.can .taskRead = true)
    (hclaim : principal.hasCapability .taskClaim = true) (hoperator : principal.operator = "")
    (hperson : principal.onBehalfOf = none) {env : Env} (hchecked : env.checked = env.now)
    (hunlimited : principal.Unlimited db env.now) (hdraws : env.Draws svc db) {task : Task}
    (hmem : task ∈ db.tasks) (hstatus : task.status = .queued ∨ task.status = .stale)
    (hlink : ∀ keptID ∈ task.duplicateOf, keptID = "") {request : ClaimRequest}
    (hversion : request.expectedVersion = task.version) (hkey : request.idempotencyKey = "")
    (hsession : byteLen (trimSpace request.agentSessionKey) ≤ 200) (limit : Int) {fuel : Nat}
    (hfuel : db.tasks.length < fuel) :
    ∃ views, listPages list svc env.now { limit } principal db fuel = some views ∧
      ((∃ view ∈ views, view.id = task.id) ↔
        ∃ result db', (claimFor svc env task.id request principal).exec db = (.ok result, db')) := by
  refine ⟨_, listPages_eq hbefore hunique (fun task htask => (hproper task htask).named) hread
    (rfl : listedStatuses [] = .ok []) (rfl : listedVisibility "" = .ok none) hfuel, ?_⟩
  rw [succeeds_claimFor_iff hunique (hproper task hmem) hmem hstatus hlink hagent hclaim hoperator
    hunlimited hchecked hdraws hversion hkey hsession]
  have hclause : visibilityClause principal.operator principal.id principal.agent task =
      canView task principal := by
    cases hvisibility : task.visibility <;>
      simp [visibilityClause, canView, hvisibility, hagent, hoperator, hperson, hread]
  have hopen : (task.status = .queued || task.status = .stale : Bool) = true := by
    simpa using hstatus
  have hskips : skipsPickup principal none (advertisedCapabilities principal env.now db)
      (svc.view db env.now task) = false ↔ (svc.view db env.now task).ready = true ∧
        workerMatches (db.listTaskRequirements task.id)
          (advertisedCapabilities principal env.now db) = true := by
    have hopen' : ((svc.view db env.now task).status = .queued ||
      (svc.view db env.now task).status = .stale : Bool) = true := hopen
    simp only [skipsPickup, hagent, hoperator, hopen', decide_true, Bool.true_or, Bool.and_self,
      Bool.true_and, Bool.not_eq_false', Bool.and_eq_true]
    rfl
  rw [← hskips, ← hclause]
  constructor
  · rintro ⟨view, hview, hid⟩
    obtain ⟨row, hrow, rfl⟩ := List.mem_map.mp hview
    obtain ⟨hrow, hshown, -, hoffered⟩ := mem_offeredTasks.mp hrow
    obtain rfl : row = task := hunique.eq_of_id hrow hmem hid
    exact ⟨hshown, hoffered⟩
  · rintro ⟨hshown, hoffered⟩
    refine ⟨svc.view db env.now task, List.mem_map_of_mem (mem_offeredTasks.mpr ?_), rfl⟩
    exact ⟨hmem, hshown, by simp [TaskQuery.matches], hoffered⟩

/-- An agent without limits. -/
def freeAgent : Principal :=
  agentPrincipal "builder"
    { defaultAgentPolicy with maxConcurrentRuns := 0, maxPickupsPerMinute := 0 }

/-- The agent can claim the first task of the board, and finds it in its listing. -/
theorem first_task_is_offered :
    (∃ result db', (claimFor .ascii (.numbered 3 30) "0100" { expectedVersion := 1 }
      freeAgent).exec pairBoard = (.ok result, db')) ∧
    ∃ views, listPages (.spelled 1) .ascii 30 { limit := 1 } freeAgent pairBoard 3 = some views ∧
      ∃ view ∈ views, view.id = "0100" := by
  have hdevelops : Develops .ascii (fun _ _ => True) pairBoard :=
    (Develops.empty.change (.operation _) trivial).change (.operation _) trivial
  have hnone : pairBoard.runs = [] ∧ pairBoard.sessions = [] ∧ pairBoard.advertisements = [] ∧
      ∀ event ∈ pairBoard.events, event.id ≠ (Env.numbered 3 30).newID 2 := by decide +kernel
  obtain ⟨hruns, hsessions, hadvertised, hevents⟩ := hnone
  have hdraws : (Env.numbered 3 30).Draws .ascii pairBoard :=
    { run := by simp [hruns]
      session := by simp [hsessions]
      event := hevents
      callsign := ⟨_, List.mem_append_left _
        (List.mem_map_of_mem (List.mem_range.mpr (Nat.zero_lt_succ 63))),
        by simp [Service.Free, hsessions]⟩ }
  have hunlimited : freeAgent.Unlimited pairBoard (Env.numbered 3 30).now :=
    { runs := by decide
      pickups := by decide
      key := by decide
      capacity := by simp [Db.getWorkerAdvertisement, hadvertised] }
  obtain ⟨task, hmem, hid, hversion, hstatus, hlink, hview, hready, hmatches⟩ :
      ∃ task ∈ pairBoard.tasks, task.id = "0100" ∧
        ({ expectedVersion := 1 } : ClaimRequest).expectedVersion = task.version ∧
        task.status = .queued ∧ task.duplicateOf = none ∧ canView task freeAgent = true ∧
        (Service.ascii.view pairBoard 30 task).ready = true ∧
        workerMatches (pairBoard.listTaskRequirements task.id)
          (advertisedCapabilities freeAgent 30 pairBoard) = true := by
    decide +kernel
  have hnolink : ∀ keptID ∈ task.duplicateOf, keptID = "" := by simp [hlink]
  have hclaimed := (succeeds_claimFor_iff hdevelops.unique (hdevelops.proper task hmem) hmem
    (Or.inl hstatus) hnolink rfl (by decide) rfl hunlimited rfl hdraws hversion rfl
    (by decide +kernel)).mpr ⟨hview, hready, hmatches⟩
  obtain ⟨views, hviews, hiff⟩ := offered_iff_claimable (.spelled 1) ascii_before_order
    hdevelops.unique hdevelops.proper rfl (by decide) (by decide) rfl rfl
    (rfl : (Env.numbered 3 30).checked = (Env.numbered 3 30).now) hunlimited hdraws hmem
    (Or.inl hstatus) hnolink hversion rfl (by decide +kernel) 1
    (by decide +kernel : pairBoard.tasks.length < 3)
  rw [hid] at hclaimed hiff
  exact ⟨hclaimed, views, hviews, hiff.mpr hclaimed⟩

end Taskboard
