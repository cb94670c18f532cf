import Taskboard.Rows

/-!
# The limits of an agent's runs

An agent's policy limits how many runs it may have, how fast it may pick work up, and how old a
run may be that a heartbeat extends. The first two are looked at when a run is opened, the last
one when a heartbeat comes in, and none of them by the general update.
-/

namespace Taskboard

variable {keep : AgentRun → AgentRun → Prop} {now : Instant} {op : Op} {principal : Principal}
  {runID taskID : String} {db' : Db}

variable {db : Db} {env : Env} {svc : Service} {agent : String}

/-- What a call of an agent leaves of the lease of a run that is past its time. -/
def Op.LeavesLease (svc : Service) (op : Op) (db : Db) (run run' : AgentRun) : Prop :=
  match op with
  | .heartbeat .. | .claim .. => run'.leaseExpires = run.leaseExpires
  | .update env taskID request _ =>
      run'.leaseExpires = run.leaseExpires ∨
        run.isNamed (trimSpace taskID) request.runID = true ∧
          ∃ current, db.task? (trimSpace taskID) = some current ∧
            run'.leaseExpires = if (request.nextStatus current.status).endsRun then env.now
              else env.now + svc.leaseDuration
  | .escalate env .. | .updateControl env .. =>
      run'.leaseExpires = run.leaseExpires ∨
        run.endedAt = none ∧ run'.endedAt ≠ none ∧ run'.leaseExpires = env.now
  | _ => True

section Age

variable {run run' : AgentRun}

theorem lease_of_wanes (h : run.Wanes now run') :
    run'.leaseExpires = run.leaseExpires ∨
      run.endedAt = none ∧ run'.endedAt ≠ none ∧ run'.leaseExpires = now := by
  rcases h.life with ⟨-, -, hlease⟩ | ⟨hopen, hended, hlease | hlease⟩
  · exact Or.inl hlease
  · exact Or.inl hlease
  · exact Or.inr ⟨hopen, hended, hlease⟩

/-- A heartbeat does not extend a run that is past its time. -/
theorem Heartbeats.lease (hruns : db.RunsNamed)
    (h : Heartbeats svc env taskID runID principal db db')
    (hlimit : 0 < principal.policy.maxRunDuration) (hrun : run ∈ db.runs)
    (haged : principal.policy.maxRunDuration ≤ env.checked - run.startedAt)
    (hrun' : run' ∈ db'.runs) (hid : run'.id = run.id) :
    run'.leaseExpires = run.leaseExpires := by
  obtain ⟨young, hyoung, hname, -, -, hage⟩ := h.young
  rw [h.runs] at hrun'
  obtain ⟨old, hold, rfl⟩ := mem_mapWhere.mp hrun'
  split at hid <;> rename_i hbeats
  · -- The run that is renewed is the one whose age was looked at.
    obtain rfl := hruns.eq_of_id hold hrun hid
    simp only [AgentRun.beats, Bool.and_eq_true, decide_eq_true_eq] at hbeats
    obtain rfl := hruns.eq_of_id hrun hyoung (hbeats.1.1.1.trans hname.symm)
    exact absurd ⟨hlimit, haged⟩ hage
  · rw [if_neg hbeats]
    obtain rfl := hruns.eq_of_id hold hrun hid
    rfl

/-- The calls of an agent that touch its runs, other than its starts. -/
def Op.RunCallOf (principal : Principal) (op : Op) : Prop :=
  match op with
  | .heartbeat _ _ _ caller | .update _ _ _ caller | .claim _ _ _ caller | .escalate _ _ _ caller
  | .updateControl _ _ _ caller => caller = principal
  | _ => False

theorem lease_of_same (hruns : db.RunsNamed) (hsame : db' = db) (hrun : run ∈ db.runs)
    (hrun' : run' ∈ db'.runs) (hid : run'.id = run.id) : run'.leaseExpires = run.leaseExpires := by
  rw [hruns.eq_of_id (hsame ▸ hrun') hrun hid]

end Age

/-- **A run past its time is not extended by heartbeats**, nor by claims. What does move its
lease is the general update that names it, which renews it as it renews any run, and a call that
ends it, which sets the lease to the time of the call. -/
theorem aged_lease_moves_by_update {svc : Service} {db : Db} (h : Develops svc (fun _ _ => True) db)
    {principal : Principal} (hlimit : 0 < principal.policy.maxRunDuration) {op : Op}
    (hop : op.RunCallOf principal) {run run' : AgentRun} (hrun : run ∈ db.runs)
    (haged : principal.policy.maxRunDuration ≤ op.env.checked - run.startedAt)
    (hrun' : run' ∈ (op.step svc db).runs) (hid : run'.id = run.id) :
    op.LeavesLease svc db run run' := by
  have hruns := h.runsNamed
  cases op with
  | heartbeat env taskID runID caller =>
      obtain rfl : caller = principal := hop
      rcases Call.atMost_then_quiet atMost_heartbeatFor (fun _ => Call.quiet_pure _) db with
        hsame | hbeats
      · exact lease_of_same hruns hsame hrun hrun' hid
      · exact hbeats.lease hruns hlimit hrun haged hrun' hid
  | claim env taskID request caller =>
      rcases Call.atMost_then_quiet atMost_claimFor_opens (fun _ => Call.quiet_pure _) db with
        hsame | ⟨new, hopens, hadded⟩
      · exact lease_of_same hruns hsame hrun hrun' hid
      · rcases List.mem_append.mp (hadded ▸ hrun') with hold | hnew
        · rw [hruns.eq_of_id hold hrun hid]
          rfl
        · rw [List.mem_singleton.mp hnew] at hid
          exact absurd hid.symm (hopens.fresh run hrun)
  | update env taskID request caller =>
      rcases eq_or_ne ((Op.update env taskID request caller).step svc db) db with hsame | hne
      · exact Or.inl (lease_of_same hruns hsame hrun hrun' hid)
      · obtain ⟨current, hcurrent, -, hamended⟩ := (step_update.resolve_left hne).amended
        have hrow := hruns.kept (fun _ _ h => h.id) hamended hrun hrun' hid
        cases hnamed : run.isNamed (trimSpace taskID) request.runID with
        | false => exact Or.inl (hrow.lease hnamed)
        | true =>
            obtain ⟨_, rfl⟩ := hrow.named hnamed
            exact Or.inr ⟨hnamed, current, hcurrent, rfl⟩
  | escalate env taskID request caller =>
      rcases Call.atMost_then_quiet atMost_createEscalationFor (fun _ => Call.quiet_pure _) db with
        hsame | ⟨_, _, -, htx⟩
      · exact Or.inl (lease_of_same hruns hsame hrun hrun' hid)
      · exact lease_of_wanes (hruns.kept (fun _ _ h => h.id) (waning_createEscalationTx.run htx).runs
          hrun hrun' hid)
  | updateControl env controlID request caller =>
      rcases Call.atMost_then_quiet atMost_updateRunControlFor (fun _ => Call.quiet_pure _) db with
        hsame | ⟨_, _, -, -, -, htx⟩
      · exact Or.inl (lease_of_same hruns hsame hrun hrun' hid)
      · exact lease_of_wanes (hruns.kept (fun _ _ h => h.id) (waning_updateRunControlTx htx).runs
          hrun hrun' hid)
  | _ => exact False.elim hop

/-- An agent whose runs may be a minute old. -/
def briefAgent : Principal :=
  agentPrincipal "builder" { defaultAgentPolicy with maxRunDuration := minute }

/-- The agent starts a task. -/
def briefOp : Op :=
  .start (.numbered 1 0) { title := "Fix the login", checklist := ["Find the cause"] } briefAgent

/-- After ten minutes a heartbeat leaves the lease of the run as it is. -/
theorem aged_lease_survives_heartbeat :
    (briefOp.step .ascii {}).runs.map (fun run => (run.id, run.startedAt, run.leaseExpires)) =
        [("0101", 0, 15 * minute)] ∧
      ∀ run ∈ (briefOp.step .ascii {}).runs,
        ∀ run' ∈ ((Op.heartbeat (.numbered 2 (10 * minute)) "0100" "0101" briefAgent).step .ascii
          (briefOp.step .ascii {})).runs,
        run'.id = run.id → run'.leaseExpires = run.leaseExpires := by
  have hdevelops : Develops .ascii (fun _ _ => True) (briefOp.step .ascii {}) :=
    Develops.empty.change (.operation briefOp) trivial
  have haged : ∀ run ∈ (briefOp.step .ascii {}).runs,
      briefAgent.policy.maxRunDuration ≤ 10 * minute - run.startedAt := by
    decide +kernel
  refine ⟨by decide +kernel, fun run hrun run' hrun' hid => ?_⟩
  have hlimit : 0 < briefAgent.policy.maxRunDuration := by decide
  have hcall : (Op.heartbeat (.numbered 2 (10 * minute)) "0100" "0101" briefAgent).RunCallOf
      briefAgent := rfl
  exact aged_lease_moves_by_update hdevelops hlimit hcall hrun (haged run hrun) hrun' hid

/-- After ten minutes an update that names the run extends its lease. -/
theorem aged_lease_is_extended :
    Develops .ascii (fun _ _ => True) (briefOp.step .ascii {}) ∧
      briefAgent.policy.maxRunDuration = minute ∧
      (briefOp.step .ascii {}).runs.map
        (fun run => (run.id, run.agent, run.startedAt, run.leaseExpires)) =
        [("0101", "builder", 0, 15 * minute)] ∧
      ((Op.update (.numbered 2 (10 * minute)) "0100"
        { expectedVersion := 1, runID := "0101", currentNote := some "Half done" }
        briefAgent).step .ascii (briefOp.step .ascii {})).runs.map
        (fun run => (run.id, run.leaseExpires)) = [("0101", 25 * minute)] :=
  ⟨Develops.empty.change (.operation briefOp) trivial, rfl, by decide +kernel, by decide +kernel⟩

/-- The number of live runs of an agent. -/
def Db.liveRuns (db : Db) (agent : String) (now : Instant) : Nat :=
  (db.runs.filter fun run => run.agent = agent && run.live now).length

/-- The boards that changes lead to one at a time, under a clock that does not go back. -/
inductive Timeline (svc : Service) (ok : Op → Db → Prop) : Instant → Db → Prop
  | empty (now : Instant) : Timeline svc ok now {}
  | wait {now : Instant} {db : Db} (h : Timeline svc ok now db) (later : Instant)
      (hlater : now ≤ later) : Timeline svc ok later db
  | operation {now : Instant} {db : Db} (h : Timeline svc ok now db) (op : Op)
      (hchecked : now ≤ op.env.checked) (hnow : op.env.checked ≤ op.env.now) (hok : ok op db) :
      Timeline svc ok op.env.now (op.step svc db)
  | delete {now : Instant} {db db' : Db} (h : Timeline svc ok now db) (hdeletes : Deletes db db') :
      Timeline svc ok now db'

/-- A run of the principal that the operation opens is opened by a start or a claim of the
principal. -/
def Op.OpensOwn (svc : Service) (principal : Principal) (op : Op) (db : Db) : Prop :=
  ∀ run' ∈ (op.step svc db).runs, run'.agent = principal.id →
    (∀ run ∈ db.runs, run.id ≠ run'.id) →
    (∃ request, op = .start op.env request principal) ∨
      ∃ taskID request, op = .claim op.env taskID request principal

/-- The leases that a check of the limit finds lapsed have lapsed: as stored texts they compare with
the time of the check as the instants do. -/
def Op.ReadsLeases (svc : Service) (op : Op) (db : Db) : Prop :=
  ∀ run ∈ db.runs, svc.before run.leaseExpires op.env.checked = true →
    run.leaseExpires < op.env.checked

/-- The run is live already, or its agent has runs to spare. -/
def Db.Spares (db : Db) (principal : Principal) (now : Instant) (run : AgentRun) : Prop :=
  run.live now = true ∨ (db.liveRuns principal.id now : Int) < principal.policy.maxConcurrentRuns

/-- A heartbeat, or an update that leaves its task active, gives new time only to runs of the
principal that are live, unless the principal has runs to spare. -/
def Op.RenewsWithin (principal : Principal) (op : Op) (db : Db) : Prop :=
  match op with
  | .heartbeat env taskID runID _ =>
      ∀ run ∈ db.runs, run.beats (trimSpace taskID) (trimSpace runID) = true →
        run.agent = principal.id → db.Spares principal env.now run
  | .update env taskID request _ =>
      ∀ task, db.task? (trimSpace taskID) = some task → task.version = request.expectedVersion →
        request.nextStatus task.status = .active →
        ∀ run ∈ db.runs, run.isNamed (trimSpace taskID) request.runID = true →
          run.agent = principal.id → db.Spares principal env.now run
  | _ => True

section Live

theorem liveRuns_le_of_le {later : Instant} (h : now ≤ later) :
    db.liveRuns agent later ≤ db.liveRuns agent now := by
  refine length_filter_le_of_forall₂ (List.forall₂_same.mpr fun run _ => rfl) ?_
  rintro run _ rfl hlive
  simp only [Bool.and_eq_true] at hlive ⊢
  exact ⟨hlive.1, AgentRun.live_of_le hlive.2 h⟩

theorem liveRuns_le_of_forall₂ (hkeep : ∀ run run', keep run run' → run'.agent = run.agent ∧
      (run'.live now = true → run.agent = agent → run.live now = true))
    (h : List.Forall₂ keep db.runs db'.runs) : db'.liveRuns agent now ≤ db.liveRuns agent now := by
  refine length_filter_le_of_forall₂ h fun run run' hrow hlive => ?_
  obtain ⟨hagent, hlived⟩ := hkeep run run' hrow
  simp only [Bool.and_eq_true, decide_eq_true_eq, hagent] at hlive ⊢
  exact ⟨hlive.1, hlived hlive.2 hlive.1⟩

/-- Where one run at most gets new time, there is one more live run at most. -/
theorem liveRuns_le_succ (hruns : db.RunsNamed) (id : String)
    (hkeep : ∀ run run', keep run run' → run'.agent = run.agent ∧
      (run'.live now = true → run.id = id ∨ run.live now = true))
    (h : List.Forall₂ keep db.runs db'.runs) :
    db'.liveRuns agent now ≤ db.liveRuns agent now + 1 := by
  have hone : (db.runs.filter fun run => run.id = id).length ≤ 1 := by
    have hcount := List.nodup_iff_count_le_one.mp hruns.unique id
    rw [List.count, List.countP_map, List.countP_eq_length_filter] at hcount
    exact hcount
  refine le_trans (length_filter_le_of_forall₂ (p := fun run =>
    (run.agent = agent && run.live now) || run.id = id) h fun run run' hrow hlive => ?_) ?_
  · obtain ⟨hagent, hlived⟩ := hkeep run run' hrow
    simp only [Bool.and_eq_true, Bool.or_eq_true, decide_eq_true_eq, hagent] at hlive ⊢
    rcases hlived hlive.2 with hid | hlived
    · exact Or.inr hid
    · exact Or.inl ⟨hlive.1, hlived⟩
  · exact (length_filter_or_le db.runs).trans (Nat.add_le_add_left hone _)

/-- Where the only run that may get new time is live, or the principal has runs to spare, the
principal stays within its limit. -/
theorem liveRuns_renewed (hruns : db.RunsNamed) (id : String)
    (h : List.Forall₂ (fun run run' : AgentRun => run'.agent = run.agent ∧
      (run'.live now = true → run.live now = true ∨
        run.id = id ∧ (run.agent = principal.id → db.Spares principal now run))) db.runs db'.runs)
    (hwithin : (db.liveRuns principal.id now : Int) ≤ principal.policy.maxConcurrentRuns) :
    (db'.liveRuns principal.id now : Int) ≤ principal.policy.maxConcurrentRuns := by
  by_cases hspare : (db.liveRuns principal.id now : Int) < principal.policy.maxConcurrentRuns
  · have hle : db'.liveRuns principal.id now ≤ db.liveRuns principal.id now + 1 := by
      refine liveRuns_le_succ hruns id (fun run run' hrow => ⟨hrow.1, fun hlive => ?_⟩) h
      exact (hrow.2 hlive).symm.imp_left And.left
    omega
  · have hle : db'.liveRuns principal.id now ≤ db.liveRuns principal.id now := by
      refine liveRuns_le_of_forall₂ (fun run run' hrow => ⟨hrow.1, fun hlive hagent => ?_⟩) h
      rcases hrow.2 hlive with hlived | ⟨-, hspares⟩
      · exact hlived
      · exact (hspares hagent).resolve_right hspare
    omega

theorem liveRuns_opened {checked : Instant}
    (hreads : ∀ run ∈ db.runs, svc.before run.leaseExpires checked = true →
      run.leaseExpires < checked)
    (hclock : checked ≤ now) (hlimits : WithinLimits svc principal checked db)
    (hlimit : 0 < principal.policy.maxConcurrentRuns) :
    (db.liveRuns principal.id now : Int) < principal.policy.maxConcurrentRuns := by
  have hcount := hlimits.concurrent hlimit
  have hle : db.liveRuns principal.id now ≤
      (db.runs.filter fun run => run.agent = principal.id && svc.liveAt checked run).length := by
    rw [Db.liveRuns, ← List.countP_eq_length_filter, ← List.countP_eq_length_filter]
    apply List.countP_mono_left
    intro run hrun hlive
    simp only [Bool.and_eq_true, AgentRun.live_iff] at hlive
    obtain ⟨hagent, hstatus, hopen, hlease⟩ := hlive
    have hkept : svc.before run.leaseExpires checked = false := by
      rw [Bool.eq_false_iff]
      intro hlapsed
      exact absurd (hreads run hrun hlapsed) (not_lt.mpr (hclock.trans hlease.le))
    simp [hagent, Service.liveAt, hstatus, hopen, hkept]
  omega

theorem liveRuns_append (agent : String) (now : Instant) {run : AgentRun}
    (h : db'.runs = db.runs ++ [run]) :
    db'.liveRuns agent now ≤ db.liveRuns agent now + 1 ∧
      (run.agent ≠ agent → db'.liveRuns agent now = db.liveRuns agent now) := by
  unfold Db.liveRuns
  rw [h, List.filter_append, List.length_append]
  constructor
  · have hone : ([run].filter fun run => run.agent = agent && run.live now).length ≤ 1 :=
      List.length_filter_le _ _
    omega
  · intro hne
    simp [hne]

/-- What an operation does to the number of live runs: it opens one within the limit, renews one
with runs to spare, or leaves no more of them than there were. -/
theorem liveRuns_step (hruns : db.RunsNamed) (hagent : principal.agent = true)
    (hlimit : 0 < principal.policy.maxConcurrentRuns)
    (hclock : op.env.checked ≤ op.env.now) (hown : op.OpensOwn svc principal db)
    (hreads : op.ReadsLeases svc db) (hrenews : op.RenewsWithin principal db)
    (hwithin : (db.liveRuns principal.id op.env.now : Int) ≤ principal.policy.maxConcurrentRuns) :
    ((op.step svc db).liveRuns principal.id op.env.now : Int) ≤
      principal.policy.maxConcurrentRuns := by
  cases (op.leaseEffect db : op.LeaseEffect svc db (op.step svc db)) with
  | wane hwane =>
      have hle : (op.step svc db).liveRuns principal.id op.env.now ≤
          db.liveRuns principal.id op.env.now :=
        liveRuns_le_of_forall₂ (fun _ _ h => ⟨h.agent, fun hlive _ => h.live hlive⟩) hwane
      omega
  | opens opener run call hopens hadded =>
      obtain ⟨hsucc, hother⟩ := liveRuns_append principal.id op.env.now hadded
      by_cases hmine : run.agent = principal.id
      · have hmem : run ∈ (op.step svc db).runs := by simp [hadded]
        obtain rfl : opener = principal := by
          rcases hown run hmem hmine hopens.fresh with ⟨_, hcall⟩ | ⟨_, _, hcall⟩
          · rcases call with ⟨_, call⟩ | ⟨_, _, call⟩
            · exact (Op.start.inj (hcall.symm.trans call)).2.2.symm
            · cases hcall.symm.trans call
          · rcases call with ⟨_, call⟩ | ⟨_, _, call⟩
            · cases hcall.symm.trans call
            · exact (Op.claim.inj (hcall.symm.trans call)).2.2.2.symm
        have hlt := liveRuns_opened hreads hclock (hopens.limits hagent) hlimit
        omega
      · rw [hother hmine]
        exact hwithin
  | heartbeat taskID runID caller call hbeats =>
      have hspares : ∀ run ∈ db.runs, run.beats (trimSpace taskID) (trimSpace runID) = true →
          run.agent = principal.id → db.Spares principal op.env.now run := by
        generalize op.env = env at *
        subst call
        exact hrenews
      refine liveRuns_renewed hruns (trimSpace runID) ?_ hwithin
      rw [hbeats.runs, mapWhere, List.forall₂_map_right_iff, List.forall₂_same]
      intro run hrun
      split
      · rename_i hbeat
        refine ⟨rfl, fun _ => Or.inr ⟨?_, hspares run hrun hbeat⟩⟩
        simp only [AgentRun.beats, Bool.and_eq_true, decide_eq_true_eq] at hbeat
        exact hbeat.1.1.1
      · exact ⟨rfl, Or.inl⟩
  | update taskID request caller current call hchanged hfound hversion hamended =>
      have hspares : request.nextStatus current.status = .active → ∀ run ∈ db.runs,
          run.isNamed (trimSpace taskID) request.runID = true → run.agent = principal.id →
          db.Spares principal op.env.now run := by
        generalize op.env = env at *
        subst call
        exact hrenews current hfound hversion
      refine liveRuns_renewed hruns request.runID (forall₂_imp_mem hamended ?_) hwithin
      intro run hrun run' hrow
      cases hnamed : run.isNamed (trimSpace taskID) request.runID with
      | false =>
          have hwanes := hrow.other hnamed
          exact ⟨hwanes.agent, fun hlive => Or.inl (hwanes.live hlive)⟩
      | true =>
          obtain ⟨_, rfl⟩ := hrow.named hnamed
          refine ⟨rfl, fun hlive => Or.inr ⟨?_, ?_⟩⟩
          rotate_left
          · exact hspares (AgentRun.live_iff.mp hlive).1 run hrun hnamed
          simp only [AgentRun.isNamed, Bool.and_eq_true, decide_eq_true_eq] at hnamed
          exact hnamed.1.2

end Live

theorem Timeline.runsNamed {ok : Op → Db → Prop} (h : Timeline svc ok now db): db.RunsNamed := by
  induction h with
  | empty now => exact ⟨List.nodup_nil, List.forall_mem_nil _⟩
  | wait h later hlater ih => exact ih
  | operation h op hchecked hnow hok ih => exact runsNamed_step op _ ih
  | delete h hdeletes ih => exact runsNamed_deletes hdeletes ih

/-- **The limit of live runs.** An agent whose runs are opened by its own starts and claims never
has more live runs than its policy allows, provided that its runs are renewed only while they are
live, or while it has runs to spare, and that no check takes a live lease for a lapsed one. -/
theorem live_runs_within_limit {svc : Service} {principal : Principal}
    (hagent : principal.agent = true) (hlimit : 0 < principal.policy.maxConcurrentRuns) {now : Instant} {db : Db}
    (h : Timeline svc (fun op db => op.OpensOwn svc principal db ∧ op.ReadsLeases svc db ∧
      op.RenewsWithin principal db) now db) :
    (db.liveRuns principal.id now : Int) ≤ principal.policy.maxConcurrentRuns := by
  induction h with
  | empty now => exact hlimit.le
  | wait h later hlater ih =>
      exact (Int.ofNat_le.mpr (liveRuns_le_of_le hlater)).trans ih
  | operation h op hchecked hnow hok ih =>
      obtain ⟨hown, hreads, hrenews⟩ := hok
      refine liveRuns_step h.runsNamed hagent hlimit hnow hown hreads hrenews ?_
      exact (Int.ofNat_le.mpr (liveRuns_le_of_le (hchecked.trans hnow))).trans ih
  | delete h hdeletes ih =>
      obtain ⟨gone, sessions, rfl⟩ := hdeletes
      refine (Int.ofNat_le.mpr ?_).trans ih
      exact List.Sublist.length_le (List.Sublist.filter _ List.filter_sublist)

/-- An agent that may have one live run. -/
def soleAgent : Principal :=
  agentPrincipal "builder" { defaultAgentPolicy with maxConcurrentRuns := 1 }

/-- The agent starts a task. -/
def soleOp (call : Nat) (now : Instant) (title : String) : Op :=
  .start (.numbered call now) { title, checklist := ["Find the cause"] } soleAgent

theorem opensOwn_start {request : StartRequest}
    : (Op.start env request principal).OpensOwn svc principal db :=
  fun _ _ _ _ => Or.inl ⟨request, rfl⟩

theorem opensOwn_heartbeat {caller : Principal}:
    (Op.heartbeat env taskID runID caller).OpensOwn svc principal db := by
  intro run' hrun' _ hfresh
  rcases Call.atMost_then_quiet atMost_heartbeatFor (fun _ => Call.quiet_pure _) db with
    hsame | hbeats
  · exact absurd rfl (hfresh run' (hsame ▸ hrun'))
  · obtain ⟨run, hrun, rfl⟩ := mem_mapWhere.mp (hbeats.runs ▸ hrun')
    refine absurd ?_ (hfresh run hrun)
    split <;> rfl

theorem readsLeases_ascii : op.ReadsLeases .ascii db :=
  fun _ _ hlapsed => of_decide_eq_true hlapsed

/-- An agent that may have one live run starts one. -/
theorem sole_run_within_limit :
    ((soleOp 1 0 "Fix the login").step .ascii {}).liveRuns "builder" 0 = 1 ∧
      (((soleOp 1 0 "Fix the login").step .ascii {}).liveRuns "builder" 0 : Int) ≤ 1 := by
  refine ⟨by decide +kernel, ?_⟩
  have hstart : Timeline .ascii (fun op db => op.OpensOwn .ascii soleAgent db ∧
      op.ReadsLeases .ascii db ∧ op.RenewsWithin soleAgent db) 0
      ((soleOp 1 0 "Fix the login").step .ascii {}) :=
    (Timeline.empty 0).operation (soleOp 1 0 "Fix the login") le_rfl le_rfl
      ⟨opensOwn_start, readsLeases_ascii, trivial⟩
  have hagent : soleAgent.agent = true := rfl
  exact live_runs_within_limit hagent (by decide) hstart

/-- The first run lapses, the agent starts a second one, and then a heartbeat renews the first,
which no sweep has ended. -/
def lapsedOps : List Op :=
  [soleOp 1 0 "Fix the login", soleOp 2 (20 * minute) "Fix the logout",
    .heartbeat (.numbered 3 (21 * minute)) "0100" "0101" soleAgent]

/-- An agent that may have one live run has two. -/
theorem lapsed_run_is_revived :
    soleAgent.policy.maxConcurrentRuns = 1 ∧
      Timeline .ascii (fun op db => op.OpensOwn .ascii soleAgent db ∧ op.ReadsLeases .ascii db)
        (21 * minute) (Op.run .ascii lapsedOps {}) ∧
      (Op.run .ascii lapsedOps {}).liveRuns "builder" (21 * minute) = 2 := by
  refine ⟨rfl, ?_, by decide +kernel⟩
  have hempty : Timeline .ascii
      (fun op db => op.OpensOwn .ascii soleAgent db ∧ op.ReadsLeases .ascii db) 0 {} := .empty 0
  have hstarted := hempty.operation (soleOp 1 0 "Fix the login") le_rfl le_rfl
    ⟨opensOwn_start, readsLeases_ascii⟩
  have hsecond := hstarted.operation (soleOp 2 (20 * minute) "Fix the logout") (by decide) le_rfl
    ⟨opensOwn_start, readsLeases_ascii⟩
  exact hsecond.operation (.heartbeat (.numbered 3 (21 * minute)) "0100" "0101" soleAgent)
    (by decide) le_rfl ⟨opensOwn_heartbeat, readsLeases_ascii⟩

end Taskboard
