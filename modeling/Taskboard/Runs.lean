import Taskboard.Planning
import Taskboard.Idempotency

/-!
# Agent runs

A run is the lease an agent holds on a task. This file opens runs (`insertAgentRun`),
ends them (`endActiveRun`) and counts them against an agent's limits.
-/

namespace Taskboard

variable {run : AgentRun} {also : AgentRun → Bool} {db db' : Db} {now : Instant} {svc : Service}
  {newSessionID runID sessionKey : String} {status : TaskStatus}

variable {lg : List Ledger}

/-- `words` of `agentidentity`. -/
def words : List String :=
  ["Amber", "Aspen", "Atlas", "Birch", "Bramble", "Brook", "Cedar", "Cinder",
    "Clover", "Comet", "Coral", "Cove", "Dawn", "Delta", "Dune", "Echo",
    "Elm", "Ember", "Fern", "Finch", "Flint", "Frost", "Grove", "Harbor",
    "Hazel", "Iris", "Jade", "Juniper", "Lark", "Laurel", "Maple", "Meadow",
    "Mica", "Moss", "Nova", "Oak", "Ocean", "Olive", "Onyx", "Orbit",
    "Pebble", "Pine", "Plum", "Quartz", "Rain", "Reed", "River", "Robin",
    "Rowan", "Sage", "Sky", "Slate", "Sol", "Sparrow", "Spruce", "Star",
    "Stone", "Tide", "Vale", "Violet", "Willow", "Wren", "Yarrow", "Zephyr"]

/-- The 64-bit FNV-1a hash. -/
def fnvHash (value : String) : Nat :=
  (value.toList.flatMap String.utf8EncodeChar).foldl
    (fun hash byte => Nat.xor hash byte.toNat * 1099511628211 % 2 ^ 64) 14695981039346656037

/-- `Candidates`: the callsigns in the order a seed tries them. -/
def candidates (seed : String) : List String :=
  let start := fnvHash seed % 64
  let word (index : Nat) := words.getD ((start + index) % 64) ""
  (List.range 64).map word ++
    (List.range 64).flatMap fun left =>
      (List.range 63).map fun right => word left ++ " " ++ word (left + (right + 1))

/-- The loop of `insertAgentRun` that opens a session under the first free callsign. The
callsign is empty when all are taken. -/
def openSession (svc : Service) (run : AgentRun) (keyHash sessionID : String) :
    List String → TxM (String × String)
  | [] => pure (sessionID, "")
  | candidate :: rest => do
      let count ← sessionTable.insertUnless
        { id := sessionID
          agent := run.agent
          client := run.client
          keyHash := keyHash
          callsign := candidate
          createdAt := run.startedAt
          updatedAt := run.startedAt }
        (fun row => (row.agent = run.agent && row.keyHash = keyHash) ||
          svc.unicode.lower row.callsign = svc.unicode.lower candidate)
        (fun _ => true) (.database "insert session")
      if count = 1 then pure (sessionID, candidate)
      else
        let session ← Tx.select fun db => db.sessions.find? fun session =>
          session.agent = run.agent ∧ session.keyHash = keyHash
        match session with
        | some session => pure (session.id, session.callsign)
        | none => openSession svc run keyHash sessionID rest

/-- The session of a run: the agent's under this key, or a new one. -/
def findSession (svc : Service) (run : AgentRun) (sessionKey newSessionID : String) :
    TxM (String × String) := do
  let keyHash := if sessionKey = "" then "run\x00" ++ run.id else "session\x00" ++ sessionKey
  let session ← Tx.select fun db => db.sessions.find? fun session =>
    session.agent = run.agent ∧ session.keyHash = keyHash
  match session with
  | some session => pure (session.id, session.callsign)
  | none => do
      let opened ← openSession svc run keyHash newSessionID (candidates newSessionID)
      refuse (opened.2 = "")
        (ServiceError.database "no friendly callsign is available for this agent session")
      pure opened

/-- `insertAgentRun`. -/
def insertAgentRun (svc : Service) (run : AgentRun) (sessionKey newSessionID : String) :
    TxM Unit := do
  let (sessionID, callsign) ← findSession svc run sessionKey newSessionID
  let _ ← sessionTable.updateWhere (fun _ session => session.id = sessionID)
    fun session => { session with client := run.client, updatedAt := run.startedAt }
  let count ← runTable.insertUnless { run with sessionID, callsign } (fun _ => false)
    (fun db => (db.task? run.taskID).isSome) (.database "insert run")
  refuse (count ≠ 1) (ServiceError.database "agent run ID already exists")

theorem nearby_openSession {keyHash sessionID : String}
    (names : List String) : (openSession svc run keyHash sessionID names).Each Nearby := by
  induction names with
  | nil => exact Tx.each_pure _
  | cons name rest ih =>
      refine Tx.each_bind (Table.each_insertUnless fun _ => ⟨_, _, rfl⟩) fun _ => ?_
      refine Tx.each_ite (Tx.each_pure _) ?_
      refine Tx.each_select_bind fun session => ?_
      cases session with
      | none => exact ih
      | some session => exact Tx.each_pure _

theorem nearby_findSession :
    (findSession svc run sessionKey newSessionID).Each Nearby := by
  refine Tx.each_select_bind fun session => ?_
  cases session with
  | some session => exact Tx.each_pure _
  | none =>
      refine Tx.each_bind (nearby_openSession _) fun _ => ?_
      exact Tx.each_lift_bind fun _ => Tx.each_pure _

/-- **Opening a run.** The run is new, is added under the callsign of its session, and its
task exists. -/
theorem insertAgentRun_ok {u : Unit}
    (h : (insertAgentRun svc run sessionKey newSessionID).run db = .ok (u, db')) :
    ∃ sessionID callsign, (db.task? run.taskID).isSome = true ∧
      (∀ row ∈ db.runs, row.id ≠ run.id) ∧
      Nearby { db with runs := db.runs ++ [{ run with sessionID, callsign }] } db' := by
  simp only [insertAgentRun, Tx.run_bind_ok, Table.run_updateWhere_ok, Tx.run_lift_ok,
    refuse_ok_iff, sessionTable] at h
  obtain ⟨⟨sessionID, callsign⟩, db1, hsession, n, _, ⟨-, rfl⟩, count, db2, hinsert, hcount, rfl⟩ := h
  obtain ⟨_, _, rfl⟩ : Nearby db db1 := nearby_findSession.run hsession
  rcases Table.run_insertUnless_ok hinsert with ⟨hzero, -⟩ | ⟨-, htask, hfresh, rfl⟩
  · exact absurd hzero (by omega)
  · exact ⟨sessionID, callsign, htask, by simpa [runTable] using hfresh, _, _, rfl⟩

/-- `UPDATE agent_runs SET status, lease_expires_at, last_heartbeat_at, ended_at` of an
active run that has not ended, all to `now`. -/
def endActiveRun (runID : String) (also : AgentRun → Bool) (status : TaskStatus)
    (now : Instant) : TxM Nat :=
  runTable.updateWhere
    (fun _ run => run.id = runID && also run && run.status = .active && run.endedAt.isNone)
    fun run =>
      { run with status, leaseExpires := now, lastHeartbeat := now, endedAt := some now }

theorem each_endActiveRun {tk : List Task → List Task → Prop} [Std.Refl tk] {ev : Event → Prop} :
    (endActiveRun runID also status now).Each
      (Footprint lg tk (List.Forall₂ AgentRun.Follows) ev) :=
  Table.each_updateWhere fun db =>
    { Footprint.refl lg tk (List.Forall₂ AgentRun.Follows) ev db with
      runs := forall₂_mapWhere fun run _ hrun => by
        simp only [Bool.and_eq_true, decide_eq_true_eq, Option.isNone_iff_eq_none] at hrun
        exact ⟨rfl, rfl, rfl, rfl, Or.inr ⟨hrun.2, by simp⟩⟩ }

theorem endActiveRun_ok {n : Nat} (h : (endActiveRun runID also status now).run db = .ok (n, db')):
    ∃ runs, List.Forall₂ AgentRun.Follows db.runs runs ∧ db' = { db with runs } := by
  simp only [endActiveRun, Table.run_updateWhere_ok, runTable] at h
  obtain ⟨-, rfl⟩ := h
  refine ⟨_, forall₂_mapWhere ?_, rfl⟩
  intro run _ hrun
  simp only [Bool.and_eq_true, decide_eq_true_eq, Option.isNone_iff_eq_none] at hrun
  exact ⟨rfl, rfl, rfl, rfl, Or.inr ⟨hrun.2, by simp⟩⟩

/-- A run the database counts as live: not ended, active, its lease not before `now`. -/
def Service.liveAt (svc : Service) (now : Instant) (run : AgentRun) : Bool :=
  run.endedAt.isNone && run.status = .active && !svc.before run.leaseExpires now

/-- `enforceAgentPickupLimits`. -/
def enforceAgentPickupLimits (svc : Service) (principal : Principal) (now : Instant) :
    CallM Unit := do
  if principal.agent then
    let policy := principal.policy
    (if 0 < policy.maxConcurrentRuns then do
      let count ← Call.look fun db =>
        (db.runs.filter fun run => run.agent = principal.id && svc.liveAt now run).length
      refuse (policy.maxConcurrentRuns ≤ count)
        (ServiceError.rateLimit "maximum concurrent runs is %d" policy.maxConcurrentRuns)
    else pure ())
    (if 0 < policy.maxPickupsPerMinute then do
      let count ← Call.look fun db =>
        (db.runs.filter fun run =>
          run.agent = principal.id && !svc.before run.startedAt (now - minute)).length
      refuse (policy.maxPickupsPerMinute ≤ count)
        (ServiceError.rateLimit "maximum pickups per minute is %d" policy.maxPickupsPerMinute)
    else pure ())
  else pure ()

theorem quiet_enforceAgentPickupLimits {principal : Principal}
    : (enforceAgentPickupLimits svc principal now).Quiet := by
  refine Call.quiet_ite ?_ (Call.quiet_pure _)
  refine Call.quiet_bind (Call.quiet_ite ?_ (Call.quiet_pure _)) fun _ =>
    Call.quiet_ite ?_ (Call.quiet_pure _)
  all_goals exact Call.quiet_bind (Call.quiet_look _) fun _ => Call.quiet_lift _

example : fnvHash "01" = 575360174261084282 ∧ (candidates "01").head? = some "Vale" := by
  decide

end Taskboard
