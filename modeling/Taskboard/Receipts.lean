import Taskboard.Messages

/-!
# Receipts of messages

A run reports the messages it has observed and those it has acknowledged; a message stays
pending for the run until it has done what the message asks for. The receipt of a run for a
message is one row, which the first report inserts and later ones complete.

* `recordMessageReceipt` is the insert that leaves an existing row alone, and the update that
  fills in what is missing.
* `observedAt?_recordAll` and `acknowledgedAt?_recordAll` say what any sequence of reports leaves:
  the times that were there, otherwise those of the first report that counts.
* `recordReceiptsTx_ok` says that the service commits such a sequence, for messages that the run
  may receive.
-/

namespace Taskboard

variable {ev : Event → Prop} {now : Instant} {acknowledged : List String} {observer : String}
  {u : Unit} {db : Db}

/-- `LoadTaskMessage`. -/
def Db.message? (db : Db) (id : String) : Option TaskMessage :=
  db.messages.find? fun row => row.id = id

/-- The receipt of a run for a message. -/
def Db.receipt? (db : Db) (messageID runID : String) : Option MessageReceipt :=
  db.receipts.find? fun row => row.messageID = messageID ∧ row.runID = runID

/-- When the run observed the message. -/
def Db.observedAt? (db : Db) (messageID runID : String) : Option Instant :=
  (db.receipt? messageID runID).map MessageReceipt.observedAt

/-- When the run acknowledged the message. -/
def Db.acknowledgedAt? (db : Db) (messageID runID : String) : Option Instant :=
  (db.receipt? messageID runID).bind MessageReceipt.acknowledgedAt

/-- The message and the run that a receipt refers to exist: its foreign keys. -/
def Db.hasReceiptKeys (db : Db) (messageID runID : String) : Bool :=
  (db.message? messageID).isSome && db.runs.any fun run => run.id = runID

/-- What a further report sets in a receipt. The time of observation is never null, so that
`COALESCE` keeps it. -/
def MessageReceipt.again (observer : String) (acknowledged : Bool) (now : Instant)
    (row : MessageReceipt) : MessageReceipt :=
  { row with
    observer := observer
    acknowledgedAt :=
      if acknowledged then row.acknowledgedAt.or (some now) else row.acknowledgedAt }

/-- `RecordMessageReceipt`. -/
def recordMessageReceipt (messageID runID observer : String) (acknowledged : Bool)
    (now : Instant) : TxM Unit := do
  let _ ← receiptTable.insertUnless
    { messageID := messageID
      runID := runID
      observer := observer
      observedAt := now
      acknowledgedAt := if acknowledged then some now else none }
    (fun _ => false) (fun db => db.hasReceiptKeys messageID runID) (.database "insert receipt")
  let _ ← receiptTable.updateWhere
    (fun _ row => row.messageID = messageID && row.runID = runID)
    (MessageReceipt.again observer acknowledged now) fun _ => rfl
  pure ()

/-- The messages of `ListPendingTaskMessages` without its limit. The receipt that the query joins
is the one under its primary key. -/
def Db.pendingTaskMessages (db : Db) (taskID runID observer : String) : List TaskMessage :=
  sortBy (fun a b => a.id < b.id) (db.messages.filter fun message =>
    message.taskID = taskID && message.author ≠ observer &&
      (message.targetRunID = "" || message.targetRunID = runID) &&
      (message.requiresAck && (db.acknowledgedAt? message.id runID).isNone ||
        !message.requiresAck && (db.observedAt? message.id runID).isNone))

/-- `ListPendingTaskMessages`. -/
def listPendingTaskMessages (taskID runID observer : String) (limit : Int) :
    CallM (List TaskMessage) :=
  let limit := if limit ≤ 0 ∨ 100 < limit then 50 else limit
  Call.look fun db => (db.pendingTaskMessages taskID runID observer).take limit.toNat

/-- The message is on the task, not the caller's own, and not addressed to another run. -/
def TaskMessage.receivable (message : TaskMessage) (taskID runID : String)
    (principal : Principal) : Bool :=
  message.taskID = taskID && message.author ≠ principal.id &&
    (message.targetRunID = "" || message.targetRunID = runID)

/-- The loop of `RecordMessageReceiptsFor`. -/
def recordReceipts (taskID runID : String) (principal : Principal) (acknowledged : List String)
    (now : Instant) : List String → TxM Unit
  | [] => pure ()
  | id :: rest => do
      let message ← Tx.select fun db => db.message? id
      refuse (!message.any fun message => message.receivable taskID runID principal)
        (ServiceError.validation "message %q is not receivable by this run" [id])
      recordMessageReceipt id runID principal.id (id ∈ acknowledged) now
      recordReceipts taskID runID principal acknowledged now rest

/-- The messages that a request names. -/
def MessageReceiptRequest.named (request : MessageReceiptRequest) : List String :=
  unique (unique request.observedMessageIDs ++ unique request.acknowledgedMessageIDs)

/-- The transaction of `RecordMessageReceiptsFor`. -/
def recordReceiptsTx (env : Env) (taskID runID : String) (request : MessageReceiptRequest)
    (principal : Principal) : TxM Unit := do
  let observed := unique request.observedMessageIDs
  let acknowledged := unique request.acknowledgedMessageIDs
  recordReceipts taskID runID principal acknowledged env.now request.named
  insertEvent
    { id := env.newID 0
      taskID := taskID
      runID := runID
      kind := "task.messages_received"
      actor := principal.id
      message := "Task messages received"
      payload := mergePayload
        [("observed_message_ids", .texts observed), ("acknowledged_message_ids", .texts acknowledged)]
        (idempotencyPayload "task_message_receipt" request.idempotencyKey
          (some (.recordReceipts taskID runID request)))
      createdAt := env.now }

/-- What `RecordMessageReceiptsFor` checks before it looks its key up. -/
def mayRecordReceipts (svc : Service) (env : Env) (taskID runID : String)
    (request : MessageReceiptRequest) (principal : Principal) : CallM Unit := do
  refuse (!principal.agent) ErrForbidden
  let count := (unique request.observedMessageIDs).length +
    (unique request.acknowledgedMessageIDs).length
  refuse (count = 0 ∨ 100 < count) (ErrValidation "1-100 message receipt IDs are required")
  let task ← getForHidden svc env.checked taskID principal
  refuse (!canMutate task.toTask principal) ErrForbidden
  refuse (activeOwnedRun task.runs runID principal.id = none)
    (ErrValidation "run is not active for this agent")
  refuse (!principal.hasCapability .taskMessage && !holdsLease task.runs runID principal env.checked)
    (missingCapability "task:message" "record receipts for a run whose lease has lapsed")

/-- `RecordMessageReceiptsFor`. The answer is what is left pending. -/
def recordMessageReceiptsFor (svc : Service) (env : Env) (taskID runID : String)
    (request : MessageReceiptRequest) (principal : Principal) : CallM (List TaskMessage) := do
  let taskID := trimSpace taskID
  let runID := trimSpace runID
  mayRecordReceipts svc env taskID runID request principal
  keyed svc true principal "task_message_receipt" request.idempotencyKey
    (.recordReceipts taskID runID request)
    (fun _ => listPendingTaskMessages taskID runID principal.id 50) do
      Call.tx (recordReceiptsTx env taskID runID request principal)
      listPendingTaskMessages taskID runID principal.id 50

/-- A call of `RecordMessageReceipt`. -/
structure ReceiptCall where
  messageID : String
  runID : String
  observer : String
  acknowledged : Bool
  now : Instant
  deriving DecidableEq

/-- The call is about this message and this run. -/
def ReceiptCall.on (messageID runID : String) (call : ReceiptCall) : Bool :=
  call.messageID = messageID && call.runID = runID

/-- The transaction of a call. -/
def ReceiptCall.tx (call : ReceiptCall) : TxM Unit :=
  recordMessageReceipt call.messageID call.runID call.observer call.acknowledged call.now

/-- The database after a call; one that fails leaves it alone. -/
def ReceiptCall.step (db : Db) (call : ReceiptCall) : Db :=
  match call.tx.run db with
  | .ok (_, db') => db'
  | .error _ => db

/-- The database after calls one after another. -/
def recordAll (calls : List ReceiptCall) (db : Db) : Db :=
  calls.foldl ReceiptCall.step db

/-- The database has a receipt of the run for the message, or takes one. -/
def Db.takesReceipt (db : Db) (messageID runID : String) : Bool :=
  (db.receipt? messageID runID).isSome || db.hasReceiptKeys messageID runID

/-- The row that a call leaves for its message and run. -/
def ReceiptCall.row (call : ReceiptCall) : Option MessageReceipt → MessageReceipt
  | none =>
      { messageID := call.messageID
        runID := call.runID
        observer := call.observer
        observedAt := call.now
        acknowledgedAt := if call.acknowledged then some call.now else none }
  | some row => row.again call.observer call.acknowledged call.now

section Calls

variable {call : ReceiptCall} {calls : List ReceiptCall} {m r : String}

theorem receipt?_isSome :
    (db.receipt? m r).isSome = true ↔ ∃ row ∈ db.receipts, row.messageID = m ∧ row.runID = r := by
  simp [Db.receipt?]

theorem ReceiptCall.on_iff : call.on m r = true ↔ call.messageID = m ∧ call.runID = r := by
  simp [on]

/-- The receipts after a call that finds `rows`. -/
def ReceiptCall.again (call : ReceiptCall) (rows : List MessageReceipt) : List MessageReceipt :=
  mapWhere (fun row => row.messageID = call.messageID && row.runID = call.runID)
    (MessageReceipt.again call.observer call.acknowledged call.now) rows

theorem ReceiptCall.find?_again (rows : List MessageReceipt) :
    (call.again rows).find? (fun row => row.messageID = m ∧ row.runID = r) =
      (rows.find? fun row => row.messageID = m ∧ row.runID = r).map fun receipt =>
        if call.on m r then call.row (some receipt) else receipt := by
  rw [again, find?_mapWhere (f := MessageReceipt.again call.observer call.acknowledged call.now)
    fun _ => rfl]
  apply Option.map_congr
  intro receipt hreceipt
  have hkey : receipt.messageID = m ∧ receipt.runID = r := by simpa using List.find?_some hreceipt
  obtain ⟨rfl, rfl⟩ := hkey
  simp only [on, ReceiptCall.row, eq_comm]

/-- The insert of a call. -/
theorem ReceiptCall.run_insert (call : ReceiptCall) (db : Db) :
    (receiptTable.insertUnless (call.row none) (fun _ => false)
        (fun db => db.hasReceiptKeys call.messageID call.runID)
        (ServiceError.database "insert receipt")).run db =
      if (db.receipt? call.messageID call.runID).isSome then .ok (0, db)
      else if db.hasReceiptKeys call.messageID call.runID then
        .ok (1, { db with receipts := db.receipts ++ [call.row none] })
      else .error (.database "insert receipt") := by
  have hany : ((receiptTable.rows db).any fun row =>
      receiptTable.key row = receiptTable.key (call.row none) || false) =
        (db.receipt? call.messageID call.runID).isSome := by
    rw [Bool.eq_iff_iff, receipt?_isSome]
    simp [receiptTable, ReceiptCall.row]
  rw [Table.run_insertUnless, hany]
  rfl

/-- The database after a call that finds its foreign keys, or the receipt of an earlier one. -/
def ReceiptCall.put (call : ReceiptCall) (db : Db) : Db :=
  { db with
    receipts := call.again
      (if (db.receipt? call.messageID call.runID).isSome then db.receipts
        else db.receipts ++ [call.row none]) }

theorem ReceiptCall.run_tx (call : ReceiptCall) (db : Db) :
    call.tx.run db =
      if db.takesReceipt call.messageID call.runID then .ok ((), call.put db)
      else .error (.database "insert receipt") := by
  have hinsert := call.run_insert db
  by_cases hreceipt : (db.receipt? call.messageID call.runID).isSome = true
  · rw [if_pos hreceipt] at hinsert
    rw [Db.takesReceipt, hreceipt, Bool.true_or, if_pos rfl, put, if_pos hreceipt]
    exact Tx.run_bind_ok.mpr ⟨0, db, hinsert, Table.run_updateWhere_bind_ok.mpr (Tx.run_pure _ _)⟩
  · rw [if_neg hreceipt] at hinsert
    rw [Db.takesReceipt, Bool.eq_false_iff.mpr hreceipt, Bool.false_or, put, if_neg hreceipt]
    by_cases hkeys : db.hasReceiptKeys call.messageID call.runID = true
    · rw [if_pos hkeys] at hinsert ⊢
      exact Tx.run_bind_ok.mpr ⟨1, _, hinsert, Table.run_updateWhere_bind_ok.mpr (Tx.run_pure _ _)⟩
    · rw [if_neg hkeys] at hinsert ⊢
      rw [ReceiptCall.row] at hinsert
      rw [tx, recordMessageReceipt, Tx.run_bind, hinsert]
      rfl

theorem ReceiptCall.receipt?_put :
    (call.put db).receipt? m r =
      if call.on m r then some (call.row (db.receipt? m r)) else db.receipt? m r := by
  rw [Db.receipt?, put, find?_again]
  by_cases hon : call.on m r = true
  · obtain ⟨rfl, rfl⟩ := on_iff.mp hon
    simp only [hon, if_true]
    cases hreceipt : db.receipt? call.messageID call.runID with
    | some receipt =>
        rw [Db.receipt?] at hreceipt
        simp only [Option.isSome_some, if_true, hreceipt, Option.map_some]
    | none =>
        have hnew : (db.receipts ++ [call.row none]).find? (fun receipt =>
            receipt.messageID = call.messageID ∧ receipt.runID = call.runID) =
              some (call.row none) := by
          rw [List.find?_append, ← Db.receipt?, hreceipt]
          simp [ReceiptCall.row]
        simp only [Option.isSome_none, Bool.false_eq_true, if_false, hnew, Option.map_some]
        cases hack : call.acknowledged with
        | true => simp [ReceiptCall.row, MessageReceipt.again, hack]
        | false => simp [ReceiptCall.row, MessageReceipt.again, hack]
  · simp only [hon, Bool.false_eq_true, if_false, Option.map_id']
    split
    · rfl
    · have hother : [call.row none].find? (fun receipt =>
          receipt.messageID = m ∧ receipt.runID = r) = none :=
        List.find?_cons_of_neg fun hrow => hon (on_iff.mpr (of_decide_eq_true hrow))
      rw [List.find?_append, hother, Option.or_none, Db.receipt?]

/-- **What one call does to the receipts.** -/
theorem receipt?_step :
    (call.step db).receipt? m r =
      if call.on m r && db.takesReceipt m r then some (call.row (db.receipt? m r))
      else db.receipt? m r := by
  rw [ReceiptCall.step, call.run_tx]
  by_cases hon : call.on m r = true
  · obtain ⟨rfl, rfl⟩ := ReceiptCall.on_iff.mp hon
    by_cases htakes : db.takesReceipt call.messageID call.runID = true
    · simp only [htakes, if_true, hon, Bool.and_self, ReceiptCall.receipt?_put]
    · simp only [htakes, Bool.false_eq_true, if_false, Bool.and_false]
  · simp only [hon, Bool.false_and, Bool.false_eq_true, if_false]
    split
    · rename_i hrun
      split at hrun
      · cases hrun
        rw [ReceiptCall.receipt?_put, if_neg hon]
      · cases hrun
    · rfl

theorem step_frame : call.step db = { db with receipts := (call.step db).receipts } := by
  rw [ReceiptCall.step, call.run_tx]
  split
  · rename_i hrun
    split at hrun
    · cases hrun
      rfl
    · cases hrun
  · rfl

theorem takesReceipt_step : (call.step db).takesReceipt m r = db.takesReceipt m r := by
  have hkeys : (call.step db).hasReceiptKeys m r = db.hasReceiptKeys m r := by
    rw [step_frame]
    rfl
  rw [Db.takesReceipt, hkeys, receipt?_step]
  split
  · rename_i h
    rw [Bool.and_eq_true] at h
    rw [h.2, Option.isSome_some, Bool.true_or]
  · rfl

/-- A call fills in the time of observation where it is missing. -/
theorem observedAt?_step :
    (call.step db).observedAt? m r =
      (db.observedAt? m r).or
        (if call.on m r && db.takesReceipt m r then some call.now else none) := by
  rw [Db.observedAt?, receipt?_step, Db.observedAt?]
  split
  · cases db.receipt? m r with
    | none => rfl
    | some row => rfl
  · rw [Option.or_none]

/-- A call that acknowledges fills in the time of the acknowledgement where it is missing. -/
theorem acknowledgedAt?_step :
    (call.step db).acknowledgedAt? m r =
      (db.acknowledgedAt? m r).or
        (if (call.on m r && call.acknowledged) && db.takesReceipt m r then some call.now
          else none) := by
  rw [Db.acknowledgedAt?, receipt?_step, Db.acknowledgedAt?]
  by_cases h : (call.on m r && db.takesReceipt m r) = true
  · rw [if_pos h]
    rw [Bool.and_eq_true] at h
    rw [h.1, h.2, Bool.true_and, Bool.and_true]
    cases hreceipt : db.receipt? m r with
    | none => rfl
    | some row =>
        cases hack : call.acknowledged with
        | true => simp [ReceiptCall.row, MessageReceipt.again, hack]
        | false => simp [ReceiptCall.row, MessageReceipt.again, hack]
  · have h' : ¬ ((call.on m r && call.acknowledged) && db.takesReceipt m r) = true := by
      intro hall
      simp only [Bool.and_eq_true] at hall h
      exact h ⟨hall.1.1, hall.2⟩
    rw [if_neg h, if_neg h', Option.or_none]

/-- What every call keeps to a time of its own keeps a sequence of calls to the first of them. -/
theorem or_recordAll (time : Db → Option Instant) {counts : ReceiptCall → Bool}
    (hstep : ∀ (db : Db) (call : ReceiptCall), time (call.step db) =
      (time db).or (if counts call && db.takesReceipt m r then some call.now else none))
    (calls : List ReceiptCall) (db : Db) :
    time (recordAll calls db) =
      (time db).or
        (if db.takesReceipt m r then (calls.find? counts).map ReceiptCall.now else none) := by
  unfold recordAll
  induction calls generalizing db with
  | nil => simp
  | cons call rest ih =>
      rw [List.foldl_cons, ih, hstep, takesReceipt_step, Option.or_assoc]
      congr 1
      cases htakes : db.takesReceipt m r with
      | false => simp
      | true => cases hcounts : counts call <;> simp [hcounts]

/-- **The times of observation after any calls:** those before them, otherwise that of the first
call on the message and the run. -/
theorem observedAt?_recordAll :
    (recordAll calls db).observedAt? m r =
      (db.observedAt? m r).or
        (if db.takesReceipt m r then
          (calls.find? fun call => call.on m r).map ReceiptCall.now else none) :=
  or_recordAll (fun db => db.observedAt? m r) (fun _ _ => observedAt?_step) calls db

/-- **The times of acknowledgement after any calls:** those before them, otherwise that of the
first call that acknowledges. -/
theorem acknowledgedAt?_recordAll :
    (recordAll calls db).acknowledgedAt? m r =
      (db.acknowledgedAt? m r).or
        (if db.takesReceipt m r then
          (calls.find? fun call => call.on m r && call.acknowledged).map ReceiptCall.now else none) :=
  or_recordAll (fun db => db.acknowledgedAt? m r) (fun _ _ => acknowledgedAt?_step) calls db

theorem recordAll_frame : recordAll calls db = { db with receipts := (recordAll calls db).receipts } := by
  unfold recordAll
  induction calls generalizing db with
  | nil => rfl
  | cons call rest ih =>
      rw [List.foldl_cons, ih, step_frame]

end Calls

section Transaction

variable {lg : List Ledger} {tk : List Task → List Task → Prop}
  {rn : List AgentRun → List AgentRun → Prop} {svc : Service} {env : Env} {db' : Db}
  {taskID runID : String} {request : MessageReceiptRequest} {principal : Principal}

/-- The calls that the service makes for the messages of a request. -/
def receiptCalls (runID : String) (principal : Principal) (acknowledged : List String)
    (now : Instant) (ids : List String) : List ReceiptCall :=
  ids.map fun id =>
    { messageID := id
      runID := runID
      observer := principal.id
      acknowledged := id ∈ acknowledged
      now := now }

/-- The loop that is not refused makes the calls of its messages, all of which the run may
receive. -/
theorem run_recordReceipts_ok {ids : List String}
    (h : (recordReceipts taskID runID principal acknowledged now ids).run db = .ok (u, db')) :
    (∀ id ∈ ids, ∃ message, db.message? id = some message ∧
        message.receivable taskID runID principal = true) ∧
      db' = recordAll (receiptCalls runID principal acknowledged now ids) db := by
  induction ids generalizing db with
  | nil =>
      simp only [recordReceipts, Tx.run_pure_ok] at h
      exact ⟨List.forall_mem_nil _, h.2⟩
  | cons id rest ih =>
      rw [recordReceipts, Tx.run_select_bind_ok, Tx.run_refuse_bind_ok, Tx.run_bind_ok] at h
      obtain ⟨hreceivable, _, db1, hcall, hrest⟩ := h
      have hstep : db1 = ReceiptCall.step db
          { messageID := id, runID := runID, observer := principal.id,
            acknowledged := id ∈ acknowledged, now := now } := by
        rw [ReceiptCall.step, ReceiptCall.tx, hcall]
      obtain ⟨hall, rfl⟩ := ih hrest
      subst hstep
      refine ⟨?_, rfl⟩
      intro other hother
      rcases List.mem_cons.mp hother with rfl | hother
      · simpa [Option.any_eq_true] using hreceivable
      · obtain ⟨message, hmessage, hmay⟩ := hall other hother
        rw [step_frame] at hmessage
        exact ⟨message, hmessage, hmay⟩

/-- What the transaction commits: the calls for the messages of the request, all of which the run
may receive, and an event under the key. -/
theorem recordReceiptsTx_ok
    (h : (recordReceiptsTx env taskID runID request principal).run db = .ok (u, db')) :
    (∀ id ∈ request.named, ∃ message, db.message? id = some message ∧
        message.receivable taskID runID principal = true) ∧
      ∃ event : Event, event.payload.lookup "idempotency_hash" ∈
          [none, some (.digest (some (.recordReceipts taskID runID request)))] ∧
        db' = { recordAll (receiptCalls runID principal (unique request.acknowledgedMessageIDs)
            env.now request.named) db with events := db.events ++ [event] } := by
  simp only [recordReceiptsTx, Tx.run_bind_ok, run_insertEvent_ok] at h
  obtain ⟨_, db1, hloop, -, -, rfl⟩ := h
  obtain ⟨hall, rfl⟩ := run_recordReceipts_ok hloop
  refine ⟨hall, _, ?_, by rw [recordAll_frame]⟩
  simp only [mergePayload, idempotencyPayload]
  split <;> simp [List.lookup_cons]

theorem each_recordMessageReceipt [IsPreorder _ tk] [IsPreorder _ rn]
    {messageID : String} {acknowledged : Bool} (hlg : .receipts ∈ lg) :
    (recordMessageReceipt messageID runID observer acknowledged now).Each
      (Footprint lg tk rn ev) := by
  have hreceipts (db : Db) (receipts : List MessageReceipt) :
      Footprint lg tk rn ev db { db with receipts } :=
    { Footprint.refl lg tk rn ev db with sameReceipts := fun hl => absurd hlg hl }
  refine Tx.each_bind (Table.each_insertUnless fun db => hreceipts db _) fun _ => ?_
  exact Tx.each_bind (Table.each_updateWhere fun db => hreceipts db _) fun _ => Tx.each_pure _

theorem each_recordReceipts [IsPreorder _ tk] [IsPreorder _ rn]
    (hlg : .receipts ∈ lg) (ids : List String) :
    (recordReceipts taskID runID principal acknowledged now ids).Each (Footprint lg tk rn ev) := by
  induction ids with
  | nil => exact Tx.each_pure _
  | cons id rest ih =>
      refine Tx.each_select_bind fun _ => ?_
      refine Tx.each_lift_bind fun _ => ?_
      exact Tx.each_bind (each_recordMessageReceipt hlg) fun _ => ih

theorem quiet_listPendingTaskMessages {limit : Int} :
    (listPendingTaskMessages taskID runID observer limit).Quiet :=
  Call.quiet_look _

theorem quiet_mayRecordReceipts :
    (mayRecordReceipts svc env taskID runID request principal).Quiet := by
  refine Call.quiet_lift_bind fun _ => ?_
  refine Call.quiet_lift_bind fun _ => ?_
  refine Call.quiet_bind quiet_getForHidden fun _ => ?_
  refine Call.quiet_lift_bind fun _ => ?_
  exact Call.quiet_lift_bind fun _ => Call.quiet_lift _

theorem each_recordMessageReceiptsFor [IsPreorder _ tk] [IsPreorder _ rn]
    (hlg : .receipts ∈ lg) :
    (recordMessageReceiptsFor svc env taskID runID request principal).Each
      (Footprint lg tk rn (Event.Under "task_message_receipt")) := by
  refine Call.each_bind quiet_mayRecordReceipts.each fun _ => ?_
  refine each_keyed (fun _ => quiet_listPendingTaskMessages.each) ?_
  refine Call.each_bind (Call.each_tx fun _ _ => Tx.Each.run ?_) fun _ =>
    quiet_listPendingTaskMessages.each
  refine Tx.each_bind (each_recordReceipts hlg _) fun _ => ?_
  exact Footprint.each_insertEvent (Event.under_merge (by simp [Payload.Keyless]) rfl)

/-- The service leaves the receipts as they are, or commits the calls of one request. -/
theorem atMost_recordMessageReceiptsFor :
    (recordMessageReceiptsFor svc env taskID runID request principal).AtMost fun db db' =>
      ∃ u, (recordReceiptsTx env (trimSpace taskID) (trimSpace runID) request principal).run db =
        .ok (u, db') := by
  refine Call.atMost_bind_quiet quiet_mayRecordReceipts fun _ => ?_
  refine atMost_keyed (fun _ => quiet_listPendingTaskMessages) ?_
  exact Call.atMost_then_quiet (Call.atMost_tx _) fun _ => quiet_listPendingTaskMessages

end Transaction

end Taskboard
