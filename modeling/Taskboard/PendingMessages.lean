import Taskboard.Receipts
import Taskboard.Operations

/-!
# What is pending for a run

Receipts only grow: a message that a run has observed or acknowledged stays so with its first
time, and which messages are depends on which reports were made, not on their order or number.
What is pending for a run is decided by them (`receipts_decide_pending`).

The service accepts receipts only for messages that are addressed to the run or to none. A key
that was used before does not get around that: the event it is answered from was written by a
request whose messages were all checked (`ReceiptsAddressed`).
-/

namespace Taskboard

variable {id observer runID taskID : String} {message : TaskMessage} {db : Db}

/-- The message is addressed to no run, or to this one. -/
def TaskMessage.Reaches (runID : String) (message : TaskMessage) : Prop :=
  message.targetRunID = "" ∨ message.targetRunID = runID

/-- The run has still to do what the message asks for: to acknowledge it, or to observe it. -/
def Db.Awaits (db : Db) (runID : String) (message : TaskMessage) : Prop :=
  if message.requiresAck then db.acknowledgedAt? message.id runID = none
  else db.observedAt? message.id runID = none

instance (runID : String) (message : TaskMessage) : Decidable (message.Reaches runID) :=
  inferInstanceAs (Decidable (_ ∨ _))

instance (db : Db) (runID : String) (message : TaskMessage) : Decidable (db.Awaits runID message) :=
  inferInstanceAs (Decidable (if message.requiresAck = true then _ else _))

/-- The receipts of `db` keep their times. -/
structure ReceiptsKept (db db' : Db) : Prop where
  observed {messageID runID : String} {time : Instant}
    (h : db.observedAt? messageID runID = some time) : db'.observedAt? messageID runID = some time
  acknowledged {messageID runID : String} {time : Instant}
    (h : db.acknowledgedAt? messageID runID = some time) :
    db'.acknowledgedAt? messageID runID = some time

instance : IsPreorder Db ReceiptsKept where
  refl _ := ⟨fun h => h, fun h => h⟩
  trans _ _ _ h h' := ⟨fun ht => h'.observed (h.observed ht), fun ht => h'.acknowledged (h.acknowledged ht)⟩

theorem ReceiptsKept.of_receipts {db db' db'' : Db} (h : ReceiptsKept db db')
    (hsame : db''.receipts = db'.receipts) : ReceiptsKept db db'' := by
  have hreceipt (m r : String) : db''.receipt? m r = db'.receipt? m r := by
    rw [Db.receipt?, hsame, Db.receipt?]
  constructor
  · intro m r time htime
    rw [Db.observedAt?, hreceipt]
    exact h.observed htime
  · intro m r time htime
    rw [Db.acknowledgedAt?, hreceipt]
    exact h.acknowledged htime

theorem TaskMessage.reaches_of_receivable
    {principal : Principal} (h : message.receivable taskID runID principal = true) :
    message.Reaches runID := by
  simp only [receivable, Bool.and_eq_true, Bool.or_eq_true, decide_eq_true_eq] at h
  exact h.2

/-- What a call reports, apart from who makes it and when. -/
def ReceiptCall.report (call : ReceiptCall) : String × String × Bool :=
  (call.messageID, call.runID, call.acknowledged)

section History

variable {calls calls' : List ReceiptCall} {m r : String}

theorem receiptsKept_recordAll : ReceiptsKept db (recordAll calls db) where
  observed h := by rw [observedAt?_recordAll, h, Option.some_or]
  acknowledged h := by rw [acknowledgedAt?_recordAll, h, Option.some_or]

/-- A message is observed after the calls if it was before, or one of them is on it. -/
theorem observed_recordAll :
    ((recordAll calls db).observedAt? m r).isSome =
      ((db.observedAt? m r).isSome || db.takesReceipt m r && calls.any (ReceiptCall.on m r)) := by
  rw [observedAt?_recordAll, Option.isSome_or]
  cases db.takesReceipt m r with
  | false => simp
  | true => simp [List.isSome_find?]

/-- It is acknowledged after the calls if it was before, or one of them acknowledges it. -/
theorem acknowledged_recordAll :
    ((recordAll calls db).acknowledgedAt? m r).isSome =
      ((db.acknowledgedAt? m r).isSome ||
        db.takesReceipt m r && calls.any fun call => call.on m r && call.acknowledged) := by
  rw [acknowledgedAt?_recordAll, Option.isSome_or]
  cases db.takesReceipt m r with
  | false => simp
  | true => simp [List.isSome_find?]

/-- What a report decides is the same for calls with the same reports. -/
theorem any_of_reports {p : String × String × Bool → Bool}
    (h : ∀ report, report ∈ calls.map ReceiptCall.report ↔ report ∈ calls'.map ReceiptCall.report) :
    (calls.any fun call => p call.report) = calls'.any fun call => p call.report := by
  rw [Bool.eq_iff_iff]
  have hmap (calls : List ReceiptCall) : (calls.any fun call => p call.report) = true ↔
      ∃ report ∈ calls.map ReceiptCall.report, p report = true := by
    simp
  rw [hmap, hmap]
  simp only [h]

/-- **The flags do not depend on the order or the repetition of the calls.** -/
theorem flags_of_reports
    (h : ∀ report, report ∈ calls.map ReceiptCall.report ↔ report ∈ calls'.map ReceiptCall.report) :
    ((recordAll calls db).observedAt? m r).isSome = ((recordAll calls' db).observedAt? m r).isSome ∧
      ((recordAll calls db).acknowledgedAt? m r).isSome =
        ((recordAll calls' db).acknowledgedAt? m r).isSome := by
  rw [observed_recordAll, observed_recordAll, acknowledged_recordAll, acknowledged_recordAll]
  have hon := any_of_reports (p := fun report => report.1 = m && report.2.1 = r) h
  have hack := any_of_reports (p := fun report => (report.1 = m && report.2.1 = r) && report.2.2) h
  constructor
  · exact congrArg (fun b => (db.observedAt? m r).isSome || db.takesReceipt m r && b) hon
  · exact congrArg (fun b => (db.acknowledgedAt? m r).isSome || db.takesReceipt m r && b) hack

theorem messages_recordAll : (recordAll calls db).messages = db.messages := by
  rw [recordAll_frame]

/-- The pending messages without the limit. -/
theorem perm_pendingTaskMessages :
    (db.pendingTaskMessages taskID runID observer).Perm
      (db.messages.filter fun message => message.taskID = taskID ∧ message.author ≠ observer ∧
        message.Reaches runID ∧ db.Awaits runID message) := by
  have hfilter : (db.messages.filter fun message => message.taskID = taskID &&
      message.author ≠ observer && (message.targetRunID = "" || message.targetRunID = runID) &&
      (message.requiresAck && (db.acknowledgedAt? message.id runID).isNone ||
        !message.requiresAck && (db.observedAt? message.id runID).isNone)) =
      db.messages.filter fun message => message.taskID = taskID ∧ message.author ≠ observer ∧
        message.Reaches runID ∧ db.Awaits runID message := by
    apply List.filter_congr
    intro message _
    rw [Bool.eq_iff_iff, decide_eq_true_eq, TaskMessage.Reaches, Db.Awaits]
    cases message.requiresAck <;> simp [and_assoc]
  rw [Db.pendingTaskMessages, hfilter]
  exact List.perm_insertionSort _ _

theorem reaches_of_pending
    (h : message ∈ db.pendingTaskMessages taskID runID observer) : message.Reaches runID := by
  rw [perm_pendingTaskMessages.mem_iff, List.mem_filter, decide_eq_true_eq] at h
  exact h.2.2.2.1

end History

/-- The message of an identifier reaches the run. -/
def Db.Addresses (db : Db) (runID id : String) : Prop :=
  ∃ message, db.message? id = some message ∧ message.Reaches runID

/-- Receipts, and requests whose keys were used, are for messages that reach their run. -/
structure ReceiptsAddressed (db : Db) : Prop where
  rows : ∀ row ∈ db.receipts, db.Addresses row.runID row.messageID
  requests : ∀ event ∈ db.events, ∀ taskID runID request,
    event.payload.lookup "idempotency_operation" = some (.text "task_message_receipt") →
      event.hashed (.recordReceipts taskID runID request) = true →
        ∀ id ∈ request.named, db.Addresses runID id

section Invariant

variable {svc : Service} {db' : Db} {env : Env} {request : MessageReceiptRequest}
  {principal : Principal}

theorem Db.Addresses.later (h : db.Addresses runID id)
    (hlater : Appends messageTable.key db.messages db'.messages) : db'.Addresses runID id := by
  obtain ⟨message, hmessage, hreaches⟩ := h
  exact ⟨message, hlater.find? hmessage, hreaches⟩

/-- The rows after calls are on a message and a run of a row before or of a call. -/
theorem mem_receipts_recordAll {calls : List ReceiptCall} {row : MessageReceipt}
    (h : row ∈ (recordAll calls db).receipts) :
    (∃ old ∈ db.receipts, old.messageID = row.messageID ∧ old.runID = row.runID) ∨
      ∃ call ∈ calls, call.messageID = row.messageID ∧ call.runID = row.runID := by
  have hafter : ((recordAll calls db).observedAt? row.messageID row.runID).isSome = true := by
    rw [Db.observedAt?, Option.isSome_map, receipt?_isSome]
    exact ⟨row, h, rfl, rfl⟩
  rw [observed_recordAll, Bool.or_eq_true, Bool.and_eq_true, Db.observedAt?, Option.isSome_map,
    receipt?_isSome, List.any_eq_true] at hafter
  rcases hafter with hbefore | ⟨-, call, hcall, hon⟩
  · exact Or.inl hbefore
  · exact Or.inr ⟨call, hcall, ReceiptCall.on_iff.mp hon⟩

/-- A request that is not refused keeps receipts with the runs they are addressed to. -/
theorem receiptsAddressed_tx {u : Unit} (hinv : ReceiptsAddressed db)
    (h : (recordReceiptsTx env taskID runID request principal).run db = .ok (u, db')) :
    ReceiptsAddressed db' := by
  obtain ⟨hall, event, hhash, rfl⟩ := recordReceiptsTx_ok h
  have hnamed : ∀ id ∈ request.named, db.Addresses runID id := by
    intro id hid
    obtain ⟨message, hmessage, hmay⟩ := hall id hid
    exact ⟨message, hmessage, TaskMessage.reaches_of_receivable hmay⟩
  have hmessages {calls : List ReceiptCall} {events : List Event} {runID id : String}
      (h : db.Addresses runID id) :
      ({ recordAll calls db with events := events } : Db).Addresses runID id := by
    obtain ⟨message, hmessage, hreaches⟩ := h
    refine ⟨message, ?_, hreaches⟩
    rw [← hmessage, Db.message?, messages_recordAll, Db.message?]
  constructor
  · intro row hrow
    apply hmessages
    rcases mem_receipts_recordAll hrow with ⟨old, hold, hmessage, hrun⟩ | ⟨call, hcall, hmessage, hrun⟩
    · rw [← hmessage, ← hrun]
      exact hinv.rows old hold
    · obtain ⟨id, hid, rfl⟩ := List.mem_map.mp hcall
      rw [← hmessage, ← hrun]
      exact hnamed id hid
  · intro e he otherTask otherRun other hop hother id hid
    apply hmessages
    rcases List.mem_append.mp he with he | he
    · exact hinv.requests e he otherTask otherRun other hop hother id hid
    · obtain rfl := List.mem_singleton.mp he
      rw [Event.hashed, decide_eq_true_eq] at hother
      rw [hother] at hhash
      simp only [List.mem_cons, reduceCtorEq, Option.some.injEq, PayloadValue.digest.injEq,
        Digest.recordReceipts.injEq, List.not_mem_nil, or_false, false_or] at hhash
      obtain ⟨-, rfl, rfl⟩ := hhash
      exact hnamed id hid

theorem recordReceipts_step (svc : Service) (env : Env) (taskID runID : String)
    (request : MessageReceiptRequest) (principal : Principal) (db : Db) :
    (Op.recordReceipts env taskID runID request principal).step svc db = db ∨
      ∃ u, (recordReceiptsTx env (trimSpace taskID) (trimSpace runID) request principal).run db =
        .ok (u, (Op.recordReceipts env taskID runID request principal).step svc db) :=
  Call.atMost_then_quiet atMost_recordMessageReceiptsFor (fun _ => Call.quiet_pure _) db

theorem receipts_step {op : Op} (h : op.operation ≠ "task_message_receipt") (db : Db) :
    (op.step svc db).receipts = db.receipts := by
  apply (loose_step op db).sameReceipts
  cases op with
  | recordReceipts => exact absurd rfl h
  | _ => simp [Op.ledgers]

/-- Every operation keeps receipts with the runs they are addressed to. -/
theorem receiptsAddressed_step (op : Op) (hinv : ReceiptsAddressed db) :
    ReceiptsAddressed (op.step svc db) := by
  by_cases hop : op.operation = "task_message_receipt"
  · cases op with
    | recordReceipts env taskID runID request principal =>
        rcases recordReceipts_step svc env taskID runID request principal db with
          hsame | ⟨_, hrun⟩
        · rw [hsame]
          exact hinv
        · exact receiptsAddressed_tx hinv hrun
    | _ => simp [Op.operation] at hop
  · have hloose := @loose_step svc op db
    constructor
    · intro row hrow
      rw [receipts_step hop] at hrow
      exact (hinv.rows row hrow).later hloose.messages
    · intro event hevent taskID runID request hkey hhash id hid
      obtain ⟨kept, added, hevents, hkept, hadded⟩ := hloose.events
      obtain rfl := List.forall₂_eq_eq_eq ▸ hkept
      rw [hevents] at hevent
      rcases List.mem_append.mp hevent with hevent | hevent
      · exact (hinv.requests event hevent taskID runID request hkey hhash id hid).later
          hloose.messages
      · -- an event of another operation carries no key of this one
        rcases hadded event hevent with hnone | hother
        · rw [Event.Unkeyed, hkey] at hnone
          cases hnone
        · rw [hkey] at hother
          simp only [Option.some.injEq, PayloadValue.text.injEq] at hother
          exact absurd hother.symm hop

theorem receiptsAddressed_of_reachable (h : Reachable svc (fun _ _ => True) db) :
    ReceiptsAddressed db :=
  h.invariant ⟨List.forall_mem_nil _, List.forall_mem_nil _⟩ fun op _ _ => receiptsAddressed_step op

/-- A request that names a message of another run is refused. -/
theorem recordMessageReceiptsFor_refuses (hinv : ReceiptsAddressed db) (hid : id ∈ request.named)
    (hmessage : db.message? id = some message) (hother : ¬ message.Reaches (trimSpace runID)) :
    ∃ e, (recordMessageReceiptsFor svc env taskID runID request principal).exec db =
      (.error e, db) := by
  have hnot : ¬ db.Addresses (trimSpace runID) id := by
    rintro ⟨found, hfound, hreaches⟩
    rw [hmessage, Option.some.injEq] at hfound
    exact hother (hfound ▸ hreaches)
  -- a committed transaction has found every message addressed to this run
  have htx (u : Unit) (db' : Db) :
      ¬ (recordReceiptsTx env (trimSpace taskID) (trimSpace runID) request principal).run db =
        .ok (u, db') := by
    intro hrun
    obtain ⟨found, hfound, hmay⟩ := (recordReceiptsTx_ok hrun).1 id hid
    exact hnot ⟨found, hfound, TaskMessage.reaches_of_receivable hmay⟩
  cases hexec : (recordMessageReceiptsFor svc env taskID runID request principal).exec db with
  | mk result db' =>
      obtain rfl : db' = db := by
        rcases atMost_recordMessageReceiptsFor.of_exec hexec with hsame | ⟨u, hrun⟩
        · exact hsame
        · exact absurd hrun (htx u db')
      cases result with
      | error e => exact ⟨e, rfl⟩
      | ok pending =>
          exfalso
          obtain ⟨_, -, hkeyed⟩ := Call.exec_bind_quiet_ok quiet_mayRecordReceipts hexec
          rcases exec_keyedAs_ok hkeyed with ⟨event, ⟨-, hreplay⟩, -⟩ | ⟨-, hproceed⟩
          · -- the key was used by a request for the same messages
            obtain ⟨hevent, hkey, hhash⟩ := mem_of_findReplay_some hreplay
            simp only [Event.keyed, Bool.and_eq_true, decide_eq_true_eq] at hkey
            exact hnot (hinv.requests event hevent _ _ request hkey.1.2 hhash id hid)
          · obtain ⟨u, db1, hrun, -⟩ := Call.exec_bind_ok hproceed
            rcases Call.exec_tx_cases hrun with ⟨a, hcommitted, -⟩ | ⟨_, -, hfailed, -⟩
            · exact htx a db1 hcommitted
            · cases hfailed

/-- The receipts of a database keep their times through every operation. -/
theorem receiptsKept_step (op : Op) (db : Db) : ReceiptsKept db (op.step svc db) := by
  by_cases hop : op.operation = "task_message_receipt"
  · cases op with
    | recordReceipts env taskID runID request principal =>
        rcases recordReceipts_step svc env taskID runID request principal db with
          hsame | ⟨_, hrun⟩
        · rw [hsame]
          exact refl_of ReceiptsKept db
        · obtain ⟨-, event, -, hdb⟩ := recordReceiptsTx_ok hrun
          rw [hdb]
          exact receiptsKept_recordAll.of_receipts rfl
    | _ => simp [Op.operation] at hop
  · exact (refl_of ReceiptsKept db).of_receipts (receipts_step hop db)

end Invariant

/-- **Receipts are monotone and decide what is pending.** After any calls, from any database:
receipts keep their times, and have otherwise that of the first call that counts; the flags depend
on the reports alone; what is pending, without a limit, is what reaches the run and still awaits
its receipt, so never a message of another run. Along every run of the service receipts keep
their times, too, and in every state that it reaches there is no receipt of a run for a message of
another one, and a request to record one is refused. -/
theorem receipts_decide_pending (db : Db) (calls : List ReceiptCall) :
    ReceiptsKept db (recordAll calls db) ∧
      (∀ m r, db.observedAt? m r = none → (recordAll calls db).observedAt? m r =
        if db.takesReceipt m r then
          (calls.find? fun call => call.on m r).map ReceiptCall.now else none) ∧
      (∀ m r, db.acknowledgedAt? m r = none → (recordAll calls db).acknowledgedAt? m r =
        if db.takesReceipt m r then
          (calls.find? fun call => call.on m r && call.acknowledged).map ReceiptCall.now
        else none) ∧
      (∀ calls' : List ReceiptCall,
        (∀ report, report ∈ calls.map ReceiptCall.report ↔
          report ∈ calls'.map ReceiptCall.report) →
        ∀ m r, ((recordAll calls db).observedAt? m r).isSome =
            ((recordAll calls' db).observedAt? m r).isSome ∧
          ((recordAll calls db).acknowledgedAt? m r).isSome =
            ((recordAll calls' db).acknowledgedAt? m r).isSome) ∧
      (∀ taskID runID observer,
        ((recordAll calls db).pendingTaskMessages taskID runID observer).Perm
          (db.messages.filter fun message => message.taskID = taskID ∧ message.author ≠ observer ∧
            message.Reaches runID ∧ (recordAll calls db).Awaits runID message)) ∧
      (∀ taskID runID observer, ∀ message : TaskMessage,
        message.targetRunID ≠ "" → message.targetRunID ≠ runID →
          message ∉ (recordAll calls db).pendingTaskMessages taskID runID observer) ∧
      ∀ svc, Reachable svc (fun _ _ => True) db →
        (∀ later, Relation.ReflTransGen (Step svc fun _ _ => True) db later →
          ReceiptsKept db later) ∧
        (∀ row ∈ db.receipts, ∀ message, db.message? row.messageID = some message →
          message.Reaches row.runID) ∧
        ∀ env taskID runID request principal id message, id ∈ request.named →
          db.message? id = some message → message.targetRunID ≠ "" →
            message.targetRunID ≠ trimSpace runID →
              ∃ e, (recordMessageReceiptsFor svc env taskID runID request principal).exec db =
                (.error e, db) := by
  refine ⟨receiptsKept_recordAll, ?_, ?_, ?_, ?_, ?_, ?_⟩
  · intro m r hnone
    rw [observedAt?_recordAll, hnone, Option.none_or]
  · intro m r hnone
    rw [acknowledgedAt?_recordAll, hnone, Option.none_or]
  · exact fun calls' hreports m r => flags_of_reports hreports
  · intro taskID runID observer
    rw [← messages_recordAll]
    exact perm_pendingTaskMessages
  · intro taskID runID observer message htarget hother hpending
    rcases reaches_of_pending hpending with hnone | hsame
    · exact htarget hnone
    · exact hother hsame
  · intro svc hreachable
    have hinv := receiptsAddressed_of_reachable hreachable
    refine ⟨?_, ?_, ?_⟩
    · exact fun later hlater => later_of_step (fun op db _ => receiptsKept_step op db) hlater
    · intro row hrow message hmessage
      obtain ⟨found, hfound, hreaches⟩ := hinv.rows row hrow
      rw [hmessage, Option.some.injEq] at hfound
      exact hfound ▸ hreaches
    · intro env taskID runID request principal id message hid hmessage htarget hother
      apply recordMessageReceiptsFor_refuses hinv hid hmessage
      rintro (hnone | hsame)
      · exact htarget hnone
      · exact hother hsame

end Taskboard
