import Taskboard.Timestamps

/-!
# Webhook deliveries

Every event is delivered to a webhook. One worker (`process`) queues a row for each new event and
sends the rows that are due, one after the other; a failed row is sent again later, up to a number
of attempts, and is then a dead letter that an administrator may have sent again.

The worker takes one statement or one request at a time, and between any two of them time passes,
events come in and administrators retry dead letters. What it holds in its variables meanwhile is
the state of a `Worker`. The invariant `Webhooks.Orderly` says that a row it holds is still the row
of the table: nobody else touches rows that wait for their delivery.
-/

namespace Taskboard

inductive WebhookStatus where
  | pending | retry | delivered | deadLetter
  deriving DecidableEq

/-- A row of `webhook_deliveries`. -/
structure WebhookDelivery where
  id : String
  eventID : String
  status : WebhookStatus
  attempts : Int
  nextAttempt : Instant
  lastError : String := ""
  createdAt : Instant
  updatedAt : Instant
  deriving DecidableEq

/-- The row that `QueueWebhookEvents` inserts. -/
def WebhookDelivery.fresh (id eventID : String) (now : Instant) : WebhookDelivery where
  id := id
  eventID := eventID
  status := .pending
  attempts := 0
  nextAttempt := now
  createdAt := now
  updatedAt := now

/-- Where the worker is in `process`. -/
inductive Worker where
  | idle
  | queueing (now : Instant) (eventIDs : List String)
  | loading (rounds : Nat)
  | sending (rounds : Nat) (delivery : WebhookDelivery)
  | recording (rounds : Nat) (delivery : WebhookDelivery) (err : Option String)
  deriving DecidableEq

/-- The database, the clock and the worker. -/
structure Webhooks where
  clock : Instant
  events : List Event := []
  deliveries : List WebhookDelivery := []
  worker : Worker := .idle
  deriving DecidableEq

/-- What an observer sees of the deliveries. -/
inductive Note where
  | queued (id : String)
  | sent (delivery : WebhookDelivery) (time : Instant)
  | completed (id : String)
  | failed (id : String)
  | retried (id : String)
  deriving DecidableEq

namespace Webhooks

/-- The query of `QueueWebhookEvents`. -/
def unqueued (svc : Service) (limit : Nat) (s : Webhooks) : List String :=
  let rows := s.events.filter fun event => !s.deliveries.any fun row => row.eventID = event.id
  ((sortBy (fun a b => svc.before a.createdAt b.createdAt ||
      (a.createdAt = b.createdAt && a.id < b.id)) rows).map Event.id).take limit

/-- The statement in the loop of `QueueWebhookEvents`: nothing if the event has a row, and an error
if the identifier is taken. -/
def insertDelivery (s : Webhooks) (now : Instant) (id eventID : String) :
    Option (Webhooks × List Note) :=
  if s.deliveries.any fun row => row.eventID = eventID then some (s, [])
  else if s.deliveries.any fun row => row.id = id then none
  else some ({ s with deliveries := s.deliveries ++ [.fresh id eventID now] }, [.queued id])

/-- `NextWebhookDelivery`. -/
def nextWebhookDelivery (svc : Service) (s : Webhooks) : Option WebhookDelivery :=
  let rows := s.deliveries.filter fun row =>
    (row.status = .pending ∨ row.status = .retry) && svc.webhookDue s.clock row.nextAttempt &&
      s.events.any fun event => event.id = row.eventID
  (sortBy (fun a b => svc.before a.nextAttempt b.nextAttempt ||
    (a.nextAttempt = b.nextAttempt && a.id < b.id)) rows).head?

/-- `CompleteWebhookDelivery`. -/
def completeWebhookDelivery (s : Webhooks) (id : String) : Webhooks :=
  { s with
    deliveries := mapWhere (fun row => row.id = id)
      (fun row => { row with status := .delivered, lastError := "", updatedAt := s.clock })
      s.deliveries }

/-- `FailWebhookDelivery`. A message is cut at whole characters here. -/
def failWebhookDelivery (s : Webhooks) (id : String) (attempts maxAttempts : Int)
    (next : Instant) (message : String) : Webhooks :=
  { s with
    deliveries := mapWhere (fun row => row.id = id)
      (fun row =>
        { row with
          status := if maxAttempts ≤ attempts then .deadLetter else .retry
          attempts
          nextAttempt := next
          lastError := String.ofList (takeBytes 1000 message.toList)
          updatedAt := s.clock })
      s.deliveries }

/-- `RetryWebhookDelivery`. -/
def retryWebhookDelivery (s : Webhooks) (id : String) : Except ServiceError (Webhooks × List Note) :=
  let hit (row : WebhookDelivery) : Bool := row.id = trimSpace id ∧ row.status = .deadLetter
  if (s.deliveries.filter hit).length = 1 then
    .ok ({ s with
      deliveries := mapWhere hit
        (fun row =>
          { row with
            status := .retry, attempts := 0, nextAttempt := s.clock, lastError := ""
            updatedAt := s.clock })
        s.deliveries }, [.retried (trimSpace id)])
  else .error .notFound

end Webhooks

/-- How long a row waits after this many attempts. -/
def webhookDelay (attempts : Int) : Duration :=
  minute * 2 ^ (min (attempts - 1) 6).toNat

/-- One statement or one request of `process`. The next row gets the identifier `id`, and the next
request is answered by `err`. -/
def Webhooks.work (svc : Service) (maxAttempts : Int) (id : String) (err : Option String)
    (s : Webhooks) : Webhooks × List Note :=
  match s.worker with
  | .idle => ({ s with worker := .queueing s.clock (s.unqueued svc 100) }, [])
  | .queueing _ [] => ({ s with worker := .loading 100 }, [])
  | .queueing now (eventID :: rest) =>
      match s.insertDelivery now id eventID with
      | none => ({ s with worker := .idle }, [])
      | some (s, notes) => ({ s with worker := .queueing now rest }, notes)
  | .loading 0 => ({ s with worker := .idle }, [])
  | .loading (rounds + 1) =>
      match s.nextWebhookDelivery svc with
      | none => ({ s with worker := .idle }, [])
      | some delivery => ({ s with worker := .sending rounds delivery }, [])
  | .sending rounds delivery =>
      ({ s with worker := .recording rounds delivery err }, [.sent delivery s.clock])
  | .recording rounds delivery none =>
      ({ s.completeWebhookDelivery delivery.id with worker := .loading rounds },
        [.completed delivery.id])
  | .recording rounds delivery (some message) =>
      let attempts := delivery.attempts + 1
      let next := s.clock + webhookDelay attempts
      ({ s.failWebhookDelivery delivery.id attempts maxAttempts next message with
          worker := .loading rounds }, [.failed delivery.id])

/-- What happens: the worker does something, time passes, an event is committed, or an
administrator retries a delivery. -/
inductive WebhookAct where
  | work (id : String) (err : Option String)
  | wait (time : Nat)
  | event (row : Event)
  | retry (id : String)

/-- The state after an act, and what is to be seen of it. -/
def WebhookAct.perform (svc : Service) (maxAttempts : Int) (s : Webhooks) :
    WebhookAct → Webhooks × List Note
  | .work id err => s.work svc maxAttempts id err
  | .wait time => ({ s with clock := s.clock + time }, [])
  | .event row =>
      if s.events.any fun other => other.id = row.id then (s, [])
      else ({ s with events := s.events ++ [row] }, [])
  | .retry id => (s.retryWebhookDelivery id).toOption.getD (s, [])

/-- The state after some acts, and what was to be seen of them. -/
def Webhooks.run (svc : Service) (maxAttempts : Int) :
    List WebhookAct → Webhooks → Webhooks × List Note
  | [], s => (s, [])
  | act :: rest, s =>
      let (s, notes) := act.perform svc maxAttempts s
      let (s, more) := Webhooks.run svc maxAttempts rest s
      (s, notes ++ more)

/-- The row waits for its delivery. -/
def WebhookDelivery.open (row : WebhookDelivery) : Bool :=
  row.status = .pending ∨ row.status = .retry

/-- The row that the worker has in its hands. -/
def Worker.held : Worker → Option WebhookDelivery
  | .sending _ delivery | .recording _ delivery _ => some delivery
  | _ => none

/-- The row after a success. -/
def WebhookDelivery.completed (row : WebhookDelivery) (now : Instant) : WebhookDelivery :=
  { row with status := .delivered, lastError := "", updatedAt := now }

/-- The row after one more failure. -/
def WebhookDelivery.failed (row : WebhookDelivery) (maxAttempts : Int) (now : Instant)
    (message : String) : WebhookDelivery :=
  { row with
    status := if maxAttempts ≤ row.attempts + 1 then .deadLetter else .retry
    attempts := row.attempts + 1
    nextAttempt := now + webhookDelay (row.attempts + 1)
    lastError := String.ofList (takeBytes 1000 message.toList)
    updatedAt := now }

/-- The row after an administrator had it sent again. -/
def WebhookDelivery.retried (row : WebhookDelivery) (now : Instant) : WebhookDelivery :=
  { row with status := .retry, attempts := 0, nextAttempt := now, lastError := "", updatedAt := now }

/-- The numbers of a row: the attempts reach the maximum exactly when it becomes a dead letter. -/
structure WebhookDelivery.Counted (maxAttempts : Int) (row : WebhookDelivery) : Prop where
  nonneg : 0 ≤ row.attempts
  dead : row.status = .deadLetter → row.attempts = maxAttempts
  live : row.status ≠ .deadLetter → row.attempts < maxAttempts

/-- **The invariant of the deliveries.** -/
structure Webhooks.Orderly (maxAttempts : Int) (s : Webhooks) : Prop where
  ids : (s.deliveries.map WebhookDelivery.id).Nodup
  eventIDs : (s.deliveries.map WebhookDelivery.eventID).Nodup
  counted : ∀ row ∈ s.deliveries, row.Counted maxAttempts
  held : ∀ row ∈ s.worker.held, row ∈ s.deliveries ∧ row.open = true
  due : ∀ rounds row, s.worker = .sending rounds row → row.nextAttempt ≤ s.clock

/-- What one act does. -/
inductive Webhooks.Happens (svc : Service) (maxAttempts : Int) (s : Webhooks) :
    Webhooks → List Note → Prop
  | rest {s' : Webhooks} (deliveries : s'.deliveries = s.deliveries) (clock : s.clock ≤ s'.clock)
      (worker : s'.worker = s.worker ∨ s.worker.held = none ∧ s'.worker.held = none) :
      Happens svc maxAttempts s s' []
  | load {rounds : Nat} {row : WebhookDelivery} (mem : row ∈ s.deliveries) (isOpen : row.open = true)
      (due : svc.webhookDue s.clock row.nextAttempt = true) (free : s.worker.held = none) :
      Happens svc maxAttempts s { s with worker := .sending rounds row } []
  | send {rounds : Nat} {row : WebhookDelivery} {err : Option String}
      (worker : s.worker = .sending rounds row) :
      Happens svc maxAttempts s { s with worker := .recording rounds row err } [.sent row s.clock]
  | queue {s' : Webhooks} {row : WebhookDelivery} (deliveries : s'.deliveries = s.deliveries ++ [row])
      (id : ∀ other ∈ s.deliveries, other.id ≠ row.id)
      (eventID : ∀ other ∈ s.deliveries, other.eventID ≠ row.eventID)
      (status : row.status = .pending) (attempts : row.attempts = 0) (free : s.worker.held = none)
      (worker : s'.worker.held = none) : Happens svc maxAttempts s s' [.queued row.id]
  | complete {s' : Webhooks} {rounds : Nat} {row : WebhookDelivery}
      (worker : s.worker = .recording rounds row none)
      (deliveries : s'.deliveries =
        mapWhere (fun other => other.id = row.id) (·.completed s.clock) s.deliveries)
      (idle : s'.worker.held = none) : Happens svc maxAttempts s s' [.completed row.id]
  | fail {s' : Webhooks} {rounds : Nat} {row : WebhookDelivery} {message : String}
      (worker : s.worker = .recording rounds row (some message))
      (deliveries : s'.deliveries =
        mapWhere (fun other => other.id = row.id) (·.failed maxAttempts s.clock message)
          s.deliveries)
      (idle : s'.worker.held = none) : Happens svc maxAttempts s s' [.failed row.id]
  | retry {id : String} (mem : ∃ row ∈ s.deliveries, row.id = id ∧ row.status = .deadLetter) :
      Happens svc maxAttempts s
        { s with
          deliveries := mapWhere (fun row => row.id = id ∧ row.status = .deadLetter)
            (·.retried s.clock) s.deliveries }
        [.retried id]

section Rows

variable {row : WebhookDelivery} {maxAttempts : Int} {now : Instant}

theorem WebhookDelivery.not_dead_of_open (h : row.open = true) : row.status ≠ .deadLetter := by
  intro hdead
  simp [WebhookDelivery.open, hdead] at h

theorem WebhookDelivery.Counted.completed (h : row.Counted maxAttempts) (hopen : row.open = true) :
    (row.completed now).Counted maxAttempts :=
  ⟨h.nonneg, fun hdead => (nomatch hdead), fun _ => h.live (row.not_dead_of_open hopen)⟩

theorem WebhookDelivery.Counted.failed {message : String} (h : row.Counted maxAttempts)
    (hopen : row.open = true) : (row.failed maxAttempts now message).Counted maxAttempts := by
  have hpos := h.nonneg
  have hlive := h.live (row.not_dead_of_open hopen)
  unfold WebhookDelivery.failed
  refine ⟨by dsimp only; omega, ?_, ?_⟩
  · intro hdead
    dsimp only at hdead ⊢
    split at hdead
    · omega
    · cases hdead
  · intro halive
    dsimp only at halive ⊢
    split at halive
    · exact absurd rfl halive
    · omega

theorem WebhookDelivery.counted_retried (hmax : 1 ≤ maxAttempts) :
    (row.retried now).Counted maxAttempts :=
  ⟨Int.le_refl 0, fun hdead => (nomatch hdead), fun _ => hmax⟩

end Rows

section Acts

variable {svc : Service} {maxAttempts : Int} {s s' : Webhooks} {notes : List Note} {id : String}
  {row : WebhookDelivery}

theorem Webhooks.Orderly.eq_of_id (h : s.Orderly maxAttempts) {other : WebhookDelivery}
    (hrow : row ∈ s.deliveries) (hother : other ∈ s.deliveries) (hid : other.id = row.id) :
    other = row :=
  List.inj_on_of_nodup_map h.ids hother hrow hid

theorem mem_of_nextWebhookDelivery
    (h : s.nextWebhookDelivery svc = some row) :
    row ∈ s.deliveries ∧ row.open = true ∧ svc.webhookDue s.clock row.nextAttempt = true := by
  have hmem := mem_sortBy.mp (List.mem_of_head? h)
  simp only [List.mem_filter, Bool.and_eq_true] at hmem
  exact ⟨hmem.1, hmem.2.1.1, hmem.2.1.2⟩

theorem happens_insertDelivery {now : Instant} {eventID : String} {rest : List String}
    (hfree : s.worker.held = none)
    (hinsert : s.insertDelivery now id eventID = some (s', notes)) :
    Webhooks.Happens svc maxAttempts s { s' with worker := .queueing now rest } notes := by
  unfold Webhooks.insertDelivery at hinsert
  by_cases hevent : (s.deliveries.any fun row => row.eventID = eventID) = true
  · rw [if_pos hevent] at hinsert
    cases hinsert
    exact .rest rfl (Int.le_refl _) (Or.inr ⟨hfree, rfl⟩)
  rw [if_neg hevent] at hinsert
  by_cases hid : (s.deliveries.any fun row => row.id = id) = true
  · rw [if_pos hid] at hinsert
    cases hinsert
  · rw [if_neg hid] at hinsert
    cases hinsert
    simp only [Bool.not_eq_true, List.any_eq_false, decide_eq_true_eq] at hevent hid
    exact @Webhooks.Happens.queue svc maxAttempts s { s with
      deliveries := s.deliveries ++ [.fresh id eventID now], worker := .queueing now rest }
      (.fresh id eventID now) rfl hid hevent rfl rfl hfree rfl

theorem happens_retry (hretry : s.retryWebhookDelivery id = .ok (s', notes)) :
    Webhooks.Happens svc maxAttempts s s' notes := by
  unfold Webhooks.retryWebhookDelivery at hretry
  dsimp only at hretry
  split at hretry
  · rename_i hone
    cases hretry
    obtain ⟨row, hrow⟩ := List.length_eq_one_iff.mp hone
    have hmem : row ∈ s.deliveries.filter fun row =>
        decide (row.id = trimSpace id ∧ row.status = .deadLetter) := by
      rw [hrow]
      exact List.mem_singleton_self row
    rw [List.mem_filter, decide_eq_true_eq] at hmem
    exact .retry ⟨row, hmem⟩
  · cases hretry

/-- **Every act does one of these.** -/
theorem happens_perform (h : s.Orderly maxAttempts) (act : WebhookAct) :
    Webhooks.Happens svc maxAttempts s (act.perform svc maxAttempts s).1
      (act.perform svc maxAttempts s).2 := by
  cases act with
  | wait time => exact .rest rfl (Int.le_add_of_nonneg_right (Int.natCast_nonneg time)) (Or.inl rfl)
  | event row =>
      simp only [WebhookAct.perform]
      split
      · exact .rest rfl (Int.le_refl _) (Or.inl rfl)
      · exact .rest rfl (Int.le_refl _) (Or.inl rfl)
  | retry id =>
      simp only [WebhookAct.perform]
      cases hretry : s.retryWebhookDelivery id with
      | error e => exact .rest rfl (Int.le_refl _) (Or.inl rfl)
      | ok result => exact happens_retry hretry
  | work id err =>
      simp only [WebhookAct.perform, Webhooks.work]
      have idle {worker : Worker} (hfree : s.worker.held = none) (hworker : worker.held = none) :
          Webhooks.Happens svc maxAttempts s { s with worker } [] :=
        .rest rfl (Int.le_refl _) (Or.inr ⟨hfree, hworker⟩)
      cases hworker : s.worker with
      | idle => exact idle (by rw [hworker]; rfl) rfl
      | queueing now eventIDs =>
          have hfree : s.worker.held = none := by
            rw [hworker]
            rfl
          cases eventIDs with
          | nil => exact idle hfree rfl
          | cons eventID rest =>
              cases hinsert : s.insertDelivery now id eventID with
              | none =>
                  simp only [hinsert]
                  exact idle hfree rfl
              | some result =>
                  simp only [hinsert]
                  exact happens_insertDelivery hfree hinsert
      | loading rounds =>
          have hfree : s.worker.held = none := by
            rw [hworker]
            rfl
          cases rounds with
          | zero => exact idle hfree rfl
          | succ rounds =>
              cases hnext : s.nextWebhookDelivery svc with
              | none => exact idle hfree rfl
              | some row =>
                  obtain ⟨hmem, hopen, hdue⟩ := mem_of_nextWebhookDelivery hnext
                  exact .load hmem hopen hdue hfree
      | sending rounds row => exact .send hworker
      | recording rounds row err =>
          cases err with
          | none => exact .complete hworker rfl rfl
          | some message =>
              -- The statement writes what the worker holds, which is the row it hits.
              have hrow := (h.held row (by rw [hworker]; rfl)).1
              refine .fail hworker (List.map_congr_left fun other hother => ?_) rfl
              by_cases hid : other.id = row.id
              · rw [h.eq_of_id hrow hother hid]
                rfl
              · simp [hid]

/-- A statement that writes a single row, and keeps its names. -/
theorem orderly_of_mapWhere (h : s.Orderly maxAttempts) {p : WebhookDelivery → Bool}
    {f : WebhookDelivery → WebhookDelivery}
    (hdeliveries : s'.deliveries = mapWhere p f s.deliveries)
    (hid : ∀ row, (f row).id = row.id) (hevent : ∀ row, (f row).eventID = row.eventID)
    (hcounted : ∀ row ∈ s.deliveries, p row = true → (f row).Counted maxAttempts)
    (hheld : ∀ row ∈ s'.worker.held, row ∈ s.deliveries ∧ row.open = true ∧ p row = false)
    (hdue : ∀ rounds row, s'.worker = .sending rounds row → row.nextAttempt ≤ s'.clock) :
    s'.Orderly maxAttempts where
  ids := by
    rw [hdeliveries, map_mapWhere hid]
    exact h.ids
  eventIDs := by
    rw [hdeliveries, map_mapWhere hevent]
    exact h.eventIDs
  counted := by
    rw [hdeliveries]
    intro row hrow
    obtain ⟨old, hold, rfl⟩ := mem_mapWhere.mp hrow
    split
    · exact hcounted old hold ‹_›
    · exact h.counted old hold
  held := by
    intro row hrow
    obtain ⟨hmem, hopen, hout⟩ := hheld row hrow
    refine ⟨?_, hopen⟩
    rw [hdeliveries]
    exact mem_mapWhere.mpr ⟨row, hmem, by rw [hout]; rfl⟩
  due := hdue

/-- Times compare as instants. -/
def Service.ComparesInstants (svc : Service) : Prop :=
  ∀ a b, svc.before a b = decide (a < b)

theorem Webhooks.Happens.orderly (hsvc : svc.ComparesInstants) (hmax : 1 ≤ maxAttempts)
    (h : s.Orderly maxAttempts) (hs : Webhooks.Happens svc maxAttempts s s' notes) :
    s'.Orderly maxAttempts := by
  have sends {worker : Worker} {rounds : Nat} {row : WebhookDelivery} (hnone : worker.held = none)
      (hsending : worker = .sending rounds row) : False := by
    rw [hsending] at hnone
    cases hnone
  cases hs with
  | rest deliveries clock worker =>
      refine ⟨deliveries ▸ h.ids, deliveries ▸ h.eventIDs, deliveries ▸ h.counted, ?_, ?_⟩
      · intro row hrow
        rcases worker with hsame | ⟨-, hnone⟩
        · rw [hsame] at hrow
          exact deliveries ▸ h.held row hrow
        · rw [hnone] at hrow
          cases hrow
      · intro rounds row hsending
        rcases worker with hsame | ⟨-, hnone⟩
        · exact Int.le_trans (h.due rounds row (hsame ▸ hsending)) clock
        · exact (sends hnone hsending).elim
  | @load rounds row mem isOpen due free =>
      refine ⟨h.ids, h.eventIDs, h.counted, ?_, ?_⟩
      · intro other hother
        cases hother
        exact ⟨mem, isOpen⟩
      · intro _ other hsending
        cases hsending
        simpa [Service.webhookDue, hsvc s.clock row.nextAttempt] using due
  | @send rounds row err worker =>
      refine ⟨h.ids, h.eventIDs, h.counted, ?_, fun _ _ hsending => by cases hsending⟩
      intro other hother
      cases hother
      exact h.held row (by rw [worker]; rfl)
  | @queue s' row deliveries id eventID status attempts free worker =>
      refine ⟨?_, ?_, ?_, ?_, fun _ _ hsending => (sends worker hsending).elim⟩
      · rw [deliveries, List.map_append]
        exact List.Nodup.append h.ids (List.nodup_singleton _) (by simpa [eq_comm] using id)
      · rw [deliveries, List.map_append]
        exact List.Nodup.append h.eventIDs (List.nodup_singleton _) (by simpa [eq_comm] using eventID)
      · rw [deliveries]
        intro other hother
        rcases List.mem_append.mp hother with hold | hnew
        · exact h.counted other hold
        · rw [List.mem_singleton.mp hnew]
          exact ⟨by omega, fun hdead => by simp [status] at hdead, fun _ => by omega⟩
      · intro other hother
        rw [worker] at hother
        cases hother
  | @complete s' rounds row worker deliveries idle =>
      have hrow := h.held row (by rw [worker]; rfl)
      refine orderly_of_mapWhere h deliveries (fun _ => rfl) (fun _ => rfl) ?_ ?_
        fun _ _ hsending => (sends idle hsending).elim
      · intro other hother hid
        rw [h.eq_of_id hrow.1 hother (by simpa using hid)]
        exact (h.counted row hrow.1).completed hrow.2
      · intro other hother
        rw [idle] at hother
        cases hother
  | @fail s' rounds row message worker deliveries idle =>
      have hrow := h.held row (by rw [worker]; rfl)
      refine orderly_of_mapWhere h deliveries (fun _ => rfl) (fun _ => rfl) ?_ ?_
        fun _ _ hsending => (sends idle hsending).elim
      · intro other hother hid
        rw [h.eq_of_id hrow.1 hother (by simpa using hid)]
        exact (h.counted row hrow.1).failed hrow.2
      · intro other hother
        rw [idle] at hother
        cases hother
  | @retry id mem =>
      refine orderly_of_mapWhere h rfl (fun _ => rfl) (fun _ => rfl)
        (fun _ _ _ => WebhookDelivery.counted_retried hmax) ?_ h.due
      intro other hother
      obtain ⟨hmem, hopen⟩ := h.held other hother
      exact ⟨hmem, hopen, by simp [other.not_dead_of_open hopen]⟩

/-- A request was made for a row that waited and was due. -/
theorem Webhooks.Happens.sent (h : s.Orderly maxAttempts)
    (hs : Webhooks.Happens svc maxAttempts s s' notes) {time : Instant}
    (hsent : .sent row time ∈ notes) :
    row ∈ s.deliveries ∧ row.open = true ∧ row.nextAttempt ≤ time := by
  cases hs with
  | @send rounds other err worker =>
      cases List.mem_singleton.mp hsent
      obtain ⟨hmem, hopen⟩ := h.held row (by rw [worker]; rfl)
      exact ⟨hmem, hopen, h.due rounds row worker⟩
  | _ => simp at hsent

/-- The row that a note tells the change of. -/
def Note.writes : Note → Option String
  | .queued id | .completed id | .failed id | .retried id => some id
  | .sent .. => none

/-- What happens to a row, and what is to be seen of it. -/
inductive RowStep (maxAttempts : Int) (now : Instant) (row : WebhookDelivery) (notes : List Note) :
    WebhookDelivery → Prop
  | same (writes : ∀ note ∈ notes, note.writes ≠ some row.id) : RowStep maxAttempts now row notes row
  | completed (isOpen : row.open = true) (noted : notes = [.completed row.id]) :
      RowStep maxAttempts now row notes (row.completed now)
  | failed {message : String} (isOpen : row.open = true) (noted : notes = [.failed row.id]) :
      RowStep maxAttempts now row notes (row.failed maxAttempts now message)
  | retried (dead : row.status = .deadLetter) (noted : notes = [.retried row.id]) :
      RowStep maxAttempts now row notes (row.retried now)

/-- **What an act does to a row.** -/
theorem Webhooks.Happens.rowStep (h : s.Orderly maxAttempts)
    (hs : Webhooks.Happens svc maxAttempts s s' notes)
    (hrow : row ∈ s.deliveries) :
    ∃ row' ∈ s'.deliveries, row'.id = row.id ∧ RowStep maxAttempts s.clock row notes row' := by
  cases hs with
  | rest deliveries clock worker => exact ⟨row, deliveries ▸ hrow, rfl, .same (by simp)⟩
  | load mem isOpen due free => exact ⟨row, hrow, rfl, .same (by simp)⟩
  | send worker => exact ⟨row, hrow, rfl, .same (by simp [Note.writes])⟩
  | @queue s' new deliveries id eventID status attempts free worker =>
      refine ⟨row, ?_, rfl, .same ?_⟩
      · rw [deliveries]
        exact List.mem_append_left _ hrow
      · have hne := id row hrow
        simp [Note.writes, hne.symm]
  | @complete s' rounds other worker deliveries idle =>
      obtain ⟨hother, hopen⟩ := h.held other (by rw [worker]; rfl)
      rw [deliveries]
      by_cases hid : row.id = other.id
      · obtain rfl := h.eq_of_id hother hrow hid
        refine ⟨row.completed s.clock, ?_, rfl, .completed hopen rfl⟩
        exact mem_mapWhere.mpr ⟨row, hrow, by simp⟩
      · exact ⟨row, mem_mapWhere.mpr ⟨row, hrow, by simp [hid]⟩, rfl,
          .same (by simp [Note.writes, Ne.symm hid])⟩
  | @fail s' rounds other message worker deliveries idle =>
      obtain ⟨hother, hopen⟩ := h.held other (by rw [worker]; rfl)
      rw [deliveries]
      by_cases hid : row.id = other.id
      · obtain rfl := h.eq_of_id hother hrow hid
        refine ⟨row.failed maxAttempts s.clock message, ?_, rfl, .failed hopen rfl⟩
        exact mem_mapWhere.mpr ⟨row, hrow, by simp⟩
      · exact ⟨row, mem_mapWhere.mpr ⟨row, hrow, by simp [hid]⟩, rfl,
          .same (by simp [Note.writes, Ne.symm hid])⟩
  | @retry id mem =>
      obtain ⟨dead, hdead, rfl, hstatus⟩ := mem
      by_cases hid : row.id = dead.id
      · obtain rfl := h.eq_of_id hdead hrow hid
        refine ⟨row.retried s.clock, ?_, rfl, .retried hstatus rfl⟩
        exact mem_mapWhere.mpr ⟨row, hrow, by simp [hstatus]⟩
      · exact ⟨row, mem_mapWhere.mpr ⟨row, hrow, by simp [hid]⟩, rfl,
          .same (by simp [Note.writes, Ne.symm hid])⟩

end Acts

/-- The failures of a row in a row, after one more note. -/
def Note.counts (id : String) (failures : Int) : Note → Int
  | .failed other => if other = id then failures + 1 else failures
  | .queued other | .retried other => if other = id then 0 else failures
  | .sent .. | .completed _ => failures

/-- How often a row has failed since it was queued, or sent again by an administrator. -/
def failures (id : String) (notes : List Note) : Int :=
  notes.foldl (Note.counts id) 0

/-- A request for the row. -/
def Note.sends (id : String) : Note → Bool
  | .sent row _ => row.id = id
  | _ => false

/-- How often a row was sent. -/
def sendings (id : String) (notes : List Note) : Nat :=
  notes.countP (Note.sends id)

/-- The end of an attempt of the row. -/
def Note.ends (id : String) : Note → Bool
  | .completed other | .failed other => other = id
  | _ => false

/-- The attempts of the row that were sent and of which is not recorded yet how they went. -/
def Worker.underway (id : String) : Worker → Nat
  | .recording _ row _ => if row.id = id then 1 else 0
  | _ => 0

/-- How often a row may still be sent. -/
def Webhooks.left (maxAttempts : Int) (s : Webhooks) (row : WebhookDelivery) : Int :=
  if row.open then maxAttempts - row.attempts - s.worker.underway row.id else 0

section Counts

variable {svc : Service} {maxAttempts : Int} {s s' : Webhooks} {notes seen : List Note}
  {row row' : WebhookDelivery} {id : String}

theorem failures_append (id : String) (notes more : List Note) :
    failures id (notes ++ more) = more.foldl (Note.counts id) (failures id notes) :=
  List.foldl_append

theorem counts_of_writes {note : Note} (h : note.writes ≠ some id) (n : Int) :
    note.counts id n = n := by
  cases note with
  | sent | completed => rfl
  | queued other | failed other | retried other =>
      have hne : other ≠ id := fun heq => h (congrArg some heq)
      exact if_neg hne

theorem foldl_counts_of_writes (h : ∀ note ∈ notes, note.writes ≠ some id)
    (n : Int) : notes.foldl (Note.counts id) n = n := by
  induction notes generalizing n with
  | nil => rfl
  | cons note rest ih =>
      obtain ⟨hnote, hrest⟩ := List.forall_mem_cons.mp h
      rw [List.foldl_cons, counts_of_writes hnote, ih hrest]

/-- The attempts of a row are its failures. -/
theorem RowStep.attempts {now : Instant}
    (hstep : RowStep maxAttempts now row notes row') (h : row.attempts = failures row.id seen) :
    row'.attempts = failures row.id (seen ++ notes) := by
  rw [failures_append, ← h]
  cases hstep with
  | same writes => exact (foldl_counts_of_writes writes _).symm
  | completed isOpen noted =>
      rw [noted]
      rfl
  | failed isOpen noted =>
      rw [noted]
      exact (if_pos rfl).symm
  | retried dead noted =>
      rw [noted]
      exact (if_pos rfl).symm

@[simp] theorem underway_sending (id : String) (rounds : Nat) (row : WebhookDelivery) :
    (Worker.sending rounds row).underway id = 0 := rfl

@[simp] theorem underway_recording (id : String) (rounds : Nat) (row : WebhookDelivery)
    (err : Option String) :
    (Worker.recording rounds row err).underway id = if row.id = id then 1 else 0 := rfl

theorem underway_le (worker : Worker) (id : String) : worker.underway id ≤ 1 := by
  cases worker with
  | recording rounds row err =>
      rw [underway_recording]
      split <;> omega
  | _ => exact Nat.zero_le 1

theorem underway_of_free {worker : Worker} (h : worker.held = none) (id : String) :
    worker.underway id = 0 := by
  cases worker with
  | recording => cases h
  | _ => rfl

/-- **Every attempt that is sent ends, or is under way.** -/
theorem Webhooks.Happens.balance (hs : Webhooks.Happens svc maxAttempts s s' notes) (id : String) :
    sendings id notes + s.worker.underway id =
      s'.worker.underway id + notes.countP (Note.ends id) := by
  unfold sendings
  cases hs with
  | rest deliveries clock worker =>
      rcases worker with hsame | ⟨hfree, hfree'⟩
      · simp [hsame]
      · simp [underway_of_free hfree, underway_of_free hfree']
  | load mem isOpen due free => simp [underway_of_free free]
  | @send rounds row err worker =>
      by_cases hid : row.id = id <;>
        simp [worker, Note.sends, Note.ends, hid]
  | queue deliveries fresh eventID status attempts free worker =>
      simp [underway_of_free free, underway_of_free worker, Note.sends, Note.ends]
  | @complete s' rounds row worker deliveries idle =>
      by_cases hid : row.id = id <;>
        simp [worker, underway_of_free idle, Note.sends, Note.ends, hid]
  | @fail s' rounds row message worker deliveries idle =>
      by_cases hid : row.id = id <;>
        simp [worker, underway_of_free idle, Note.sends, Note.ends, hid]
  | retry mem => simp [Note.sends, Note.ends]

theorem ends_of_writes (h : ∀ note ∈ notes, note.writes ≠ some row.id) :
    notes.countP (Note.ends row.id) = 0 := by
  rw [List.countP_eq_zero]
  intro note hnote hends
  cases note with
  | sent | queued | retried => cases hends
  | completed id | failed id =>
      exact h _ hnote (congrArg some (by simpa [Note.ends] using hends))

/-- Only rows that wait are sent. -/
theorem Webhooks.Happens.sendings_of_not_open (h : s.Orderly maxAttempts)
    (hs : Webhooks.Happens svc maxAttempts s s' notes) (hrow : row ∈ s.deliveries)
    (hclosed : row.open = false) : sendings row.id notes = 0 := by
  unfold sendings
  rw [List.countP_eq_zero]
  intro note hnote hsends
  cases note with
  | sent other time =>
      obtain ⟨hother, hopen, -⟩ := hs.sent h hnote
      rw [h.eq_of_id hrow hother (by simpa [Note.sends] using hsends), hclosed] at hopen
      cases hopen
  | _ => cases hsends

/-- **A send takes one of the attempts that are left**, and nothing else does but a success. -/
theorem Webhooks.Happens.left (h : s.Orderly maxAttempts)
    (hs : Webhooks.Happens svc maxAttempts s s' notes) (hrow : row ∈ s.deliveries)
    (hretried : .retried row.id ∉ notes) :
    ∃ row' ∈ s'.deliveries, row'.id = row.id ∧
      sendings row.id notes + s'.left maxAttempts row' ≤ s.left maxAttempts row ∧
      (row'.status ≠ .delivered → row.status ≠ .delivered ∧
        sendings row.id notes + s'.left maxAttempts row' = s.left maxAttempts row) := by
  obtain ⟨row', hrow', hid, hstep⟩ := hs.rowStep h hrow
  refine ⟨row', hrow', hid, ?_⟩
  have hbalance := hs.balance row.id
  have hone := underway_le s.worker row.id
  cases hstep with
  | same writes =>
      have hleft : sendings row.id notes + s'.left maxAttempts row = s.left maxAttempts row := by
        rw [ends_of_writes writes] at hbalance
        unfold Webhooks.left
        cases hopen : row.open with
        | true =>
            simp only [if_true]
            omega
        | false =>
            have hnone := hs.sendings_of_not_open h hrow hopen
            simp [hnone]
      exact ⟨hleft.le, fun hlive => ⟨hlive, hleft⟩⟩
  | completed isOpen noted =>
      have hlive := (h.counted row hrow).live (row.not_dead_of_open isOpen)
      refine ⟨?_, fun hlive => absurd rfl hlive⟩
      have hnone : sendings row.id notes = 0 := by
        rw [noted]
        rfl
      have hends : notes.countP (Note.ends row.id) = 1 := by simp [noted, Note.ends]
      have hgone : s'.left maxAttempts (row.completed s.clock) = 0 := rfl
      rw [hnone, hends] at hbalance
      rw [hnone, hgone, Webhooks.left, if_pos isOpen]
      omega
  | @failed message isOpen noted =>
      have hlive := (h.counted row hrow).live (row.not_dead_of_open isOpen)
      have hnone : sendings row.id notes = 0 := by
        rw [noted]
        rfl
      have hends : notes.countP (Note.ends row.id) = 1 := by simp [noted, Note.ends]
      rw [hnone, hends] at hbalance
      have hleft : sendings row.id notes +
          s'.left maxAttempts (row.failed maxAttempts s.clock message) =
            s.left maxAttempts row := by
        rw [hnone]
        unfold Webhooks.left
        rw [if_pos isOpen]
        by_cases hlast : maxAttempts ≤ row.attempts + 1
        · have hclosed : (row.failed maxAttempts s.clock message).open = false := by
            simp [WebhookDelivery.failed, WebhookDelivery.open, hlast]
          rw [hclosed, if_neg Bool.false_ne_true]
          omega
        · have hopen : (row.failed maxAttempts s.clock message).open = true := by
            simp [WebhookDelivery.failed, WebhookDelivery.open, hlast]
          have hattempts :
            (row.failed maxAttempts s.clock message).attempts = row.attempts + 1 := rfl
          rw [if_pos hopen, hid, hattempts]
          omega
      refine ⟨hleft.le, fun _ => ⟨?_, hleft⟩⟩
      intro hdelivered
      simp [WebhookDelivery.open, hdelivered] at isOpen
  | retried dead noted => exact absurd (by simp [noted]) hretried

/-- A row is one that was there, or has just been queued. -/
theorem Webhooks.Happens.old_or_queued (hs : Webhooks.Happens svc maxAttempts s s' notes)
    (hrow' : row' ∈ s'.deliveries) :
    (∃ row ∈ s.deliveries, row.id = row'.id) ∨
      notes = [.queued row'.id] ∧ row'.attempts = 0 := by
  have written {p : WebhookDelivery → Bool} {f : WebhookDelivery → WebhookDelivery}
      (hmem : row' ∈ mapWhere p f s.deliveries) (hid : ∀ row, (f row).id = row.id) :
      ∃ row ∈ s.deliveries, row.id = row'.id := by
    obtain ⟨row, hrow, rfl⟩ := mem_mapWhere.mp hmem
    refine ⟨row, hrow, ?_⟩
    split
    · exact (hid row).symm
    · rfl
  cases hs with
  | rest deliveries clock worker => exact Or.inl ⟨row', deliveries ▸ hrow', rfl⟩
  | load mem isOpen due free => exact Or.inl ⟨row', hrow', rfl⟩
  | send worker => exact Or.inl ⟨row', hrow', rfl⟩
  | queue deliveries id eventID status attempts free worker =>
      rw [deliveries] at hrow'
      rcases List.mem_append.mp hrow' with hold | hnew
      · exact Or.inl ⟨row', hold, rfl⟩
      · rw [List.mem_singleton.mp hnew]
        exact Or.inr ⟨rfl, attempts⟩
  | complete worker deliveries idle =>
      rw [deliveries] at hrow'
      exact Or.inl (written hrow' fun _ => rfl)
  | fail worker deliveries idle =>
      rw [deliveries] at hrow'
      exact Or.inl (written hrow' fun _ => rfl)
  | retry mem => exact Or.inl (written hrow' fun _ => rfl)

/-- What the rows count is what there was to be seen. -/
theorem Webhooks.Happens.attempts (hsvc : svc.ComparesInstants) (hmax : 1 ≤ maxAttempts)
    (h : s.Orderly maxAttempts) (hs : Webhooks.Happens svc maxAttempts s s' notes)
    (hseen : ∀ row ∈ s.deliveries, row.attempts = failures row.id seen) :
    ∀ row ∈ s'.deliveries, row.attempts = failures row.id (seen ++ notes) := by
  intro row' hrow'
  rcases hs.old_or_queued hrow' with ⟨row, hrow, hid⟩ | ⟨rfl, hzero⟩
  · obtain ⟨written, hwritten, hsame, hstep⟩ := hs.rowStep h hrow
    have hattempts := hstep.attempts (hseen row hrow)
    rw [(hs.orderly hsvc hmax h).eq_of_id hrow' hwritten (hsame.trans hid)] at hattempts
    rw [hattempts, hid]
  · rw [failures_append, hzero]
    exact (if_pos rfl).symm

end Counts

section Runs

variable {svc : Service} {maxAttempts : Int} {s : Webhooks} {row : WebhookDelivery}
  {acts : List WebhookAct} {id : String}

theorem run_cons_fst (act : WebhookAct) (rest : List WebhookAct) :
    (Webhooks.run svc maxAttempts (act :: rest) s).1 =
      (Webhooks.run svc maxAttempts rest (act.perform svc maxAttempts s).1).1 := rfl

theorem run_cons_snd (act : WebhookAct) (rest : List WebhookAct) :
    (Webhooks.run svc maxAttempts (act :: rest) s).2 = (act.perform svc maxAttempts s).2 ++
      (Webhooks.run svc maxAttempts rest (act.perform svc maxAttempts s).1).2 := rfl

theorem orderly_run (hsvc : svc.ComparesInstants) (hmax : 1 ≤ maxAttempts)
    (h : s.Orderly maxAttempts) (acts : List WebhookAct) :
    (Webhooks.run svc maxAttempts acts s).1.Orderly maxAttempts := by
  induction acts generalizing s with
  | nil => exact h
  | cons act rest ih => exact ih ((happens_perform h act).orderly hsvc hmax h)

theorem attempts_run (hsvc : svc.ComparesInstants) (hmax : 1 ≤ maxAttempts)
    (h : s.Orderly maxAttempts) {seen : List Note}
    (hseen : ∀ row ∈ s.deliveries, row.attempts = failures row.id seen)
    (acts : List WebhookAct) :
    ∀ row ∈ (Webhooks.run svc maxAttempts acts s).1.deliveries,
      row.attempts = failures row.id (seen ++ (Webhooks.run svc maxAttempts acts s).2) := by
  induction acts generalizing s seen with
  | nil =>
      intro row hrow
      rw [show (Webhooks.run svc maxAttempts [] s).2 = [] from rfl, List.append_nil]
      exact hseen row hrow
  | cons act rest ih =>
      have hs : Webhooks.Happens svc maxAttempts s _ _ := happens_perform h act
      have hrest := ih (hs.orderly hsvc hmax h) (hs.attempts hsvc hmax h hseen)
      simpa only [Webhooks.run, List.append_assoc] using hrest

/-- Nothing is sent before it is due. -/
theorem due_run (hsvc : svc.ComparesInstants) (hmax : 1 ≤ maxAttempts)
    (h : s.Orderly maxAttempts) (acts : List WebhookAct) {time : Instant}
    (hsent : .sent row time ∈ (Webhooks.run svc maxAttempts acts s).2) :
    row.nextAttempt ≤ time := by
  induction acts generalizing s with
  | nil => cases hsent
  | cons act rest ih =>
      have hs : Webhooks.Happens svc maxAttempts s _ _ := happens_perform h act
      rcases List.mem_append.mp hsent with hnow | hlater
      · exact (hs.sent h hnow).2.2
      · exact ih (hs.orderly hsvc hmax h) hlater

/-- What was delivered is not sent again, whoever retries what. -/
theorem sendings_of_delivered (hsvc : svc.ComparesInstants) (hmax : 1 ≤ maxAttempts)
    (h : s.Orderly maxAttempts) (hrow : row ∈ s.deliveries) (hdelivered : row.status = .delivered)
    (acts : List WebhookAct) : sendings row.id (Webhooks.run svc maxAttempts acts s).2 = 0 := by
  have hclosed : row.open = false := by simp [WebhookDelivery.open, hdelivered]
  induction acts generalizing s with
  | nil => rfl
  | cons act rest ih =>
      have hs : Webhooks.Happens svc maxAttempts s _ _ := happens_perform h act
      obtain ⟨row', hrow', -, hstep⟩ := hs.rowStep h hrow
      have hsame : row' = row := by
        cases hstep with
        | same => rfl
        | completed isOpen | failed isOpen =>
            rw [hclosed] at isOpen
            cases isOpen
        | retried dead =>
            rw [hdelivered] at dead
            cases dead
      have hnow := hs.sendings_of_not_open h hrow hclosed
      have hlater := ih (hs.orderly hsvc hmax h) (hsame ▸ hrow')
      unfold sendings at hnow hlater ⊢
      rw [run_cons_snd, List.countP_append, hnow, hlater]

/-- **The sends of a row that nobody retries** are as many as the attempts that are used up, unless
it is delivered. -/
theorem sendings_run (hsvc : svc.ComparesInstants) (hmax : 1 ≤ maxAttempts)
    (h : s.Orderly maxAttempts) (hrow : row ∈ s.deliveries)
    (hretried : .retried row.id ∉ (Webhooks.run svc maxAttempts acts s).2) :
    ∃ row' ∈ (Webhooks.run svc maxAttempts acts s).1.deliveries, row'.id = row.id ∧
      sendings row.id (Webhooks.run svc maxAttempts acts s).2 +
          (Webhooks.run svc maxAttempts acts s).1.left maxAttempts row' ≤
        s.left maxAttempts row ∧
      (row'.status ≠ .delivered → row.status ≠ .delivered ∧
        sendings row.id (Webhooks.run svc maxAttempts acts s).2 +
            (Webhooks.run svc maxAttempts acts s).1.left maxAttempts row' =
          s.left maxAttempts row) := by
  induction acts generalizing s row with
  | nil => exact ⟨row, hrow, rfl, by simp [Webhooks.run, sendings], by simp [Webhooks.run, sendings]⟩
  | cons act rest ih =>
      have hs : Webhooks.Happens svc maxAttempts s _ _ := happens_perform h act
      rw [run_cons_snd, List.mem_append, not_or] at hretried
      obtain ⟨next, hnext, hid, hle, heq⟩ := hs.left h hrow hretried.1
      obtain ⟨row', hrow', hid', hle', heq'⟩ :=
        ih (hs.orderly hsvc hmax h) hnext (by rw [hid]; exact hretried.2)
      have hsum : sendings row.id (Webhooks.run svc maxAttempts (act :: rest) s).2 =
          sendings row.id (act.perform svc maxAttempts s).2 +
            sendings next.id (Webhooks.run svc maxAttempts rest (act.perform svc maxAttempts s).1).2 := by
        rw [hid]
        exact List.countP_append
      refine ⟨row', hrow', hid'.trans hid, ?_, ?_⟩
      · rw [hsum, run_cons_fst]
        omega
      · intro hlive
        obtain ⟨hmiddle, hrest⟩ := heq' hlive
        obtain ⟨hlive', hfirst⟩ := heq hmiddle
        refine ⟨hlive', ?_⟩
        rw [hsum, run_cons_fst]
        omega

/-- The row of a dead letter is not under way. -/
theorem underway_of_dead (h : s.Orderly maxAttempts) (hrow : row ∈ s.deliveries)
    (hdead : row.status = .deadLetter) : s.worker.underway row.id = 0 := by
  cases hworker : s.worker with
  | recording rounds other err =>
      rw [underway_recording]
      refine if_neg fun hid => ?_
      obtain ⟨hother, hopen⟩ := h.held other (by rw [hworker]; rfl)
      rw [h.eq_of_id hrow hother hid] at hopen
      exact row.not_dead_of_open hopen hdead
  | _ => rfl

theorem left_of_dead (hdead : row.status = .deadLetter) : s.left maxAttempts row = 0 := by
  refine if_neg fun hopen => ?_
  exact row.not_dead_of_open hopen hdead

theorem Webhooks.Orderly.left_nonneg (h : s.Orderly maxAttempts) (hrow : row ∈ s.deliveries) :
    0 ≤ s.left maxAttempts row := by
  unfold Webhooks.left
  split
  · rename_i hopen
    have hless := (h.counted row hrow).live (row.not_dead_of_open hopen)
    have hone := underway_le s.worker row.id
    omega
  · exact Int.le_refl 0

theorem orderly_start (maxAttempts : Int) (start : Instant) :
    ({ clock := start } : Webhooks).Orderly maxAttempts where
  ids := List.nodup_nil
  eventIDs := List.nodup_nil
  counted _ hrow := (nomatch hrow)
  held _ hrow := (nomatch hrow)
  due _ _ hsending := (nomatch hsending)

/-- A dead letter that an administrator retries is there to be sent again. -/
theorem perform_retry (svc : Service) (h : s.Orderly maxAttempts) (hrow : row ∈ s.deliveries)
    (hdead : row.status = .deadLetter) (hid : trimSpace id = row.id) :
    row.retried s.clock ∈ (WebhookAct.perform svc maxAttempts s (.retry id)).1.deliveries ∧
      (WebhookAct.perform svc maxAttempts s (.retry id)).1.worker = s.worker ∧
      (WebhookAct.perform svc maxAttempts s (.retry id)).2 = [.retried row.id] := by
  have hone : (s.deliveries.filter fun other =>
      decide (other.id = trimSpace id ∧ other.status = .deadLetter)).length = 1 := by
    refine length_filter_of_unique h.ids hrow (by simp [hid, hdead]) fun other hhit => ?_
    rw [← hid]
    exact (of_decide_eq_true hhit).1
  have hretry : s.retryWebhookDelivery id = .ok ({ s with
      deliveries := mapWhere (fun row => row.id = trimSpace id ∧ row.status = .deadLetter)
        (·.retried s.clock) s.deliveries }, [.retried (trimSpace id)]) := if_pos hone
  simp only [WebhookAct.perform, hretry]
  exact ⟨mem_mapWhere.mpr ⟨row, hrow, by simp [hid, hdead]⟩, rfl, by rw [hid]; rfl⟩

/-- A dead letter is not sent unless an administrator retries it. -/
theorem sendings_of_dead (hsvc : svc.ComparesInstants) (hmax : 1 ≤ maxAttempts)
    (h : s.Orderly maxAttempts) (hrow : row ∈ s.deliveries) (hdead : row.status = .deadLetter)
    (hretried : .retried row.id ∉ (Webhooks.run svc maxAttempts acts s).2) :
    sendings row.id (Webhooks.run svc maxAttempts acts s).2 = 0 := by
  obtain ⟨row', hrow', -, hle, -⟩ := sendings_run hsvc hmax h hrow hretried
  have hleft' := (orderly_run hsvc hmax h acts).left_nonneg hrow'
  rw [left_of_dead hdead] at hle
  omega

/-- **A retry grants the maximum of attempts**, and all of them are used up if the row becomes a
dead letter again. -/
theorem sendings_retried (hsvc : svc.ComparesInstants) (hmax : 1 ≤ maxAttempts)
    (h : s.Orderly maxAttempts) (hrow : row ∈ s.deliveries) (hdead : row.status = .deadLetter)
    (hid : trimSpace id = row.id) {more : List WebhookAct}
    (hcount : (Webhooks.run svc maxAttempts (.retry id :: more) s).2.count (.retried row.id) = 1) :
    sendings row.id (Webhooks.run svc maxAttempts (.retry id :: more) s).2 ≤ maxAttempts ∧
      ∀ row' ∈ (Webhooks.run svc maxAttempts (.retry id :: more) s).1.deliveries,
        row'.id = row.id → row'.status = .deadLetter →
          sendings row.id (Webhooks.run svc maxAttempts (.retry id :: more) s).2 =
            maxAttempts := by
  have hs : Webhooks.Happens svc maxAttempts s _ _ := happens_perform h (.retry id)
  have hafter := hs.orderly hsvc hmax h
  obtain ⟨hretry, hworker, hnote⟩ := perform_retry svc h hrow hdead hid
  have hidle := underway_of_dead h hrow hdead
  rw [run_cons_snd, hnote, List.singleton_append] at hcount ⊢
  rw [run_cons_fst]
  rw [List.count_cons_self] at hcount
  generalize (WebhookAct.perform svc maxAttempts s (.retry id)).1 = retried at *
  have hleft : retried.left maxAttempts (row.retried s.clock) = maxAttempts := by
    have hopen : (row.retried s.clock).open = true := rfl
    have hattempts : (row.retried s.clock).attempts = 0 := rfl
    have hsame : (row.retried s.clock).id = row.id := rfl
    rw [Webhooks.left, if_pos hopen, hattempts, hsame, hworker, hidle]
    omega
  have hmore : .retried row.id ∉ (Webhooks.run svc maxAttempts more retried).2 :=
    List.count_eq_zero.mp (by omega)
  obtain ⟨row', hrow', hid', hle, heq⟩ := sendings_run hsvc hmax hafter hretry hmore
  have horderly' := orderly_run hsvc hmax hafter more
  have hleft' := horderly'.left_nonneg hrow'
  have hsendings : sendings row.id
      (.retried row.id :: (Webhooks.run svc maxAttempts more retried).2) =
        sendings row.id (Webhooks.run svc maxAttempts more retried).2 :=
    List.countP_cons_of_neg Bool.false_ne_true
  rw [hleft] at hle heq
  rw [hsendings]
  refine ⟨Int.le_trans (Int.le_add_of_nonneg_right hleft') hle, ?_⟩
  intro other hother hsame hdead'
  obtain rfl := horderly'.eq_of_id hrow' hother (hsame.trans hid'.symm)
  have hexact := (heq (by rw [hdead']; decide)).2
  rw [left_of_dead hdead', Int.add_zero] at hexact
  exact hexact

end Runs

/-- **Webhook delivery is bounded and never repeats a success.** Whatever the worker is answered,
and whenever events come in and administrators retry:

* an event has one row;
* the attempts of a row are its failures since it was queued or retried, never more than the
  maximum, and with the maximum it is a dead letter;
* what was delivered is never sent again, and a dead letter not before an administrator retries it;
* a retry makes it start again from no attempts: it is sent at most the maximum of times, and
  exactly so often if it becomes a dead letter again;
* no row is sent before it is due. -/
theorem webhook_deliveries_are_bounded {svc : Service} {maxAttempts : Int}
    (hsvc : svc.ComparesInstants) (hmax : 1 ≤ maxAttempts) (start : Instant)
    (acts : List WebhookAct) {s : Webhooks} {notes : List Note}
    (hrun : Webhooks.run svc maxAttempts acts { clock := start } = (s, notes)) :
    (s.deliveries.map WebhookDelivery.eventID).Nodup ∧
      (∀ row ∈ s.deliveries, row.attempts = failures row.id notes ∧
        row.attempts ≤ maxAttempts ∧
        (failures row.id notes = maxAttempts ↔ row.status = .deadLetter)) ∧
      (∀ row ∈ s.deliveries, row.status = .delivered → ∀ more,
        sendings row.id (Webhooks.run svc maxAttempts more s).2 = 0) ∧
      (∀ row ∈ s.deliveries, row.status = .deadLetter → ∀ more,
        .retried row.id ∉ (Webhooks.run svc maxAttempts more s).2 →
          sendings row.id (Webhooks.run svc maxAttempts more s).2 = 0) ∧
      (∀ row ∈ s.deliveries, row.status = .deadLetter → ∀ id, trimSpace id = row.id →
        row.retried s.clock ∈ (Webhooks.run svc maxAttempts [.retry id] s).1.deliveries ∧
        ∀ more, (Webhooks.run svc maxAttempts (.retry id :: more) s).2.count (.retried row.id) = 1 →
          sendings row.id (Webhooks.run svc maxAttempts (.retry id :: more) s).2 ≤ maxAttempts ∧
          ∀ row' ∈ (Webhooks.run svc maxAttempts (.retry id :: more) s).1.deliveries,
            row'.id = row.id → row'.status = .deadLetter →
              sendings row.id (Webhooks.run svc maxAttempts (.retry id :: more) s).2 =
                maxAttempts) ∧
      ∀ row time, .sent row time ∈ notes → row.nextAttempt ≤ time := by
  have hstart := orderly_start maxAttempts start
  have hnone : ∀ row ∈ ({ clock := start } : Webhooks).deliveries,
      row.attempts = failures row.id [] := fun _ hrow => (nomatch hrow)
  have horderly := orderly_run hsvc hmax hstart acts
  have hattempts := attempts_run hsvc hmax hstart hnone acts
  have hdue (row : WebhookDelivery) (time : Instant) :=
    @due_run svc maxAttempts _ row hsvc hmax hstart acts time
  rw [hrun] at horderly hattempts hdue
  refine ⟨horderly.eventIDs, ?_, ?_, ?_, ?_, hdue⟩
  · intro row hrow
    have hcounted := horderly.counted row hrow
    have hfailures := hattempts row hrow
    rw [List.nil_append] at hfailures
    rw [← hfailures]
    by_cases hdead : row.status = .deadLetter
    · have hmost := hcounted.dead hdead
      exact ⟨rfl, hmost.le, iff_of_true hmost hdead⟩
    · have hless := hcounted.live hdead
      exact ⟨rfl, hless.le, iff_of_false hless.ne hdead⟩
  · exact fun row hrow hdelivered => sendings_of_delivered hsvc hmax horderly hrow hdelivered
  · exact fun row hrow hdead more hretried =>
      sendings_of_dead hsvc hmax horderly hrow hdead hretried
  · intro row hrow hdead id hid
    exact ⟨(perform_retry svc horderly hrow hdead hid).1,
      fun more => sendings_retried hsvc hmax horderly hrow hdead hid⟩

/-- An event that is sent twice without success, with a minute in between. -/
def deadLetterActs : List WebhookAct :=
  let event : Event :=
    { id := "0001", taskID := "0100", kind := "task.created", actor := "ann", createdAt := 0 }
  let work : WebhookAct := .work "0200" (some "webhook returned HTTP 500")
  [.event event, work, work, work, work, work, work, .wait (60 * 1000000000), work, work, work]

/-- With two attempts, it is a dead letter after two failures. -/
theorem dead_letter_after_two_failures :
    ∃ s notes, Webhooks.run .ascii 2 deadLetterActs { clock := 0 } = (s, notes) ∧
      s.deliveries.map WebhookDelivery.status = [.deadLetter] ∧
      ∀ row ∈ s.deliveries, row.attempts = 2 ∧ failures row.id notes = 2 := by
  have hsvc : Service.ascii.ComparesInstants := fun _ _ => rfl
  have hmax : (1 : Int) ≤ 2 := by decide
  have hstatus : (Webhooks.run .ascii 2 deadLetterActs { clock := 0 }).1.deliveries.map
      WebhookDelivery.status = [.deadLetter] := by decide +kernel
  have hdead : ∀ row ∈ (Webhooks.run .ascii 2 deadLetterActs { clock := 0 }).1.deliveries,
      row.status = .deadLetter := by decide +kernel
  rcases hrun : Webhooks.run .ascii 2 deadLetterActs { clock := 0 } with ⟨s, notes⟩
  rw [hrun] at hstatus hdead
  have hbounded := webhook_deliveries_are_bounded hsvc hmax 0 deadLetterActs hrun
  refine ⟨s, notes, rfl, hstatus, ?_⟩
  intro row hrow
  obtain ⟨hattempts, -, hiff⟩ := hbounded.2.1 row hrow
  have hfailures := hiff.mpr (hdead row hrow)
  exact ⟨hattempts.trans hfailures, hfailures⟩

end Taskboard
