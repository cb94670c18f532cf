import Taskboard.Footprint
import Taskboard.Lib.Interleaving
import Taskboard.Reads

/-!
# Idempotency keys

The memory of a key is the event its first use committed: the event's payload names the
operation, the key and the hash of the request. A later call of the same actor looks that
event up before it does anything (`replayIdempotency`).

* `mem_of_findReplay_some` says what the lookup finds, without the order in which it goes through
  the events.
* `Event.Under` bounds the events an operation writes: they carry no key at all, or one of
  that very operation.
-/

namespace Taskboard

variable {db db' : Db} {event : Event} {principal : Principal} {locked : Bool} {svc : Service}
  {actor key operation : String} {α : Type}

/-- The characters a key may have. -/
def safeKeyChar (c : Char) : Bool :=
  ('a' ≤ c && c ≤ 'z') || ('A' ≤ c && c ≤ 'Z') || ('0' ≤ c && c ≤ '9') ||
    c = '.' || c = '_' || c = ':' || c = '-'

/-- `validateIdempotencyKey`. -/
def validateIdempotencyKey (key : String) : Except ServiceError Unit :=
  refuse
    (key ≠ "" ∧ (byteLen key < 8 ∨ 128 < byteLen key ∨ key.toList.all safeKeyChar = false))
    (ErrValidation "idempotency_key must contain 8-128 safe characters")

/-- `idempotencyPayload`. -/
def idempotencyPayload (operation key : String) (hash : Option Digest) : Payload :=
  if key = "" then []
  else
    [("idempotency_operation", .text operation), ("idempotency_key", .text key),
      ("idempotency_hash", .digest hash)]

/-- The event was written by `actor` under this key of this operation. -/
def Event.keyed (event : Event) (actor operation key : String) : Bool :=
  event.actor = actor &&
    event.payload.lookup "idempotency_operation" = some (.text operation) &&
    event.payload.lookup "idempotency_key" = some (.text key)

/-- The event keeps the hash of this request. -/
def Event.hashed (event : Event) (hash : Digest) : Bool :=
  event.payload.lookup "idempotency_hash" = some (.digest (some hash))

/-- The latest event under the key. -/
def Service.keyedEvent (svc : Service) (db : Db) (actor operation key : String) :
    Option Event :=
  (sortBy (fun a b => svc.before b.createdAt a.createdAt) db.events).find? fun event =>
    event.keyed actor operation key

/-- The search of `replayIdempotency`: the latest event under the key decides. -/
def Service.findReplay (svc : Service) (db : Db) (actor operation key : String)
    (hash : Digest) : Except ServiceError (Option Event) :=
  match svc.keyedEvent db actor operation key with
  | none => .ok none
  | some event =>
      if event.hashed hash then .ok (some event)
      else .error (.conflict "idempotency key was already used with a different request")

/-- `replayIdempotency`. -/
def replayIdempotency (svc : Service) (actor : String) (keyRequired : Bool)
    (operation key : String) (hash : Digest) : CallM (Option Event) := do
  if key = "" then
    refuse keyRequired (ErrValidation "idempotency_key is required by agent policy")
    pure none
  else
    validateIdempotencyKey key
    Call.lookOr fun db => svc.findReplay db actor operation key hash

/-- Whether the caller's policy asks for a key on every call. -/
def Identity.keyRequired (principal : Identity) : Bool :=
  principal.agent && principal.policy.requireIdempotency

/-- The text under a name of an event's payload, empty where there is none. -/
def Payload.text (payload : Payload) (name : String) : String :=
  match payload.lookup name with
  | some (.text value) => value
  | _ => ""

/-- How every keyed operation uses its key, under the mutex where `locked`: an earlier
event of `actor` under the key is answered, otherwise the operation goes on. -/
def keyedAs {α : Type} (svc : Service) (locked : Bool) (actor : String) (keyRequired : Bool)
    (operation key : String) (hash : Digest) (answer : Event → CallM α)
    (proceed : CallM α) : CallM α :=
  let body : CallM α := do
    let replay ← replayIdempotency svc actor keyRequired operation key hash
    match replay with
    | some event => answer event
    | none => proceed
  if locked then body.holding .idempotency else body

/-- `keyedAs` of the caller. -/
def keyed {α : Type} (svc : Service) (locked : Bool) (principal : Principal)
    (operation key : String) (hash : Digest) (answer : Event → CallM α)
    (proceed : CallM α) : CallM α :=
  keyedAs svc locked principal.id principal.keyRequired operation key hash answer proceed

/-- The event carries no key. -/
def Event.Unkeyed (event : Event) : Prop :=
  event.payload.lookup "idempotency_operation" = none

/-- The event was written by `actor` under this key of this operation, with this hash. -/
structure Event.KeyedBy (actor operation key : String) (hash : Option Digest)
    (event : Event) : Prop where
  actor : event.actor = actor
  operation : event.payload.lookup "idempotency_operation" = some (.text operation)
  key : event.payload.lookup "idempotency_key" = some (.text key)
  hash : event.payload.lookup "idempotency_hash" = some (.digest hash)

/-- The event carries no key, or one of this operation. -/
def Event.Under (operation : String) (event : Event) : Prop :=
  event.Unkeyed ∨ event.payload.lookup "idempotency_operation" = some (.text operation)

/-- A payload without any of the entries of a key. -/
def Payload.Keyless (payload : Payload) : Prop :=
  ∀ entry ∈ payload, entry.1 ≠ "idempotency_operation" ∧ entry.1 ≠ "idempotency_key" ∧
    entry.1 ≠ "idempotency_hash"

section Payload

variable {hash : Option Digest} {first base : Payload}

theorem Payload.Keyless.lookup (h : first.Keyless) :
    first.lookup "idempotency_operation" = none ∧ first.lookup "idempotency_key" = none ∧
      first.lookup "idempotency_hash" = none := by
  simp only [List.lookup_eq_none_iff, bne_iff_ne, ne_eq]
  exact ⟨fun entry he => (h entry he).1.symm, fun entry he => (h entry he).2.1.symm,
    fun entry he => (h entry he).2.2.symm⟩

theorem Payload.Keyless.append (h : first.Keyless) (h' : base.Keyless) :
    Payload.Keyless (first ++ base) := by
  intro entry he
  rcases List.mem_append.mp he with he | he
  · exact h entry he
  · exact h' entry he

/-- A payload under a key, with entries before and behind that are none of a key's. -/
theorem Event.keyedBy_of_payload (hkey : key ≠ "") (hfirst : first.Keyless)
    (hactor : event.actor = actor)
    (h : event.payload = first ++ (idempotencyPayload operation key hash ++ base)) :
    event.KeyedBy actor operation key hash := by
  obtain ⟨hop, hk, hh⟩ := hfirst.lookup
  constructor
  · exact hactor
  all_goals simp [h, idempotencyPayload, hkey, List.lookup_append, List.lookup_cons, hop, hk, hh]

/-- An event with the payload of a key is under its operation. -/
theorem Event.under_of_payload (hfirst : first.Keyless) (hbase : base.Keyless)
    (h : event.payload = first ++ (idempotencyPayload operation key hash ++ base)) :
    event.Under operation := by
  by_cases hkey : key = ""
  · left
    simp [Event.Unkeyed, h, idempotencyPayload, hkey, List.lookup_append, hfirst.lookup.1,
      hbase.lookup.1]
  · exact Or.inr (Event.keyedBy_of_payload hkey hfirst rfl h).operation

/-- An event whose payload is merged with that of a key is under its operation. -/
theorem Event.under_merge (hbase : base.Keyless)
    (h : event.payload = mergePayload base (idempotencyPayload operation key hash)) :
    event.Under operation :=
  Event.under_of_payload (List.forall_mem_nil _) hbase h

theorem Event.keyedBy_merge (hkey : key ≠ "") (hactor : event.actor = actor)
    (h : event.payload = mergePayload base (idempotencyPayload operation key hash)) :
    event.KeyedBy actor operation key hash :=
  Event.keyedBy_of_payload hkey (List.forall_mem_nil _) hactor h

/-- Merging the payload of a key hides no other entry. -/
theorem Payload.text_merge {name : String} (hname : name ≠ "idempotency_operation" ∧
      name ≠ "idempotency_key" ∧ name ≠ "idempotency_hash") :
    Payload.text (mergePayload base (idempotencyPayload operation key hash)) name =
      Payload.text base name := by
  have hnone : (idempotencyPayload operation key hash).lookup name = none := by
    unfold idempotencyPayload
    split
    · rfl
    · simp [List.lookup_eq_none_iff, hname]
  simp [Payload.text, mergePayload, List.lookup_append, hnone]

end Payload

section Keyed

variable {E : Db → Db → Prop} {keyRequired : Bool} {hash : Digest} {answer : Event → CallM α}
  {proceed : CallM α}

theorem quiet_replayIdempotency :
    (replayIdempotency svc actor keyRequired operation key hash).Quiet :=
  Call.quiet_ite
    (Call.quiet_lift_bind fun _ => Call.quiet_pure _)
    (Call.quiet_lift_bind fun _ => Call.quiet_lookOr _)

/-- What the answers and the operation itself may do bounds the keyed operation. -/
theorem each_keyedAs (hanswer : ∀ event, (answer event).Each E) (hproceed : proceed.Each E) :
    (keyedAs svc locked actor keyRequired operation key hash answer proceed).Each E := by
  have hbody : (do
      let replay ← replayIdempotency svc actor keyRequired operation key hash
      match replay with
      | some event => answer event
      | none => proceed : CallM α).Each E := by
    refine Call.each_bind quiet_replayIdempotency.each fun replay => ?_
    cases replay with
    | none => exact hproceed
    | some event => exact hanswer event
  exact Call.each_ite (Call.each_holding hbody) hbody

theorem makes_keyed {t : TxM Unit} (hanswer : ∀ event, (answer event).Quiet)
    (h : (keyed svc locked principal operation key hash answer proceed).Makes t) :
    proceed.Makes t := by
  have hbody : (do
      let replay ← replayIdempotency svc principal.id principal.keyRequired operation key hash
      match replay with
      | some event => answer event
      | none => proceed : CallM α).Makes t := by
    unfold keyed keyedAs at h
    split at h
    · exact Call.makes_holding h
    · exact h
  obtain ⟨replay, -, h⟩ := Call.makes_quiet_bind quiet_replayIdempotency Call.returns_true hbody
  cases replay with
  | none => exact h
  | some event => exact absurd h (hanswer event).not_makes

theorem atMost_keyedAs (hanswer : ∀ event, (answer event).Quiet) (hproceed : proceed.AtMost E) :
    (keyedAs svc locked actor keyRequired operation key hash answer proceed).AtMost E := by
  have hbody : (do
      let replay ← replayIdempotency svc actor keyRequired operation key hash
      match replay with
      | some event => answer event
      | none => proceed : CallM α).AtMost E := by
    refine Call.atMost_bind_quiet quiet_replayIdempotency fun replay => ?_
    cases replay with
    | none => exact hproceed
    | some event => exact Call.atMost_of_quiet (hanswer event)
  exact Call.atMost_ite (Call.atMost_holding hbody) hbody

theorem atMost_keyed (hanswer : ∀ event, (answer event).Quiet) (hproceed : proceed.AtMost E):
    (keyed svc locked principal operation key hash answer proceed).AtMost E :=
  atMost_keyedAs hanswer hproceed

/-- What the lookup of a key that did not refuse returned. -/
theorem exec_replayIdempotency_ok {replay : Option Event}
    (h : (replayIdempotency svc actor keyRequired operation key hash).exec db =
      (.ok replay, db')) :
    key = "" ∧ replay = none ∨
      key ≠ "" ∧ svc.findReplay db actor operation key hash = .ok replay := by
  unfold replayIdempotency at h
  split at h
  · rename_i hkey
    obtain ⟨_, -, hpure⟩ := Call.exec_lift_bind_ok h
    simp only [Call.exec_pure, Prod.mk.injEq, Except.ok.injEq] at hpure
    exact Or.inl ⟨hkey, hpure.1.symm⟩
  · rename_i hkey
    obtain ⟨_, -, hlook⟩ := Call.exec_lift_bind_ok h
    rw [Call.exec_lookOr, Prod.mk.injEq] at hlook
    exact Or.inr ⟨hkey, hlook.1⟩

/-- A keyed operation that succeeded answered an event under the key, or went on from the same
database where there is none. -/
theorem exec_keyedAs_ok {a : α}
    (h : (keyedAs svc locked actor keyRequired operation key hash answer proceed).exec db =
      (.ok a, db')) :
    (∃ event, (key ≠ "" ∧ svc.findReplay db actor operation key hash = .ok (some event)) ∧
        (answer event).exec db = (.ok a, db')) ∨
      ((key = "" ∨ svc.findReplay db actor operation key hash = .ok none) ∧
        proceed.exec db = (.ok a, db')) := by
  have hbody : ((do
      let replay ← replayIdempotency svc actor keyRequired operation key hash
      match replay with
      | some event => answer event
      | none => proceed : CallM α)).exec db = (.ok a, db') := by
    unfold keyedAs at h
    split at h
    · rwa [Call.exec_holding] at h
    · exact h
  obtain ⟨replay, hreplay, hrest⟩ := Call.exec_bind_quiet_ok quiet_replayIdempotency hbody
  have hfound := exec_replayIdempotency_ok hreplay
  cases replay with
  | none => exact Or.inr ⟨hfound.imp And.left And.right, hrest⟩
  | some event => exact Or.inl ⟨event, hfound.resolve_left (by simp), hrest⟩

/-- A keyed operation that runs alone: it answers the event under its key, or goes on. -/
theorem yields_keyedAs {post : α → Db → Prop} {fails : Db → Prop} (hfails : fails db)
    (hanswer : ∀ event, (answer event).Yields db post fails)
    (hproceed : proceed.Yields db post fails) :
    (keyedAs svc locked actor keyRequired operation key hash answer proceed).Yields db post fails := by
  have hbody : (do
      let replay ← replayIdempotency svc actor keyRequired operation key hash
      match replay with
      | some event => answer event
      | none => proceed : CallM α).Yields db post fails := by
    refine Call.yields_quiet_bind quiet_replayIdempotency hfails fun replay _ => ?_
    cases replay with
    | none => exact hproceed
    | some event => exact hanswer event
  exact Call.yields_ite (fun _ => Call.yields_holding hbody) fun _ => hbody

theorem each_keyed (hanswer : ∀ event, (answer event).Each E) (hproceed : proceed.Each E):
    (keyed svc locked principal operation key hash answer proceed).Each E :=
  each_keyedAs hanswer hproceed

end Keyed

section Threads

variable {ι : Type} {A : Agreement ι Db Mutex} {i : ι} {held : Bool} {s : Scene ι Db}
  {keyRequired : Bool} {hash : Digest} {answer : Event → CallM α} {proceed : CallM α}
  {post : α → Scene ι Db → Prop}

theorem keeps_replayIdempotency {post : Bool → Option Event → Scene ι Db → Prop}
    (h : ∀ s' replay, A.rely i held s s' → A.inv s' →
      (key = "" ∧ replay = none ∨
        key ≠ "" ∧ svc.findReplay s'.state actor operation key hash = .ok replay) →
      ∀ s'', A.rely i held s' s'' → A.inv s'' → post held replay s'') :
    (replayIdempotency svc actor keyRequired operation key hash).Keeps A i post held s := by
  refine Call.keeps_ite (fun hkey => ?_) fun hkey => ?_
  · refine Call.keeps_lift_bind fun _ _ => Call.keeps_pure fun s' hrely hinv => ?_
    exact h s' none hrely hinv (Or.inl ⟨hkey, rfl⟩) s' (A.refl i held s') hinv
  · refine Call.keeps_lift_bind fun _ _ => Call.keeps_lookOr fun s' replay hrely hinv _ hfound => ?_
    exact h s' replay hrely hinv (Or.inr ⟨hkey, hfound⟩)

/-- A keyed operation among others: with the mutex of the keys in hand it looks its key up, and
answers or goes on from the state in which it did. -/
theorem keeps_keyedAs (hinv : A.inv s)
    (hstable : ∀ a s s' held, post a s → A.rely i held s s' → A.inv s' → post a s')
    (h : ∀ s1 s2 s3, A.rely i held s s1 → A.inv s1 →
      A.rely i (held || locked && decide (Mutex.idempotency = A.mutex)) s1 s2 → A.inv s2 →
      A.rely i (held || locked && decide (Mutex.idempotency = A.mutex)) s2 s3 → A.inv s3 →
      (∀ event, key ≠ "" → svc.findReplay s2.state actor operation key hash = .ok (some event) →
        (answer event).Keeps A i (fun _ => post)
          (held || locked && decide (Mutex.idempotency = A.mutex)) s3) ∧
      (key = "" ∨ svc.findReplay s2.state actor operation key hash = .ok none →
        proceed.Keeps A i (fun _ => post)
          (held || locked && decide (Mutex.idempotency = A.mutex)) s3)) :
    (keyedAs svc locked actor keyRequired operation key hash answer proceed).Keeps A i
      (fun _ => post) held s := by
  have hbody : ∀ s1, A.rely i held s s1 → A.inv s1 → (do
      let replay ← replayIdempotency svc actor keyRequired operation key hash
      match replay with
      | some event => answer event
      | none => proceed : CallM α).Keeps A i (fun _ => post)
        (held || locked && decide (Mutex.idempotency = A.mutex)) s1 := by
    intro s1 hrely1 hinv1
    refine Call.keeps_bind (keeps_replayIdempotency fun s2 replay hrely2 hinv2 hfound s3 hrely3
      hinv3 => ?_) hinv1
    obtain ⟨hanswer, hproceed⟩ := h s1 s2 s3 hrely1 hinv1 hrely2 hinv2 hrely3 hinv3
    cases replay with
    | none => exact hproceed (hfound.imp And.left And.right)
    | some event =>
        obtain ⟨hkey, hevent⟩ := hfound.resolve_left (by simp)
        exact hanswer event hkey hevent
  unfold keyedAs
  cases locked with
  | false =>
      rw [Bool.false_and, Bool.or_false] at hbody
      exact hbody s (A.refl i held s) hinv
  | true =>
      rw [Bool.true_and] at hbody
      exact Call.keeps_holding hstable fun s1 hrely hinv _ => hbody s1 hrely hinv

end Threads

section Replay

variable {hash : Digest}

theorem mem_of_keyedEvent (h : svc.keyedEvent db actor operation key = some event):
    event ∈ db.events ∧ event.keyed actor operation key = true := by
  unfold Service.keyedEvent at h
  exact ⟨mem_sortBy.mp (List.mem_of_find?_eq_some h), by simpa using List.find?_some h⟩

/-- What the lookup returns is an event under the key with the hash of this request. -/
theorem mem_of_findReplay_some (h : svc.findReplay db actor operation key hash = .ok (some event)):
    event ∈ db.events ∧ event.keyed actor operation key = true ∧ event.hashed hash = true := by
  rw [Service.findReplay] at h
  cases hk : svc.keyedEvent db actor operation key with
  | none => simp [hk] at h
  | some latest =>
      obtain ⟨hmem, hkeyed⟩ := mem_of_keyedEvent hk
      by_cases hhash : latest.hashed hash
      · simp only [hk, hhash, if_true, Except.ok.injEq, Option.some.injEq] at h
        subst h
        exact ⟨hmem, hkeyed, hhash⟩
      · simp [hk, hhash] at h

end Replay

end Taskboard
