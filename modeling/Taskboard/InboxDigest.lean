import Mathlib.Data.List.Perm.Basic
import Taskboard.Inbox
import Taskboard.Lib.Separated

/-!
# What the digest of an inbox identifies

Every item of the inbox has a line in the text that is hashed, and the line can be read back as long
as no identifier holds a colon or a line break. So two inboxes have the same digest exactly when they
hold the same items with the same statuses (`digest_identifies_contents`).
-/

namespace Taskboard

/-- The text holds neither of the separators. -/
def PlainText (text : String) : Prop :=
  ':' ∉ text.toList ∧ '\n' ∉ text.toList

instance (text : String) : Decidable (PlainText text) :=
  inferInstanceAs (Decidable (_ ∧ _))

/-- No identifier in the inbox holds a separator. -/
structure Inbox.Plain (inbox : Inbox) : Prop where
  runs : ∀ run ∈ inbox.runs, PlainText run.runID
  controls : ∀ control ∈ inbox.controls, PlainText control.id
  sessionRequests : ∀ request ∈ inbox.sessionRequests, PlainText request.id
  discussions : ∀ entry ∈ inbox.discussions, PlainText entry.1.id ∧
    ∀ message ∈ entry.2, PlainText message.id
  escalations : ∀ escalation ∈ inbox.escalations, PlainText escalation.id
  messages : ∀ message ∈ inbox.messages, PlainText message.id

/-- What the digest tells of an inbox, in six multisets. -/
structure SameContents (a b : Inbox) : Prop where
  runs : (a.runs.map fun run => (run.runID, run.taskStatus, run.runStatus, run.active)).Perm
    (b.runs.map fun run => (run.runID, run.taskStatus, run.runStatus, run.active))
  controls : (a.controls.map fun control => (control.id, control.status)).Perm
    (b.controls.map fun control => (control.id, control.status))
  sessionRequests : (a.sessionRequests.map fun request => (request.id, request.status)).Perm
    (b.sessionRequests.map fun request => (request.id, request.status))
  discussions :
    (a.discussions.map fun entry => (entry.1.id, entry.1.status, lastMessageID entry.2)).Perm
      (b.discussions.map fun entry => (entry.1.id, entry.1.status, lastMessageID entry.2))
  escalations : (a.escalations.map fun escalation => (escalation.id, escalation.status)).Perm
    (b.escalations.map fun escalation => (escalation.id, escalation.status))
  messages : (a.messages.map TaskMessage.id).Perm (b.messages.map TaskMessage.id)

section Plain

theorem TaskStatus.plain_toString (status : TaskStatus) : PlainText status.toString := by
  cases status <;> decide

theorem RunControlStatus.plain_toString (status : RunControlStatus) : PlainText status.toString := by
  cases status <;> decide

theorem SessionRequestStatus.plain_toString (status : SessionRequestStatus) :
    PlainText status.toString := by
  cases status <;> decide

theorem DiscussionStatus.plain_toString (status : DiscussionStatus) : PlainText status.toString := by
  cases status <;> decide

theorem EscalationStatus.plain_toString (status : EscalationStatus) : PlainText status.toString := by
  cases status <;> decide

theorem TaskStatus.toString_injective : Function.Injective TaskStatus.toString := by
  intro s t
  cases s <;> cases t <;> decide

theorem RunControlStatus.toString_injective : Function.Injective RunControlStatus.toString := by
  intro s t
  cases s <;> cases t <;> decide

theorem SessionRequestStatus.toString_injective :
    Function.Injective SessionRequestStatus.toString := by
  intro s t
  cases s <;> cases t <;> decide

theorem DiscussionStatus.toString_injective : Function.Injective DiscussionStatus.toString := by
  intro s t
  cases s <;> cases t <;> decide

theorem EscalationStatus.toString_injective : Function.Injective EscalationStatus.toString := by
  intro s t
  cases s <;> cases t <;> decide

theorem plain_lastMessageID {messages : List DiscussionMessage}
    (h : ∀ message ∈ messages, PlainText message.id) : PlainText (lastMessageID messages) := by
  cases hlast : messages.getLast? with
  | none => simp only [lastMessageID, hlast]; decide
  | some message =>
      simp only [lastMessageID, hlast]
      exact h message (List.mem_of_getLast? hlast)

/-- The kinds of keys. -/
def keyKinds : List String :=
  ["run", "control", "session", "discussion", "escalation", "message"]

/-- A key names its kind first, and its fields hold no separator. -/
def KeyFields (fields : List String) : Prop :=
  ∃ kind ∈ keyKinds, ∃ rest, fields = kind :: rest ∧ ∀ field ∈ fields, PlainText field

theorem keyFields_cons {kind : String} {rest : List String} (hkind : kind ∈ keyKinds)
    (hrest : ∀ field ∈ rest, PlainText field) : KeyFields (kind :: rest) := by
  have hplain : ∀ kind ∈ keyKinds, PlainText kind := by decide
  refine ⟨kind, hkind, rest, rfl, ?_⟩
  intro field hfield
  rcases List.mem_cons.mp hfield with rfl | hfield
  · exact hplain field hkind
  · exact hrest field hfield

theorem Inbox.Plain.keyFields {inbox : Inbox} (h : inbox.Plain) :
    ∀ fields ∈ inbox.fields, KeyFields fields := by
  intro fields hfields
  simp only [Inbox.fields, List.mem_append, List.mem_map] at hfields
  rcases hfields with ((((⟨run, hrun, rfl⟩ | ⟨control, hcontrol, rfl⟩) | ⟨request, hrequest, rfl⟩) |
    ⟨entry, hentry, rfl⟩) | ⟨escalation, hescalation, rfl⟩) | ⟨message, hmessage, rfl⟩
  · refine keyFields_cons (by simp [keyKinds]) ?_
    have hflag : PlainText (if run.active then "true" else "false") := by
      cases run.active <;> decide
    simpa using ⟨h.runs run hrun, run.taskStatus.plain_toString, run.runStatus.plain_toString, hflag⟩
  · refine keyFields_cons (by simp [keyKinds]) ?_
    simpa using ⟨h.controls control hcontrol, control.status.plain_toString⟩
  · refine keyFields_cons (by simp [keyKinds]) ?_
    simpa using ⟨h.sessionRequests request hrequest, request.status.plain_toString⟩
  · refine keyFields_cons (by simp [keyKinds]) ?_
    obtain ⟨hid, hmessages⟩ := h.discussions entry hentry
    simpa using ⟨hid, entry.1.status.plain_toString, plain_lastMessageID hmessages⟩
  · refine keyFields_cons (by simp [keyKinds]) ?_
    simpa using ⟨h.escalations escalation hescalation, escalation.status.plain_toString⟩
  · refine keyFields_cons (by simp [keyKinds]) ?_
    simpa using h.messages message hmessage

end Plain

section Keys

variable {a b : Inbox} {fields : List String} {α : Type} {f : α → List String}

/-- The fields of a key. -/
def keyDecoded (key : String) : List String :=
  (key.toList.splitOn ':').map String.ofList

theorem keyDecoded_intercalate (h : KeyFields fields) :
    keyDecoded ((String.singleton ':').intercalate fields) = fields := by
  obtain ⟨kind, -, rest, rfl, hplain⟩ := h
  rw [keyDecoded, splitOn_toList_intercalate (by simp) fun field hfield => (hplain field hfield).1]
  simp

/-- A key is a line of its own. -/
theorem key_plain (h : KeyFields fields) :
    (String.singleton ':').intercalate fields ≠ "" ∧
      '\n' ∉ ((String.singleton ':').intercalate fields).toList := by
  constructor
  · intro hempty
    have hdecoded := keyDecoded_intercalate h
    obtain ⟨kind, hkind, rest, rfl, -⟩ := h
    rw [hempty] at hdecoded
    have hsome : ∀ kind ∈ keyKinds, kind ≠ "" := by decide
    have hhead : [""] = kind :: rest := hdecoded
    exact hsome kind hkind (List.cons.inj hhead).1.symm
  · intro hmem
    obtain ⟨_, _, _, _, hplain⟩ := h
    rcases mem_toList_intercalate hmem with hcolon | ⟨field, hfield, hchar⟩
    · cases hcolon
    · exact (hplain field hfield).2 hchar

/-- Inboxes have the same digest exactly when they have the same keys. -/
theorem digest_eq_iff {hash : String → String} (hhash : Function.Injective hash) (ha : a.Plain)
    (hb : b.Plain) : inboxDigest hash a = inboxDigest hash b ↔ a.fields.Perm b.fields := by
  have hlines {inbox : Inbox} (h : inbox.Plain) :
      ∀ key ∈ (inbox.fields.map (String.singleton ':').intercalate).insertionSort (· ≤ ·),
        key ≠ "" ∧ '\n' ∉ key.toList := by
    intro key hkey
    obtain ⟨fields, hfields, rfl⟩ := List.mem_map.mp ((List.mem_insertionSort _).mp hkey)
    exact key_plain (h.keyFields fields hfields)
  have hdecoded {inbox : Inbox} (h : inbox.Plain) :
      (inbox.fields.map (String.singleton ':').intercalate).map keyDecoded = inbox.fields := by
    calc (inbox.fields.map (String.singleton ':').intercalate).map keyDecoded
        = inbox.fields.map id := by
          rw [List.map_map]
          exact List.map_congr_left fun fields hfields =>
            keyDecoded_intercalate (h.keyFields fields hfields)
      _ = inbox.fields := List.map_id _
  constructor
  · intro hsame
    have hsorted := intercalate_inj_of_ne_empty (hlines ha) (hlines hb) (hhash hsame)
    have hkeys := insertionSort_eq_iff.mp hsorted
    rw [← hdecoded ha, ← hdecoded hb]
    exact hkeys.map keyDecoded
  · intro hperm
    have hsorted := insertionSort_eq_iff (r := (· ≤ ·)).mpr
      (hperm.map (String.singleton ':').intercalate)
    rw [inboxDigest, inboxDigest, hsorted]

/-- The keys of one kind. -/
theorem filter_kind {kind' : String}
    (h : ∀ x, (f x).head? = some kind') (items : List α) (kind : String) :
    (items.map f).filter (fun fields => fields.head? = some kind) =
      if kind' = kind then items.map f else [] := by
  split
  · rename_i hsame
    rw [List.filter_eq_self]
    intro fields hfields
    obtain ⟨x, -, rfl⟩ := List.mem_map.mp hfields
    simp [h x, hsame]
  · rename_i hother
    rw [List.filter_eq_nil_iff]
    intro fields hfields
    obtain ⟨x, -, rfl⟩ := List.mem_map.mp hfields
    simp [h x, hother]

/-- The keys of an inbox, one kind at a time. -/
theorem filter_fields (inbox : Inbox) :
    inbox.fields.filter (fun fields => fields.head? = some "run") =
        inbox.runs.map InboxRunState.fields ∧
      inbox.fields.filter (fun fields => fields.head? = some "control") =
        inbox.controls.map RunControlRequest.fields ∧
      inbox.fields.filter (fun fields => fields.head? = some "session") =
        inbox.sessionRequests.map SessionBridgeRequest.fields ∧
      inbox.fields.filter (fun fields => fields.head? = some "discussion") =
        inbox.discussions.map discussionFields ∧
      inbox.fields.filter (fun fields => fields.head? = some "escalation") =
        inbox.escalations.map TaskEscalation.fields ∧
      inbox.fields.filter (fun fields => fields.head? = some "message") =
        inbox.messages.map TaskMessage.fields := by
  have hruns := filter_kind (f := InboxRunState.fields) (fun _ => rfl) inbox.runs
  have hcontrols := filter_kind (f := RunControlRequest.fields) (fun _ => rfl) inbox.controls
  have hrequests := filter_kind (f := SessionBridgeRequest.fields) (fun _ => rfl)
    inbox.sessionRequests
  have hdiscussions := filter_kind (f := discussionFields) (fun _ => rfl) inbox.discussions
  have hescalations := filter_kind (f := TaskEscalation.fields) (fun _ => rfl) inbox.escalations
  have hmessages := filter_kind (f := TaskMessage.fields) (fun _ => rfl) inbox.messages
  simp [Inbox.fields, List.filter_append, hruns, hcontrols, hrequests, hdiscussions, hescalations,
    hmessages]

/-- Items have the same keys exactly when they have the same of what their keys are made of. -/
theorem perm_keys_iff {β : Type} {contents : α → β}
    {encode : β → List String} (hencode : Function.Injective encode)
    (hf : ∀ x, f x = encode (contents x)) {items items' : List α} :
    (items.map f).Perm (items'.map f) ↔ (items.map contents).Perm (items'.map contents) := by
  have hmap (items : List α) : items.map f = (items.map contents).map encode := by
    rw [List.map_map]
    exact List.map_congr_left fun x _ => hf x
  rw [hmap, hmap, List.map_perm_map_iff hencode]

theorem runKey_injective :
    Function.Injective fun (entry : String × TaskStatus × TaskStatus × Bool) =>
      ["run", entry.1, entry.2.1.toString, entry.2.2.1.toString,
        if entry.2.2.2 then "true" else "false"] := by
  intro entry entry' h
  simp only [List.cons.injEq, true_and, and_true] at h
  obtain ⟨hid, htask, hrun, hactive⟩ := h
  have hflag : entry.2.2.2 = entry'.2.2.2 := by
    cases hl : entry.2.2.2 <;> cases hr : entry'.2.2.2 <;> simp [hl, hr] at hactive ⊢
  exact Prod.ext hid (Prod.ext (TaskStatus.toString_injective htask)
    (Prod.ext (TaskStatus.toString_injective hrun) hflag))

theorem statusKey_injective {σ : Type} {toString : σ → String} (kind : String)
    (hinj : Function.Injective toString) :
    Function.Injective fun (entry : String × σ) => [kind, entry.1, toString entry.2] := by
  intro entry entry' h
  simp only [List.cons.injEq, true_and, and_true] at h
  exact Prod.ext h.1 (hinj h.2)

theorem discussionKey_injective :
    Function.Injective fun (entry : String × DiscussionStatus × String) =>
      ["discussion", entry.1, entry.2.1.toString, entry.2.2] := by
  intro entry entry' h
  simp only [List.cons.injEq, true_and, and_true] at h
  exact Prod.ext h.1 (Prod.ext (DiscussionStatus.toString_injective h.2.1) h.2.2)

theorem messageKey_injective : Function.Injective fun id : String => ["message", id] := by
  intro id id' h
  simpa using h

/-- Inboxes have the same keys exactly when they hold the same. -/
theorem perm_fields_iff : a.fields.Perm b.fields ↔ SameContents a b := by
  constructor
  · intro h
    have hkind (kind : String) := h.filter fun fields => fields.head? = some kind
    obtain ⟨hruns, hcontrols, hrequests, hdiscussions, hescalations, hmessages⟩ := filter_fields a
    obtain ⟨hruns', hcontrols', hrequests', hdiscussions', hescalations', hmessages'⟩ :=
      filter_fields b
    constructor
    · exact (perm_keys_iff runKey_injective fun _ => rfl).mp (hruns ▸ hruns' ▸ hkind "run")
    · exact (perm_keys_iff (statusKey_injective _ RunControlStatus.toString_injective)
        fun _ => rfl).mp (hcontrols ▸ hcontrols' ▸ hkind "control")
    · exact (perm_keys_iff (statusKey_injective _ SessionRequestStatus.toString_injective)
        fun _ => rfl).mp (hrequests ▸ hrequests' ▸ hkind "session")
    · exact (perm_keys_iff discussionKey_injective fun _ => rfl).mp
        (hdiscussions ▸ hdiscussions' ▸ hkind "discussion")
    · exact (perm_keys_iff (statusKey_injective _ EscalationStatus.toString_injective)
        fun _ => rfl).mp (hescalations ▸ hescalations' ▸ hkind "escalation")
    · exact (perm_keys_iff messageKey_injective fun _ => rfl).mp
        (hmessages ▸ hmessages' ▸ hkind "message")
  · intro h
    have hruns := (perm_keys_iff runKey_injective fun _ => rfl).mpr h.runs
    have hcontrols := (perm_keys_iff (statusKey_injective "control"
      RunControlStatus.toString_injective) fun _ => rfl).mpr h.controls
    have hrequests := (perm_keys_iff (statusKey_injective "session"
      SessionRequestStatus.toString_injective) fun _ => rfl).mpr h.sessionRequests
    have hdiscussions := (perm_keys_iff discussionKey_injective fun _ => rfl).mpr h.discussions
    have hescalations := (perm_keys_iff (statusKey_injective "escalation"
      EscalationStatus.toString_injective) fun _ => rfl).mpr h.escalations
    have hmessages := (perm_keys_iff messageKey_injective fun _ => rfl).mpr h.messages
    exact ((((hruns.append hcontrols).append hrequests).append hdiscussions).append
      hescalations).append hmessages

end Keys

/-- **The digest of an inbox identifies its contents.** With a hash that has no collisions, two
inboxes whose identifiers hold no separator have the same digest exactly when they have the same
runs with their statuses, the same controls, session requests, discussions and escalations with
theirs, and the same messages. -/
theorem digest_identifies_contents {hash : String → String} (hhash : Function.Injective hash)
    {a b : Inbox} (ha : a.Plain) (hb : b.Plain) :
    inboxDigest hash a = inboxDigest hash b ↔ SameContents a b := by
  rw [digest_eq_iff hhash ha hb, perm_fields_iff]

/-- An inbox of two runs with a discussion and two messages. -/
def sampleInbox : Inbox where
  asOf := 0
  runs :=
    [{ taskID := "t1", runID := "r1", taskStatus := .active, taskVersion := 3, runStatus := .active,
       active := true },
     { taskID := "t2", runID := "r2", taskStatus := .waiting, taskVersion := 5,
       runStatus := .waiting, active := false }]
  discussions :=
    [({ id := "d1", taskID := "t1", controller := "builder", status := .active,
        requestedBy := "ann", createdAt := 0, lastActivityAt := 9 },
      [{ id := "m7", discussionID := "d1", taskID := "t1", author := "ann", role := "person",
         body := "Done?", createdAt := 9 }])]
  messages :=
    [{ id := "m1", taskID := "t1", author := "ann", kind := .note, body := "Hi", createdAt := 4 },
     { id := "m2", taskID := "t1", author := "ann", kind := .note, body := "Well", createdAt := 5 }]

/-- The same inbox later, in another order and with another version of a task. -/
def sampleInboxLater : Inbox :=
  { sampleInbox with
    asOf := 60
    runs := sampleInbox.runs.reverse.map fun run => { run with taskVersion := run.taskVersion + 1 }
    messages := sampleInbox.messages.reverse }

theorem order_and_versions_leave_the_digest :
    inboxDigest id sampleInbox = inboxDigest id sampleInboxLater := by
  have hplain : sampleInbox.Plain :=
    ⟨by decide, by decide, by decide, by decide, by decide, by decide⟩
  have hlater : sampleInboxLater.Plain :=
    ⟨by decide, by decide, by decide, by decide, by decide, by decide⟩
  apply (digest_identifies_contents Function.injective_id hplain hlater).mpr
  exact ⟨by decide, by decide, by decide, by decide, by decide, by decide⟩

end Taskboard
