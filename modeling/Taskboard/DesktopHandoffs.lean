import Taskboard.Lib.ReadCommitted
import Taskboard.Operations

/-!
# Desktop handoffs

A browser that has signed in hands its identity on to the desktop application. It stores a
handoff under the hash of a code that the application has chosen, and under the hash of a
confirmation secret of its own. A person compares a verification code and confirms, which erases
the confirmation hash; or they cancel, which removes the row. Behind a confirmation the
application exchanges the code for a browser session, which removes the row as well.

The three parties meet in one row, and two exchanges may both read it. What they come to is said
once for each call (`HandoffCall.Effect`), as if it happened in one moment; each transaction comes
to that, however its statements interleave with the others (`keeps_handoffCall`). The rest is about
what was committed in turn (`HandoffCall.Lawful`).
-/

namespace Taskboard

variable {e : HandoffEntry} {history : List HandoffEntry} {item : NewHandoff} {δ : Type}

structure BrowserIdentity where
  subject : String
  email : String := ""
  groups : List String := []
  deriving DecidableEq

/-- A row of `desktop_handoffs`. -/
structure DesktopHandoff (δ : Type) where
  codeHash : δ
  identity : BrowserIdentity
  createdAt : Instant
  expiresAt : Instant
  confirmationHash : Option δ
  verificationCode : String
  confirmedAt : Option Instant := none
  deriving DecidableEq

/-- A row of `browser_sessions`. -/
structure BrowserSession (δ : Type) where
  tokenHash : δ
  identity : BrowserIdentity
  createdAt : Instant
  expiresAt : Instant
  deriving DecidableEq

inductive LoginKey (δ : Type) where
  | handoff (codeHash : δ)
  | session (tokenHash : δ)
  deriving DecidableEq

/-- The tables of the sign-in. -/
structure LoginDb (δ : Type) where
  handoffs : List (DesktopHandoff δ) := []
  sessions : List (BrowserSession δ) := []
  deriving DecidableEq

section Tables

variable [DecidableEq δ]

instance : Parts (LoginDb δ) (LoginKey δ) where
  part k db :=
    { handoffs := db.handoffs.filter fun row => LoginKey.handoff row.codeHash = k
      sessions := db.sessions.filter fun row => LoginKey.session row.tokenHash = k }

def desktopHandoffTable : Table (LoginDb δ) (LoginKey δ) (DesktopHandoff δ) where
  rows := LoginDb.handoffs
  put rows db := { db with handoffs := rows }
  key row := .handoff row.codeHash
  put_rows _ := rfl
  part_rows h := congrArg LoginDb.handoffs h
  part_put := congrArg₂ fun (db : LoginDb δ) rows => { db with handoffs := rows }

def browserSessionTable : Table (LoginDb δ) (LoginKey δ) (BrowserSession δ) where
  rows := LoginDb.sessions
  put rows db := { db with sessions := rows }
  key row := .session row.tokenHash
  put_rows _ := rfl
  part_rows h := congrArg LoginDb.sessions h
  part_put := congrArg₂ fun (db : LoginDb δ) rows => { db with sessions := rows }

end Tables

/-- The arguments of `CreateDesktopHandoff`, and its clock. -/
structure NewHandoff where
  code : String
  confirmation : String
  verificationCode : String
  identity : BrowserIdentity
  now : Instant
  lifetime : Duration
  deriving DecidableEq

def NewHandoff.expiresAt (item : NewHandoff) : Instant :=
  item.now + item.lifetime

/-- What a call answers once it is committed. `CancelDesktopHandoff` does not tell how many rows it
has removed; it is kept here to speak about it. -/
inductive HandoffAnswer where
  | ok
  | notFound
  | pending (verificationCode : String)
  | cancelled (removed : Nat)
  | session (token : String) (expires : Instant) (identity : BrowserIdentity)
  deriving DecidableEq

section Calls

variable [DecidableEq δ] (hash : String → δ)

/-- The row that `CreateDesktopHandoff` inserts. -/
def NewHandoff.row (item : NewHandoff) : DesktopHandoff δ where
  codeHash := hash item.code
  identity := item.identity
  createdAt := item.now
  expiresAt := item.expiresAt
  confirmationHash := some (hash item.confirmation)
  verificationCode := item.verificationCode

/-- A transaction of the sign-in. -/
abbrev LoginM (δ : Type) [DecidableEq δ] :=
  Tx (LoginDb δ) (LoginKey δ) ServiceError

/-- `CreateDesktopHandoff`. -/
def createDesktopHandoff (item : NewHandoff) : LoginM δ HandoffAnswer := do
  refuse (byteLen item.code < 8 ∨ item.confirmation = "" ∨ item.verificationCode = "")
    (ServiceError.database "desktop handoff confirmation is incomplete")
  desktopHandoffTable.insert (item.row hash)
    (fun db => db.handoffs.all fun row => row.confirmationHash ≠ some (hash item.confirmation))
    (.database "insert desktop handoff")
  pure .ok

/-- `DELETE FROM desktop_handoffs WHERE confirmation_hash=?`. -/
def deleteUnconfirmed (confirmation : String) : LoginM δ Nat :=
  desktopHandoffTable.deleteWhere fun _ row => row.confirmationHash = some (hash confirmation)

/-- `DELETE FROM desktop_handoffs WHERE code_hash=?`. -/
def deleteHandoff (code : String) : LoginM δ Nat :=
  desktopHandoffTable.deleteWhere fun _ row => row.codeHash = hash code

/-- `PendingDesktopHandoff`. -/
def pendingDesktopHandoff (confirmation : String) (now : Instant) : LoginM δ HandoffAnswer := do
  let row ← Tx.selectOr fun db => found (db.handoffs.find? fun row =>
    row.confirmationHash = some (hash confirmation) && row.confirmedAt.isNone)
  if ¬ now < row.expiresAt then do
    let _ ← deleteUnconfirmed hash confirmation
    pure .notFound
  else pure (.pending row.verificationCode)

def DesktopHandoff.confirmed (row : DesktopHandoff δ) (now : Instant) : DesktopHandoff δ :=
  { row with confirmedAt := some now, confirmationHash := none }

/-- The rows that `ConfirmDesktopHandoff` updates. -/
def DesktopHandoff.confirmable (svc : Service) (confirmation : String) (now : Instant)
    (row : DesktopHandoff δ) : Bool :=
  row.confirmationHash = some (hash confirmation) && row.confirmedAt.isNone &&
    svc.before now row.expiresAt

/-- `ConfirmDesktopHandoff`. Its one statement is committed even where it does not answer well. -/
def confirmDesktopHandoff (svc : Service) (confirmation : String) (now : Instant) :
    LoginM δ HandoffAnswer := do
  let count ← desktopHandoffTable.updateWhere
    (fun _ row => row.confirmable hash svc confirmation now) fun row => row.confirmed now
  if count ≠ 1 then pure .notFound else pure .ok

/-- `CancelDesktopHandoff`. -/
def cancelDesktopHandoff (confirmation : String) : LoginM δ HandoffAnswer := do
  let count ← deleteUnconfirmed hash confirmation
  pure (.cancelled count)

/-- `ExchangeDesktopHandoff` with the time its check reads, and the token and the time that it
draws for the session. -/
def exchangeDesktopHandoff (code token : String) (checked now : Instant) (lifetime : Duration) :
    LoginM δ HandoffAnswer := do
  let row ← Tx.selectOr fun db => found (db.handoffs.find? fun row =>
    row.codeHash = hash code && row.confirmedAt.isSome)
  if ¬ checked < row.expiresAt then do
    let _ ← deleteHandoff hash code
    pure .notFound
  else do
    let count ← deleteHandoff hash code
    refuse (count ≠ 1) ServiceError.notFound
    browserSessionTable.insert
      { tokenHash := hash token
        identity := row.identity
        createdAt := now
        expiresAt := now + lifetime }
      (fun _ => true) (.database "insert browser session")
    pure (.session token (now + lifetime) row.identity)

end Calls

/-- The calls about handoffs. -/
inductive HandoffCall where
  | create (item : NewHandoff)
  | pending (confirmation : String) (now : Instant)
  | confirm (confirmation : String) (now : Instant)
  | cancel (confirmation : String)
  | exchange (code token : String) (checked now : Instant) (lifetime : Duration)
  deriving DecidableEq

/-- The transaction of the call. -/
def HandoffCall.tx {δ : Type} [DecidableEq δ] (svc : Service) (hash : String → δ) :
    HandoffCall → LoginM δ HandoffAnswer
  | .create item => createDesktopHandoff hash item
  | .pending confirmation now => pendingDesktopHandoff hash confirmation now
  | .confirm confirmation now => confirmDesktopHandoff hash svc confirmation now
  | .cancel confirmation => cancelDesktopHandoff hash confirmation
  | .exchange code token checked now lifetime =>
      exchangeDesktopHandoff hash code token checked now lifetime

section Lawful

/-- A call that was committed, with its answer. -/
abbrev HandoffEntry := HandoffCall × HandoffAnswer

/-- The code was exchanged for a session. -/
def HandoffEntry.exchanges (code : String) : HandoffEntry → Bool
  | (.exchange code' _ _ _ _, .session _ _ _) => code' = code
  | _ => false

/-- The secret has confirmed a handoff. -/
def HandoffEntry.confirms (confirmation : String) : HandoffEntry → Bool
  | (.confirm confirmation' _, .ok) => confirmation' = confirmation
  | _ => false

/-- A handoff was cancelled with the secret. -/
def HandoffEntry.cancels (confirmation : String) : HandoffEntry → Bool
  | (.cancel confirmation', .cancelled removed) => confirmation' = confirmation && removed ≠ 0
  | _ => false

/-- The handoffs that were stored. -/
def storedHandoffs (history : List HandoffEntry) : List NewHandoff :=
  history.filterMap fun
    | (.create item, .ok) => some item
    | _ => none

/-- No code and no secret was given to two handoffs. -/
structure DistinctSecrets (history : List HandoffEntry) : Prop where
  codes : ((storedHandoffs history).map NewHandoff.code).Nodup
  confirmations : ((storedHandoffs history).map NewHandoff.confirmation).Nodup

/-- The handoff was stored, and is neither cancelled nor exchanged. -/
structure NewHandoff.Live (item : NewHandoff) (history : List HandoffEntry) : Prop where
  stored : (.create item, .ok) ∈ history
  uncancelled : ∀ e ∈ history, HandoffEntry.cancels item.confirmation e = false
  unspent : ∀ e ∈ history, HandoffEntry.exchanges item.code e = false

/-- The handoff is still to be confirmed. -/
structure NewHandoff.Waits (item : NewHandoff) (history : List HandoffEntry) : Prop
    extends item.Live history where
  unconfirmed : ∀ e ∈ history, HandoffEntry.confirms item.confirmation e = false

/-- The handoff was confirmed with its own secret after it was stored. -/
structure NewHandoff.Open (item : NewHandoff) (history : List HandoffEntry) : Prop
    extends item.Live history where
  confirmed : ∃ now,
    List.Sublist [(.create item, .ok), (.confirm item.confirmation now, .ok)] history

/-- What a call that was committed must have found. -/
def HandoffEntry.Lawful (history : List HandoffEntry) : HandoffEntry → Prop
  | (.confirm confirmation _, .ok) =>
      ∃ item : NewHandoff, item.confirmation = confirmation ∧ item.Waits history
  | (.cancel confirmation, .cancelled removed) =>
      removed ≠ 0 → ∃ item : NewHandoff, item.confirmation = confirmation ∧ item.Waits history
  | (.exchange code _ checked _ _, .session _ _ identity) =>
      ∃ item : NewHandoff, item.code = code ∧ item.Open history ∧ checked < item.expiresAt ∧
        item.identity = identity
  | _ => True

variable {other : NewHandoff} {code confirmation : String}

theorem mem_storedHandoffs : item ∈ storedHandoffs history ↔ (.create item, .ok) ∈ history := by
  rw [storedHandoffs, List.mem_filterMap]
  constructor
  · rintro ⟨e, he, heq⟩
    split at heq
    · cases heq
      exact he
    · cases heq
  · exact fun h => ⟨_, h, rfl⟩

theorem DistinctSecrets.eq_of_code (h : DistinctSecrets history)
    (hitem : (.create item, .ok) ∈ history) (hother : (.create other, .ok) ∈ history)
    (hcode : item.code = other.code) : item = other :=
  List.inj_on_of_nodup_map h.codes (mem_storedHandoffs.mpr hitem) (mem_storedHandoffs.mpr hother)
    hcode

theorem DistinctSecrets.eq_of_confirmation (h : DistinctSecrets history)
    (hitem : (.create item, .ok) ∈ history) (hother : (.create other, .ok) ∈ history)
    (hconfirmation : item.confirmation = other.confirmation) : item = other :=
  List.inj_on_of_nodup_map h.confirmations (mem_storedHandoffs.mpr hitem)
    (mem_storedHandoffs.mpr hother) hconfirmation

/-- The secrets of a further handoff are new. -/
theorem DistinctSecrets.new (h : DistinctSecrets (history ++ [(.create item, .ok)]))
    (hother : (.create other, .ok) ∈ history) :
    other.code ≠ item.code ∧ other.confirmation ≠ item.confirmation := by
  have hstored : storedHandoffs (history ++ [(.create item, .ok)]) =
      storedHandoffs history ++ [item] := by
    rw [storedHandoffs, List.filterMap_append]
    rfl
  obtain ⟨hcodes, hconfirmations⟩ := h
  rw [hstored, List.map_append, List.nodup_append] at hcodes hconfirmations
  have hmem := mem_storedHandoffs.mpr hother
  exact ⟨hcodes.2.2 _ (List.mem_map_of_mem hmem) _ (by simp),
    hconfirmations.2.2 _ (List.mem_map_of_mem hmem) _ (by simp)⟩

theorem HandoffEntry.confirms_iff :
    e.confirms confirmation = true ↔ ∃ now, e = (.confirm confirmation now, .ok) := by
  constructor
  · intro h
    unfold HandoffEntry.confirms at h
    split at h
    · obtain rfl := of_decide_eq_true h
      exact ⟨_, rfl⟩
    · cases h
  · rintro ⟨now, rfl⟩
    exact decide_eq_true rfl

theorem HandoffEntry.cancels_iff :
    e.cancels confirmation = true ↔
      ∃ removed, removed ≠ 0 ∧ e = (.cancel confirmation, .cancelled removed) := by
  constructor
  · intro h
    unfold HandoffEntry.cancels at h
    split at h
    · rw [Bool.and_eq_true, decide_eq_true_eq, decide_eq_true_eq] at h
      obtain ⟨rfl, hremoved⟩ := h
      exact ⟨_, hremoved, rfl⟩
    · cases h
  · rintro ⟨removed, hremoved, rfl⟩
    simpa [HandoffEntry.cancels] using hremoved

theorem HandoffEntry.exchanges_iff :
    e.exchanges code = true ↔ ∃ token checked now lifetime token' expires identity,
      e = (.exchange code token checked now lifetime, .session token' expires identity) := by
  constructor
  · intro h
    unfold HandoffEntry.exchanges at h
    split at h
    · obtain rfl := of_decide_eq_true h
      exact ⟨_, _, _, _, _, _, _, rfl⟩
    · cases h
  · rintro ⟨_, _, _, _, _, _, _, rfl⟩
    exact decide_eq_true rfl

/-- What was lawful when it came speaks of a handoff that had been stored. -/
theorem stored_of_secret (h : InTurn HandoffEntry.Lawful history)
    (he : e ∈ history) (hmark : e.confirms confirmation = true ∨ e.cancels confirmation = true) :
    ∃ item : NewHandoff, item.confirmation = confirmation ∧ (.create item, .ok) ∈ history := by
  obtain ⟨before, after, rfl⟩ := List.append_of_mem he
  have hlaw := h before e after rfl
  have hwaits : ∃ item : NewHandoff, item.confirmation = confirmation ∧ item.Waits before := by
    rcases hmark with hmark | hmark
    · obtain ⟨now, rfl⟩ := HandoffEntry.confirms_iff.mp hmark
      exact hlaw
    · obtain ⟨removed, hremoved, rfl⟩ := HandoffEntry.cancels_iff.mp hmark
      exact hlaw hremoved
  obtain ⟨item, hitem, hwaits⟩ := hwaits
  exact ⟨item, hitem, List.mem_append_left _ hwaits.stored⟩

theorem stored_of_code (h : InTurn HandoffEntry.Lawful history)
    (he : e ∈ history) (hmark : e.exchanges code = true) :
    ∃ item : NewHandoff, item.code = code ∧ (.create item, .ok) ∈ history := by
  obtain ⟨before, after, rfl⟩ := List.append_of_mem he
  have hlaw := h before e after rfl
  obtain ⟨_, _, _, _, _, _, _, rfl⟩ := HandoffEntry.exchanges_iff.mp hmark
  obtain ⟨item, hitem, hopen, -⟩ := hlaw
  exact ⟨item, hitem, List.mem_append_left _ hopen.stored⟩

section Snoc

theorem forall_snoc_false {q : HandoffEntry → Bool} (h : ∀ e ∈ history, q e = false)
    (he : q e = false) : ∀ e' ∈ history ++ [e], q e' = false := by
  intro e' he'
  rcases List.mem_append.mp he' with he' | he'
  · exact h e' he'
  · rw [List.mem_singleton.mp he']
    exact he

theorem NewHandoff.Live.snoc (h : item.Live history) (hcancels : e.cancels item.confirmation = false)
    (hexchanges : e.exchanges item.code = false) : item.Live (history ++ [e]) where
  stored := List.mem_append_left _ h.stored
  uncancelled := forall_snoc_false h.uncancelled hcancels
  unspent := forall_snoc_false h.unspent hexchanges

theorem NewHandoff.Waits.snoc (h : item.Waits history)
    (hcancels : e.cancels item.confirmation = false) (hexchanges : e.exchanges item.code = false)
    (hconfirms : e.confirms item.confirmation = false) : item.Waits (history ++ [e]) where
  toLive := h.toLive.snoc hcancels hexchanges
  unconfirmed := forall_snoc_false h.unconfirmed hconfirms

theorem NewHandoff.Open.snoc (h : item.Open history)
    (hcancels : e.cancels item.confirmation = false) (hexchanges : e.exchanges item.code = false) :
    item.Open (history ++ [e]) where
  toLive := h.toLive.snoc hcancels hexchanges
  confirmed := h.confirmed.imp fun _ hsub => hsub.trans (List.sublist_append_left _ _)

theorem NewHandoff.Waits.confirm (h : item.Waits history) (now : Instant) :
    item.Open (history ++ [(.confirm item.confirmation now, .ok)]) where
  toLive := h.toLive.snoc rfl rfl
  confirmed := ⟨now, (List.singleton_sublist.mpr h.stored).append (List.Sublist.refl _)⟩

/-- A handoff is new where its code and its secret are. -/
theorem NewHandoff.waits_stored (hlaw : InTurn HandoffEntry.Lawful history)
    (hdistinct : DistinctSecrets (history ++ [(.create item, .ok)])) :
    item.Waits (history ++ [(.create item, .ok)]) := by
  refine ⟨⟨by simp, forall_snoc_false ?_ rfl, forall_snoc_false ?_ rfl⟩, forall_snoc_false ?_ rfl⟩
  · intro e he
    by_contra hmark
    obtain ⟨other, heq, hother⟩ := stored_of_secret hlaw he (Or.inr (by simpa using hmark))
    exact (hdistinct.new hother).2 heq
  · intro e he
    by_contra hmark
    obtain ⟨other, heq, hother⟩ := stored_of_code hlaw he (by simpa using hmark)
    exact (hdistinct.new hother).1 heq
  · intro e he
    by_contra hmark
    obtain ⟨other, heq, hother⟩ := stored_of_secret hlaw he (Or.inl (by simpa using hmark))
    exact (hdistinct.new hother).2 heq

end Snoc

end Lawful

section Effect

variable (hash : String → δ)

/-- The call has nothing to show for itself: no handoff was stored, confirmed, cancelled or
exchanged. -/
def HandoffEntry.plain : HandoffEntry → Bool
  | (.create _, .ok) => false
  | (.confirm _ _, .ok) => false
  | (.cancel _, .cancelled removed) => removed = 0
  | (.exchange _ _ _ _ _, .session _ _ _) => false
  | _ => true

/-- What a call does that is committed, as if it happened in one moment. -/
inductive HandoffEntry.Effect [DecidableEq δ] (db : LoginDb δ) : HandoffEntry → LoginDb δ → Prop
  | create {item : NewHandoff} (hfresh : ∀ row ∈ db.handoffs, row.codeHash ≠ hash item.code) :
      Effect db (.create item, .ok) { db with handoffs := db.handoffs ++ [item.row hash] }
  | confirm {confirmation : String} {now : Instant} {row : DesktopHandoff δ}
      (hrow : row ∈ db.handoffs) (hsecret : row.confirmationHash = some (hash confirmation))
      (hwaits : row.confirmedAt = none) :
      Effect db (.confirm confirmation now, .ok)
        { db with
          handoffs := mapWhere (fun r => r.codeHash = row.codeHash) (fun r => r.confirmed now)
            db.handoffs }
  | cancel {confirmation : String} {removed : Nat} {row : DesktopHandoff δ}
      (hrow : row ∈ db.handoffs) (hsecret : row.confirmationHash = some (hash confirmation)) :
      Effect db (.cancel confirmation, .cancelled removed)
        { db with handoffs := db.handoffs.filter fun r => r.codeHash ≠ row.codeHash }
  | exchange {code token : String} {checked now : Instant} {lifetime : Duration}
      {row : DesktopHandoff δ} (hrow : row ∈ db.handoffs) (hcode : row.codeHash = hash code)
      (hconfirmed : row.confirmedAt ≠ none) (hlive : checked < row.expiresAt) :
      Effect db
        (.exchange code token checked now lifetime, .session token (now + lifetime) row.identity)
        { handoffs := db.handoffs.filter fun r => r.codeHash ≠ hash code
          sessions := db.sessions ++
            [{ tokenHash := hash token
               identity := row.identity
               createdAt := now
               expiresAt := now + lifetime }] }
  | plain {e : HandoffEntry} (he : e.plain = true) (keep : DesktopHandoff δ → Bool) :
      Effect db e { db with handoffs := db.handoffs.filter keep }

theorem HandoffEntry.Effect.unchanged [DecidableEq δ] {hash : String → δ} {db : LoginDb δ}
    (he : e.plain = true) : HandoffEntry.Effect hash db e db := by
  have hplain : HandoffEntry.Effect hash db e { db with handoffs := db.handoffs.filter fun _ => true } :=
    .plain he _
  rwa [List.filter_true] at hplain

/-- The sessions that these calls have opened. -/
def openedSessions (history : List HandoffEntry) : List (BrowserSession δ) :=
  history.filterMap fun
    | (.exchange _ token _ now _, .session _ expires identity) =>
        some { tokenHash := hash token, identity, createdAt := now, expiresAt := expires }
    | _ => none

/-- A row is what has become of a handoff that was stored. -/
structure DesktopHandoff.Backs (row : DesktopHandoff δ) (history : List HandoffEntry)
    (item : NewHandoff) : Prop where
  codeHash : row.codeHash = hash item.code
  identity : row.identity = item.identity
  expiresAt : row.expiresAt = item.expiresAt
  stage : (row.confirmedAt = none ∧ row.confirmationHash = some (hash item.confirmation) ∧
      item.Waits history) ∨
    (row.confirmedAt ≠ none ∧ row.confirmationHash = none ∧ item.Open history)

/-- What holds of the tables and what was committed. -/
structure HandoffsSound (start : LoginDb δ) (p : Past (LoginDb δ) HandoffEntry) : Prop where
  keys : (p.committed.handoffs.map DesktopHandoff.codeHash).Nodup
  rows : ∀ row ∈ p.committed.handoffs, ∃ item, row.Backs hash p.history item
  lawful : InTurn HandoffEntry.Lawful p.history
  distinct : DistinctSecrets p.history
  sessions : p.committed.sessions = start.sessions ++ openedSessions hash p.history

/-- What becomes of the handoffs meanwhile: the code of one that was stored before has no other row,
and a confirmed row stays as it is until it is removed. -/
structure HandoffsAge (p p' : Past (LoginDb δ) HandoffEntry) : Prop where
  history : ∀ e ∈ p.history, e ∈ p'.history
  rows : ∀ item : NewHandoff, (.create item, .ok) ∈ p.history → ∀ row' ∈ p'.committed.handoffs,
    row'.codeHash = hash item.code → ∃ row ∈ p.committed.handoffs, row.codeHash = row'.codeHash ∧
      (row.confirmedAt ≠ none → row' = row)

instance : IsPreorder _ (HandoffsAge hash) where
  refl p := ⟨fun _ he => he, fun _ _ row hrow _ => ⟨row, hrow, rfl, fun _ => rfl⟩⟩
  trans p p' p'' h h' := by
    refine ⟨fun e he => h'.history e (h.history e he), ?_⟩
    intro item hitem row'' hrow'' hcode
    obtain ⟨row', hrow', hcode', hsame'⟩ := h'.rows item (h.history _ hitem) row'' hrow'' hcode
    obtain ⟨row, hrow, hcode'', hsame⟩ := h.rows item hitem row' hrow' (hcode'.trans hcode)
    refine ⟨row, hrow, hcode''.trans hcode', fun hconfirmed => ?_⟩
    obtain rfl := hsame hconfirmed
    exact hsame' hconfirmed

variable {hash} {start db' : LoginDb δ} {p : Past (LoginDb δ) HandoffEntry}
  {row other : DesktopHandoff δ} {item' : NewHandoff}

theorem DesktopHandoff.Backs.live (h : row.Backs hash history item) : item.Live history := by
  rcases h.stage with ⟨-, -, hwaits⟩ | ⟨-, -, hopen⟩
  · exact hwaits.toLive
  · exact hopen.toLive

theorem DesktopHandoff.Backs.snoc (h : row.Backs hash history item)
    (hconfirms : e.confirms item.confirmation = false)
    (hcancels : e.cancels item.confirmation = false) (hexchanges : e.exchanges item.code = false) :
    row.Backs hash (history ++ [e]) item :=
  { h with
    stage := h.stage.imp
      (fun ⟨hnone, hsecret, hwaits⟩ => ⟨hnone, hsecret, hwaits.snoc hcancels hexchanges hconfirms⟩)
      fun ⟨hsome, hsecret, hopen⟩ => ⟨hsome, hsecret, hopen.snoc hcancels hexchanges⟩ }

/-- A row with a secret belongs to a handoff that waits for its confirmation. -/
theorem DesktopHandoff.Backs.waits (h : row.Backs hash history item)
    (hinj : Function.Injective hash) {confirmation : String}
    (hsecret : row.confirmationHash = some (hash confirmation)) :
    row.confirmedAt = none ∧ item.confirmation = confirmation ∧ item.Waits history := by
  rcases h.stage with ⟨hnone, hown, hwaits⟩ | ⟨-, hnone, -⟩
  · rw [hsecret] at hown
    exact ⟨hnone, hinj (Option.some.inj hown).symm, hwaits⟩
  · rw [hsecret] at hnone
    cases hnone

theorem HandoffEntry.marks_of_plain (he : e.plain = true) (confirmation code : String) :
    e.confirms confirmation = false ∧ e.cancels confirmation = false ∧ e.exchanges code = false := by
  refine ⟨?_, ?_, ?_⟩
  · by_contra hmark
    obtain ⟨_, rfl⟩ := HandoffEntry.confirms_iff.mp (by simpa using hmark)
    cases he
  · by_contra hmark
    obtain ⟨_, hremoved, rfl⟩ := HandoffEntry.cancels_iff.mp (by simpa using hmark)
    exact hremoved (of_decide_eq_true he)
  · by_contra hmark
    obtain ⟨_, _, _, _, _, _, _, rfl⟩ := HandoffEntry.exchanges_iff.mp (by simpa using hmark)
    cases he

theorem HandoffEntry.lawful_of_plain (he : e.plain = true) : e.Lawful history := by
  unfold HandoffEntry.Lawful
  split
  · cases he
  · exact fun hremoved => absurd (of_decide_eq_true he) hremoved
  · cases he
  · trivial

theorem openedSessions_snoc (he : ∀ code, e.exchanges code = false) :
    openedSessions hash (history ++ [e]) = openedSessions hash history := by
  rw [openedSessions, List.filterMap_append, List.filterMap_cons]
  split
  · rw [List.filterMap_nil, List.append_nil, openedSessions]
  · rename_i heq
    split at heq
    · simp [HandoffEntry.exchanges] at he
    · cases heq

namespace HandoffsSound

variable {keep : DesktopHandoff δ → Bool} {confirmation : String}

theorem eq_of_codeHash (h : HandoffsSound hash start p) (hrow : row ∈ p.committed.handoffs)
    (hother : other ∈ p.committed.handoffs) (heq : row.codeHash = other.codeHash) : row = other :=
  List.inj_on_of_nodup_map h.keys hrow hother heq

/-- Different rows belong to different handoffs. -/
theorem item_ne (h : HandoffsSound hash start p) (hback : row.Backs hash p.history item)
    (hback' : other.Backs hash p.history item') (hne : other.codeHash ≠ row.codeHash) :
    item'.code ≠ item.code ∧ item'.confirmation ≠ item.confirmation := by
  constructor
  · intro heq
    rw [hback.codeHash, hback'.codeHash, heq] at hne
    exact hne rfl
  · intro heq
    obtain rfl := h.distinct.eq_of_confirmation hback'.live.stored hback.live.stored heq
    exact hne (hback'.codeHash.trans hback.codeHash.symm)

/-- Two rows with one secret are one. -/
theorem eq_of_secret (h : HandoffsSound hash start p) (hinj : Function.Injective hash)
    (hrow : row ∈ p.committed.handoffs)
    (hsecret : row.confirmationHash = some (hash confirmation))
    (hother : other ∈ p.committed.handoffs)
    (hsecret' : other.confirmationHash = some (hash confirmation)) : row = other := by
  obtain ⟨item, hback⟩ := h.rows row hrow
  obtain ⟨item', hback'⟩ := h.rows other hother
  obtain ⟨-, hitem, -⟩ := hback.waits hinj hsecret
  obtain ⟨-, hitem', -⟩ := hback'.waits hinj hsecret'
  by_contra hne
  have hcode : other.codeHash ≠ row.codeHash := fun heq => hne (h.eq_of_codeHash hrow hother heq.symm)
  exact (h.item_ne hback hback' hcode).2 (hitem'.trans hitem.symm)

/-- A statement that looks rows up by their secret finds one at most. -/
theorem secret_unique (h : HandoffsSound hash start p) (hinj : Function.Injective hash)
    {q : DesktopHandoff δ → Bool}
    (hq : ∀ row, q row = true → row.confirmationHash = some (hash confirmation)) :
    (p.committed.handoffs.filter q).length ≤ 1 := by
  apply length_le_one_of_nodup
  · exact (List.Nodup.of_map _ h.keys).filter _
  · intro a ha b hb
    rw [List.mem_filter] at ha hb
    exact h.eq_of_secret hinj ha.1 (hq a ha.2) hb.1 (hq b hb.2)

theorem commit_create (h : HandoffsSound hash start p) (hinj : Function.Injective hash)
    (hdistinct : DistinctSecrets (p.history ++ [(.create item, .ok)]))
    (hfresh : ∀ row ∈ p.committed.handoffs, row.codeHash ≠ hash item.code)
    (hdb : db' = { p.committed with handoffs := p.committed.handoffs ++ [item.row hash] }) :
    HandoffsSound hash start (p.append (.create item, .ok) db') ∧
      HandoffsAge hash p (p.append (.create item, .ok) db') := by
  subst hdb
  refine ⟨⟨?_, ?_, h.lawful.snoc trivial, hdistinct, ?_⟩, fun e he => List.mem_append_left _ he, ?_⟩
  · have happends : Appends DesktopHandoff.codeHash p.committed.handoffs
        (p.committed.handoffs ++ [item.row hash]) :=
      appends_row hfresh
    exact happends.2 h.keys
  · intro row hrow
    rcases List.mem_append.mp hrow with hrow | hrow
    · obtain ⟨item', hback⟩ := h.rows row hrow
      exact ⟨item', hback.snoc rfl rfl rfl⟩
    · obtain rfl := List.mem_singleton.mp hrow
      exact ⟨item, rfl, rfl, rfl,
        Or.inl ⟨rfl, rfl, NewHandoff.waits_stored h.lawful hdistinct⟩⟩
  · rw [Past.append, openedSessions_snoc fun _ => rfl]
    exact h.sessions
  · intro item' hitem' row' hrow' hcode
    rcases List.mem_append.mp hrow' with hrow' | hrow'
    · exact ⟨row', hrow', rfl, fun _ => rfl⟩
    · obtain rfl := List.mem_singleton.mp hrow'
      exact absurd (hinj hcode).symm (hdistinct.new hitem').1

/-- A call that stores no handoff: every row afterwards comes from one before. -/
theorem commit_rows (h : HandoffsSound hash start p)
    (hdistinct : DistinctSecrets (p.history ++ [e])) (hlawful : e.Lawful p.history)
    (hkeys : (db'.handoffs.map DesktopHandoff.codeHash).Nodup)
    (hsessions : db'.sessions = start.sessions ++ openedSessions hash (p.history ++ [e]))
    (hrows : ∀ row' ∈ db'.handoffs, ∃ row ∈ p.committed.handoffs, row.codeHash = row'.codeHash ∧
      (row.confirmedAt ≠ none → row' = row) ∧
      ∀ item, row.Backs hash p.history item → row'.Backs hash (p.history ++ [e]) item) :
    HandoffsSound hash start (p.append e db') ∧ HandoffsAge hash p (p.append e db') := by
  refine ⟨⟨hkeys, ?_, h.lawful.snoc hlawful, hdistinct, hsessions⟩,
    fun e he => List.mem_append_left _ he, ?_⟩
  · intro row' hrow'
    obtain ⟨row, hrow, -, -, hbacks⟩ := hrows row' hrow'
    obtain ⟨item, hback⟩ := h.rows row hrow
    exact ⟨item, hbacks item hback⟩
  · intro item _ row' hrow' _
    obtain ⟨row, hrow, hcode, hsame, -⟩ := hrows row' hrow'
    exact ⟨row, hrow, hcode, hsame⟩

/-- A call that only removes rows, and nothing that it tells of is about the others. -/
theorem commit_filter (h : HandoffsSound hash start p)
    (hdistinct : DistinctSecrets (p.history ++ [e])) (hlawful : e.Lawful p.history)
    (hhandoffs : db'.handoffs = p.committed.handoffs.filter keep)
    (hsessions : db'.sessions = start.sessions ++ openedSessions hash (p.history ++ [e]))
    (hmarks : ∀ row ∈ p.committed.handoffs, keep row = true → ∀ item,
      row.Backs hash p.history item → e.confirms item.confirmation = false ∧
        e.cancels item.confirmation = false ∧ e.exchanges item.code = false) :
    HandoffsSound hash start (p.append e db') ∧ HandoffsAge hash p (p.append e db') := by
  apply h.commit_rows hdistinct hlawful _ hsessions
  · intro row hrow
    rw [hhandoffs, List.mem_filter] at hrow
    refine ⟨row, hrow.1, rfl, fun _ => rfl, fun item hback => ?_⟩
    obtain ⟨hconfirms, hcancels, hexchanges⟩ := hmarks row hrow.1 hrow.2 item hback
    exact hback.snoc hconfirms hcancels hexchanges
  · rw [hhandoffs]
    exact h.keys.sublist (List.filter_sublist.map _)

theorem commit_confirm (h : HandoffsSound hash start p) (hinj : Function.Injective hash)
    {now : Instant}
    (hdistinct : DistinctSecrets (p.history ++ [(.confirm confirmation now, .ok)]))
    (hrow : row ∈ p.committed.handoffs) (hsecret : row.confirmationHash = some (hash confirmation))
    (hkeep : ∀ r, keep r = true ↔ r.codeHash = row.codeHash)
    (hdb : db' = { p.committed with
      handoffs := mapWhere keep (fun r => r.confirmed now) p.committed.handoffs }) :
    HandoffsSound hash start (p.append (.confirm confirmation now, .ok) db') ∧
      HandoffsAge hash p (p.append (.confirm confirmation now, .ok) db') := by
  obtain ⟨item, hback⟩ := h.rows row hrow
  obtain ⟨hnone, rfl, hwaits⟩ := hback.waits hinj hsecret
  subst hdb
  apply h.commit_rows hdistinct ⟨item, rfl, hwaits⟩
  · rw [mapWhere, List.map_map]
    refine (congrArg List.Nodup (List.map_congr_left fun r _ => ?_)).mpr h.keys
    rw [Function.comp_apply]
    split <;> rfl
  · rw [openedSessions_snoc fun _ => rfl]
    exact h.sessions
  · intro row' hrow'
    obtain ⟨q, hq, rfl⟩ := mem_mapWhere.mp hrow'
    by_cases hsame : keep q = true
    · obtain rfl := h.eq_of_codeHash hq hrow ((hkeep q).mp hsame)
      rw [if_pos hsame]
      refine ⟨q, hq, rfl, fun hconfirmed => absurd hnone hconfirmed, fun item' hback' => ?_⟩
      obtain ⟨-, heq, hwaits'⟩ := hback'.waits hinj hsecret
      have hopen := hwaits'.confirm now
      rw [heq] at hopen
      exact ⟨hback'.codeHash, hback'.identity, hback'.expiresAt, Or.inr ⟨(fun hnone => by cases hnone), rfl, hopen⟩⟩
    · rw [if_neg hsame]
      refine ⟨q, hq, rfl, fun _ => rfl, fun item' hback' => ?_⟩
      have hne := (h.item_ne hback hback' fun heq => hsame ((hkeep q).mpr heq)).2
      exact hback'.snoc (by simpa [HandoffEntry.confirms] using hne.symm) rfl rfl

variable [DecidableEq δ]

/-- **What is committed keeps the handoffs sound**, and does to them what others rely on. -/
theorem commit (h : HandoffsSound hash start p) (hinj : Function.Injective hash)
    (hdistinct : DistinctSecrets (p.history ++ [e]))
    (heffect : HandoffEntry.Effect hash p.committed e db') :
    HandoffsSound hash start (p.append e db') ∧ HandoffsAge hash p (p.append e db') := by
  cases heffect with
  | create hfresh => exact h.commit_create hinj hdistinct hfresh rfl
  | confirm hrow hsecret _ =>
      exact h.commit_confirm hinj hdistinct hrow hsecret (fun _ => decide_eq_true_iff) rfl
  | @cancel _ removed row hrow hsecret =>
      obtain ⟨item, hback⟩ := h.rows row hrow
      obtain ⟨-, rfl, hwaits⟩ := hback.waits hinj hsecret
      apply h.commit_filter hdistinct (fun _ => ⟨item, rfl, hwaits⟩) rfl
      · rw [openedSessions_snoc fun _ => rfl]
        exact h.sessions
      · intro other _ hkeep item' hback'
        have hne := (h.item_ne hback hback' (of_decide_eq_true hkeep)).2
        exact ⟨rfl, by simp [HandoffEntry.cancels, hne.symm], rfl⟩
  | @exchange code token checked now lifetime row hrow hcode hconfirmed hlive =>
      obtain ⟨item, hback⟩ := h.rows row hrow
      have hopen : item.Open p.history :=
        (hback.stage.resolve_left fun hstage => hconfirmed hstage.1).2.2
      obtain rfl : item.code = code := hinj (hback.codeHash.symm.trans hcode)
      apply h.commit_filter hdistinct
        ⟨item, rfl, hopen, hback.expiresAt ▸ hlive, hback.identity.symm⟩ rfl
      · rw [openedSessions, List.filterMap_append, ← openedSessions, h.sessions,
          ← List.append_assoc]
        rfl
      · intro other _ hkeep item' hback'
        have hne : other.codeHash ≠ row.codeHash := by
          rw [hcode]
          exact of_decide_eq_true hkeep
        refine ⟨rfl, rfl, ?_⟩
        simp [HandoffEntry.exchanges, (h.item_ne hback hback' hne).1.symm]
  | plain he keep =>
      apply h.commit_filter hdistinct (HandoffEntry.lawful_of_plain he) rfl
      · rw [openedSessions_snoc fun code => (HandoffEntry.marks_of_plain he "" code).2.2]
        exact h.sessions
      · exact fun _ _ _ item _ => HandoffEntry.marks_of_plain he _ _

end HandoffsSound

end Effect

section Interleaved

variable [DecidableEq δ] {hash : String → δ} {svc : Service} {start : LoginDb δ}
  {p p' : Past (LoginDb δ) HandoffEntry} {q : DesktopHandoff δ → Bool} {now : Instant}
  {R : List (LoginKey δ) → Past (LoginDb δ) HandoffEntry → Past (LoginDb δ) HandoffEntry → Prop}
  {log : List (Write (LoginDb δ) (LoginKey δ))} {code confirmation : String}

/-- The transaction does what its call stands for, when it is committed. -/
def HandoffCall.Comes (hash : String → δ) (call : HandoffCall)
    (log : List (Write (LoginDb δ) (LoginKey δ))) (answer : HandoffAnswer)
    (p : Past (LoginDb δ) HandoffEntry) : Prop :=
  HandoffEntry.Effect hash p.committed (call, answer) (replay log p.committed)

/-- A row that the transaction has changed is there as it was. -/
theorem mem_handoffs_of_stable {I : Past (LoginDb δ) HandoffEntry → Prop}
        (h : Stable I R log p p') {row : DesktopHandoff δ}
    (hlocked : LoginKey.handoff row.codeHash ∈ lockedBy log) :
    row ∈ p'.committed.handoffs ↔ row ∈ p.committed.handoffs := by
  have hrows := h.rows desktopHandoffTable hlocked
  have hmem (db : LoginDb δ) : row ∈ db.handoffs ↔ row ∈ (desktopHandoffTable.rows db).filter
      fun r => desktopHandoffTable.key r = LoginKey.handoff row.codeHash := by
    rw [List.mem_filter]
    exact ⟨fun h => ⟨h, decide_eq_true rfl⟩, fun h => h.1⟩
  rw [hmem, hmem, hrows]

theorem keeps_createDesktopHandoff :
    (createDesktopHandoff hash item).Keeps (HandoffsSound hash start) (fun _ => HandoffsAge hash)
      ((HandoffCall.create item).Comes hash) [] p := by
  apply Tx.keeps_lift_bind
  intro _ _
  apply Tx.keeps_insert_bind
  intro p1 _ _ hfresh
  apply Tx.keeps_pure
  intro p2 hp2
  apply HandoffEntry.Effect.create
  intro row hrow heq
  have hlocked : LoginKey.handoff row.codeHash ∈
      lockedBy ([] ++ [desktopHandoffTable.add (item.row hash)]) := by
    simp [lockedBy, heq, desktopHandoffTable, NewHandoff.row]
  rw [mem_handoffs_of_stable hp2 hlocked] at hrow
  exact hfresh row hrow (congrArg LoginKey.handoff heq)

/-- A statement that changes the rows with a secret changes none, or one; and that one alone when it
is carried out. -/
theorem hit_secret (h : HandoffsSound hash start p) (hinj : Function.Injective hash)
        (hq : ∀ row, q row = true → row.confirmationHash = some (hash confirmation)) :
    desktopHandoffTable.hit q p.committed = [] ∨ ∃ row ∈ p.committed.handoffs, q row = true ∧
      desktopHandoffTable.hit q p.committed = [.handoff row.codeHash] := by
  have hone := h.secret_unique hinj hq
  rw [Table.hit]
  cases hhit : p.committed.handoffs.filter q with
  | nil =>
      left
      show (p.committed.handoffs.filter q).map _ = []
      rw [hhit, List.map_nil]
  | cons row rest =>
      right
      rw [hhit] at hone
      obtain rfl : rest = [] := by simpa using hone
      have hrow : row ∈ p.committed.handoffs.filter q := by simp [hhit]
      rw [List.mem_filter] at hrow
      refine ⟨row, hrow.1, hrow.2, ?_⟩
      show (p.committed.handoffs.filter q).map _ = _
      rw [hhit]
      rfl

theorem hit_carried_out
        (h : HandoffsSound hash start p) (hstable : Stable (HandoffsSound hash start) R log p p')
    {row : DesktopHandoff δ} (hrow : row ∈ p.committed.handoffs)
    (hq : q row = true) (hlocked : LoginKey.handoff row.codeHash ∈ lockedBy log) :
    ∀ r ∈ p'.committed.handoffs,
      (q r && decide (desktopHandoffTable.key r ∈ [LoginKey.handoff row.codeHash])) =
        decide (r.codeHash = row.codeHash) := by
  intro r hr
  by_cases hcode : r.codeHash = row.codeHash
  · rw [← hcode] at hlocked
    obtain rfl := h.eq_of_codeHash ((mem_handoffs_of_stable hstable hlocked).mp hr) hrow hcode
    simp [hq, desktopHandoffTable]
  · simp [hcode, desktopHandoffTable]

theorem keeps_confirmDesktopHandoff (hinj : Function.Injective hash)
    :
    (confirmDesktopHandoff hash svc confirmation now).Keeps (HandoffsSound hash start)
      (fun _ => HandoffsAge hash) ((HandoffCall.confirm confirmation now).Comes hash) [] p := by
  apply Tx.keeps_updateWhere_bind
  intro p1 v hp1 hrows happly
  rw [replay_nil] at hrows
  have hsecret : ∀ row : DesktopHandoff δ, row.confirmable hash svc confirmation now = true →
      row.confirmationHash = some (hash confirmation) ∧ row.confirmedAt = none := by
    intro row hrow
    simp only [DesktopHandoff.confirmable, Bool.and_eq_true, decide_eq_true_eq, Option.isNone_iff_eq_none] at hrow
    exact hrow.1
  rcases hit_secret hp1.inv hinj fun row hrow => (hsecret row hrow).1 with
    hnone | ⟨row, hrow, hq, hhit⟩
  · rw [hnone] at hrows
    rw [hrows, if_pos (by simp)]
    apply Tx.keeps_pure
    intro p2 hp2
    have hsame : v.apply p2.committed = p2.committed := by
      rw [happly, hrows, mapWhere_of_none fun _ _ => by simp]
      rfl
    show HandoffEntry.Effect hash p2.committed _ (v.apply p2.committed)
    rw [hsame]
    exact HandoffEntry.Effect.unchanged rfl
  · rw [hhit] at hrows
    rw [hrows, if_neg (by simp)]
    apply Tx.keeps_pure
    intro p2 hp2
    have hlocked : LoginKey.handoff row.codeHash ∈ lockedBy ([] ++ [v]) := by
      simp [lockedBy, hrows]
    have hchanged : v.apply p2.committed = { p2.committed with
        handoffs := mapWhere (fun r => r.codeHash = row.codeHash) (fun r => r.confirmed now)
          p2.committed.handoffs } := by
      rw [happly, hrows]
      exact congrArg (LoginDb.mk · p2.committed.sessions)
        (mapWhere_congr (hit_carried_out hp1.inv hp2 hrow hq hlocked))
    show HandoffEntry.Effect hash p2.committed _ (v.apply p2.committed)
    rw [hchanged]
    exact .confirm ((mem_handoffs_of_stable hp2 hlocked).mpr hrow) (hsecret row hq).1
      (hsecret row hq).2

theorem keeps_cancelDesktopHandoff (hinj : Function.Injective hash) :
    (cancelDesktopHandoff hash confirmation).Keeps (HandoffsSound hash start) (fun _ => HandoffsAge hash)
      ((HandoffCall.cancel confirmation).Comes hash) [] p := by
  apply Tx.keeps_deleteWhere_bind
  intro p1 v hp1 hrows happly
  rw [replay_nil] at hrows
  have hsecret : ∀ row : DesktopHandoff δ,
      decide (row.confirmationHash = some (hash confirmation)) = true →
        row.confirmationHash = some (hash confirmation) :=
    fun row hrow => of_decide_eq_true hrow
  rcases hit_secret hp1.inv hinj hsecret with hnone | ⟨row, hrow, hq, hhit⟩
  · rw [hnone] at hrows
    rw [hrows]
    apply Tx.keeps_pure
    intro p2 hp2
    have hsame : v.apply p2.committed = p2.committed := by
      rw [happly, hrows, List.filter_eq_self.mpr fun _ _ => by simp]
      rfl
    show HandoffEntry.Effect hash p2.committed _ (v.apply p2.committed)
    rw [hsame]
    exact HandoffEntry.Effect.unchanged rfl
  · rw [hhit] at hrows
    rw [hrows]
    apply Tx.keeps_pure
    intro p2 hp2
    have hlocked : LoginKey.handoff row.codeHash ∈ lockedBy ([] ++ [v]) := by
      simp [lockedBy, hrows]
    have hchanged : v.apply p2.committed = { p2.committed with
        handoffs := p2.committed.handoffs.filter fun r => r.codeHash ≠ row.codeHash } := by
      have hcarried := hit_carried_out (q := fun r => r.confirmationHash = some (hash confirmation))
        hp1.inv hp2 hrow hq hlocked
      rw [happly, hrows]
      apply congrArg (LoginDb.mk · p2.committed.sessions)
      apply List.filter_congr
      intro r hr
      rw [hcarried r hr, decide_not]
    show HandoffEntry.Effect hash p2.committed _ (v.apply p2.committed)
    rw [hchanged]
    exact .cancel ((mem_handoffs_of_stable hp2 hlocked).mpr hrow) (hsecret row hq)

theorem keeps_pendingDesktopHandoff :
    (pendingDesktopHandoff hash confirmation now).Keeps (HandoffsSound hash start)
      (fun _ => HandoffsAge hash) ((HandoffCall.pending confirmation now).Comes hash) [] p := by
  apply Tx.keeps_selectOr_bind
  intro p1 row hp1 _
  apply Tx.keeps_ite
  · intro _
    apply Tx.keeps_deleteWhere_bind
    intro p2 v _ _ happly
    apply Tx.keeps_pure
    intro p3 _
    show HandoffEntry.Effect hash p3.committed _ (v.apply p3.committed)
    rw [happly]
    exact .plain rfl _
  · intro _
    apply Tx.keeps_pure
    intro p2 _
    exact HandoffEntry.Effect.unchanged rfl

/-- Between its query and its `DELETE` the row may go, but none comes in its place. -/
theorem hit_code (h : HandoffsSound hash start p)
    (hage : HandoffsAge hash p p') {row : DesktopHandoff δ}
    (hrow : row ∈ p.committed.handoffs) (hcode : row.codeHash = hash code)
    (hconfirmed : row.confirmedAt ≠ none)
    (hcount : (desktopHandoffTable.hit (fun r => r.codeHash = hash code) p'.committed).length = 1) :
    row ∈ p'.committed.handoffs ∧
      desktopHandoffTable.hit (fun r => r.codeHash = hash code) p'.committed =
        [.handoff row.codeHash] := by
  change ((p'.committed.handoffs.filter fun r => r.codeHash = hash code).map _).length = 1 at hcount
  rw [List.length_map, List.length_eq_one_iff] at hcount
  obtain ⟨row', hhit⟩ := hcount
  have hmem : row' ∈ p'.committed.handoffs.filter fun r => r.codeHash = hash code := by
    simp [hhit]
  rw [List.mem_filter, decide_eq_true_eq] at hmem
  obtain ⟨item, hback⟩ := h.rows row hrow
  have hsame : row' = row := by
    obtain ⟨q, hq, hqcode, hkept⟩ := hage.rows item hback.live.stored row' hmem.1
      (hmem.2.trans (hcode.symm.trans hback.codeHash))
    obtain rfl := h.eq_of_codeHash hq hrow (hqcode.trans (hmem.2.trans hcode.symm))
    exact hkept hconfirmed
  subst hsame
  refine ⟨hmem.1, ?_⟩
  show (p'.committed.handoffs.filter fun r => r.codeHash = hash code).map _ = _
  rw [hhit]
  rfl

theorem keeps_exchangeDesktopHandoff {token : String}
    {checked : Instant} {lifetime : Duration} :
    (exchangeDesktopHandoff hash code token checked now lifetime).Keeps (HandoffsSound hash start)
      (fun _ => HandoffsAge hash) ((HandoffCall.exchange code token checked now lifetime).Comes hash) []
      p := by
  apply Tx.keeps_selectOr_bind
  intro p1 row hp1 hfound
  apply Tx.keeps_ite
  · intro _
    apply Tx.keeps_deleteWhere_bind
    intro p2 v _ _ happly
    apply Tx.keeps_pure
    intro p3 _
    show HandoffEntry.Effect hash p3.committed _ (v.apply p3.committed)
    rw [happly]
    exact .plain rfl _
  · intro hlive
    apply Tx.keeps_deleteWhere_bind
    intro p2 v hp2 hrows happly
    apply Tx.keeps_lift_bind
    intro _ hcount
    apply Tx.keeps_insert_bind
    intro p3 hp3 _ _
    apply Tx.keeps_pure
    intro p4 hp4
    rw [found_ok_iff] at hfound
    have hrow : row ∈ p1.committed.handoffs := List.mem_of_find?_eq_some hfound
    have hcond := List.find?_some hfound
    rw [Bool.and_eq_true, decide_eq_true_eq, Option.isSome_iff_ne_none] at hcond
    obtain ⟨hcode, hconfirmed⟩ := hcond
    -- The row that was deleted is the row that was read.
    rw [replay_nil] at hrows
    rw [refuse_ok_iff, not_not, hrows] at hcount
    have hdeleted := hit_code hp1.inv hp2.rely hrow hcode hconfirmed hcount
    rw [← hrows] at hdeleted
    have hlocked : LoginKey.handoff row.codeHash ∈ lockedBy ([] ++ [v]) := by
      simp [lockedBy, hdeleted.2]
    have hthere : row ∈ p4.committed.handoffs := by
      rw [mem_handoffs_of_stable hp4 (by rw [lockedBy_append]; exact List.mem_append_left _ hlocked),
        mem_handoffs_of_stable hp3 hlocked]
      exact hdeleted.1
    have hremoved : v.apply p4.committed = { p4.committed with
        handoffs := p4.committed.handoffs.filter fun r => r.codeHash ≠ hash code } := by
      rw [happly, hdeleted.2]
      apply congrArg (LoginDb.mk · p4.committed.sessions)
      apply List.filter_congr
      intro r _
      simp [desktopHandoffTable, hcode]
    show HandoffEntry.Effect hash p4.committed _ ((browserSessionTable.add _).apply
      (v.apply p4.committed))
    rw [hremoved]
    exact .exchange hthere hcode hconfirmed (not_not.mp hlive)

/-- **Every call comes to what it stands for.** -/
theorem keeps_handoffCall (hinj : Function.Injective hash) (call : HandoffCall)
    (p : Past (LoginDb δ) HandoffEntry) :
    (call.tx svc hash).Keeps (HandoffsSound hash start) (fun _ => HandoffsAge hash) (call.Comes hash) []
      p := by
  cases call with
  | create item => exact keeps_createDesktopHandoff
  | pending confirmation now => exact keeps_pendingDesktopHandoff
  | confirm confirmation now => exact keeps_confirmDesktopHandoff hinj
  | cancel confirmation => exact keeps_cancelDesktopHandoff hinj
  | exchange code token checked now lifetime => exact keeps_exchangeDesktopHandoff

/-- The handoffs that have been stored had codes and secrets of their own. -/
def SecretsFresh (_ server' : Server (LoginDb δ) (LoginKey δ) ServiceError HandoffAnswer HandoffCall) :
    Prop :=
  DistinctSecrets server'.past.history

theorem handoffsSound_of_runs (hinj : Function.Injective hash) (hstart : start.handoffs = [])
    {server : Server (LoginDb δ) (LoginKey δ) ServiceError HandoffAnswer HandoffCall}
    (h : Runs (HandoffCall.tx svc hash) SecretsFresh start server) :
    HandoffsSound hash start server.past := by
  have hkept : Kept (HandoffsSound hash start) (fun _ _ => HandoffsAge hash)
      (HandoffCall.Comes hash) server := by
    apply h.keeps
    · exact ⟨by simp [hstart], by simp [hstart], inTurn_nil, ⟨List.nodup_nil, List.nodup_nil⟩,
        (List.append_nil _).symm⟩
    · exact fun call p _ => keeps_handoffCall hinj call p
    · rintro server server' x answer others hfresh ⟨_, _, -, -, -, rfl⟩ hsound hcomes
      obtain ⟨hsound', hage⟩ := hsound.commit hinj hfresh hcomes
      exact ⟨hsound', fun _ _ _ => hage⟩
  exact hkept.inv

/-- A secret that has cancelled a handoff leaves its code without a session. -/
theorem not_exchanged_of_cancels
    (h : InTurn HandoffEntry.Lawful history) (hdistinct : DistinctSecrets history)
    (hitem : (.create item, .ok) ∈ history) {e' : HandoffEntry} (he : e ∈ history)
    (hcancels : e.cancels item.confirmation = true) (he' : e' ∈ history) :
    e'.exchanges item.code = false := by
  by_contra hmark
  obtain ⟨_, _, _, _, _, _, _, rfl⟩ := HandoffEntry.exchanges_iff.mp (by simpa using hmark)
  obtain ⟨removed, hremoved, rfl⟩ := HandoffEntry.cancels_iff.mp hcancels
  obtain ⟨before, after, hsplit⟩ := List.append_of_mem he
  obtain ⟨before', after', hsplit'⟩ := List.append_of_mem he'
  obtain ⟨stored, hsecret, hwaits⟩ := h before _ after hsplit hremoved
  obtain ⟨spent, hcode, hopen, -⟩ := h before' _ after' hsplit'
  have hin : ∀ e ∈ before, e ∈ history := fun e he => hsplit ▸ List.mem_append_left _ he
  have hin' : ∀ e ∈ before', e ∈ history := fun e he => hsplit' ▸ List.mem_append_left _ he
  obtain rfl := hdistinct.eq_of_confirmation (hin _ hwaits.stored) hitem hsecret
  obtain rfl := hdistinct.eq_of_code (hin' _ hopen.stored) hitem hcode
  -- Whichever of the two was first, the other was not lawful.
  rcases mem_before_or (hsplit.symm.trans hsplit') with heq | hfirst | hfirst
  · cases heq
  · have hnot := hopen.uncancelled _ hfirst
    rw [hcancels] at hnot
    cases hnot
  · exact hmark (hwaits.unspent _ hfirst)

/-- **A code yields one session.** -/
theorem handoff_code_yields_one_session (hinj : Function.Injective hash)
    (hstart : start.handoffs = [])
    {server : Server (LoginDb δ) (LoginKey δ) ServiceError HandoffAnswer HandoffCall}
    (h : Runs (HandoffCall.tx svc hash) SecretsFresh start server) :
    (∀ code, (server.past.history.filter (HandoffEntry.exchanges code)).length ≤ 1) ∧
      server.past.committed.sessions = start.sessions ++ openedSessions hash server.past.history ∧
      (∀ before after code token checked now lifetime token' expires identity,
        server.past.history = before ++
          (.exchange code token checked now lifetime, .session token' expires identity) :: after →
        ∃ (item : NewHandoff) (confirmedAt : Instant), item.code = code ∧ checked < item.expiresAt ∧
          List.Sublist [(.create item, .ok), (.confirm item.confirmation confirmedAt, .ok)] before) ∧
      (∀ item, (.create item, .ok) ∈ server.past.history → ∀ e ∈ server.past.history,
        HandoffEntry.cancels item.confirmation e = true → ∀ e' ∈ server.past.history,
          HandoffEntry.exchanges item.code e' = false) ∧
      ∀ confirmation,
        (server.past.history.filter (HandoffEntry.confirms confirmation)).length ≤ 1 := by
  have hsound := handoffsSound_of_runs hinj hstart h
  refine ⟨fun code => ?_, hsound.sessions, ?_, ?_, fun confirmation => ?_⟩
  · apply hsound.lawful.length_filter_le_one
    intro before e hlaw hmark
    obtain ⟨_, _, _, _, _, _, _, rfl⟩ := HandoffEntry.exchanges_iff.mp hmark
    obtain ⟨item, rfl, hopen, -⟩ := hlaw
    exact hopen.unspent
  · intro before after code token checked now lifetime token' expires identity hsplit
    obtain ⟨item, hcode, hopen, hlive, -⟩ := hsound.lawful before _ after hsplit
    obtain ⟨confirmedAt, hconfirmed⟩ := hopen.confirmed
    exact ⟨item, confirmedAt, hcode, hlive, hconfirmed⟩
  · intro item hitem e he hcancels e' he'
    exact not_exchanged_of_cancels hsound.lawful hsound.distinct hitem he hcancels he'
  · apply hsound.lawful.length_filter_le_one
    intro before e hlaw hmark
    obtain ⟨_, rfl⟩ := HandoffEntry.confirms_iff.mp hmark
    obtain ⟨item, rfl, hwaits⟩ := hlaw
    exact hwaits.unconfirmed

/-- A browser stores a handoff of five minutes. -/
def sampleHandoff : NewHandoff where
  code := "desktop-code"
  confirmation := "browser-secret"
  verificationCode := "1234"
  identity := { subject := "ann" }
  now := 0
  lifetime := 5 * minute

instance (history : List HandoffEntry) : Decidable (DistinctSecrets history) :=
  decidable_of_iff (((storedHandoffs history).map NewHandoff.code).Nodup ∧
      ((storedHandoffs history).map NewHandoff.confirmation).Nodup)
    ⟨fun h => ⟨h.1, h.2⟩, fun h => ⟨h.codes, h.confirmations⟩⟩

/-- Two exchanges read the confirmed handoff before either has deleted it, and one of them gets a
session. -/
theorem two_exchanges_yield_one_session :
    ∃ server : Server (LoginDb String) (LoginKey String) ServiceError HandoffAnswer HandoffCall,
      server.past.committed.sessions.length = 1 ∧ server.past.history.length = 3 ∧
        (server.past.history.filter (HandoffEntry.exchanges "desktop-code")).length ≤ 1 := by
  have hrun : ∃ server, Runs (HandoffCall.tx .ascii id) SecretsFresh ({} : LoginDb String) server ∧
      decide (server.past.committed.sessions.length = 1 ∧ server.past.history.length = 3) = true :=
    exists_run (fun _ server' => DistinctSecrets server'.past.history)
      [.start (.create sampleHandoff), .next 0, .next 0,
        .start (.confirm "browser-secret" 60), .next 0, .next 0,
        .start (.exchange "desktop-code" "token" 90 90 hour),
        .start (.exchange "desktop-code" "other" 91 91 hour),
        .next 0, .next 1, .next 0, .next 0, .next 0, .next 0, .next 0]
      (fun _ _ h => (of_decide_eq_true h : DistinctSecrets _)) (by decide +kernel)
  obtain ⟨server, hruns, hstate⟩ := hrun
  obtain ⟨hsessions, hhistory⟩ := of_decide_eq_true hstate
  have hone := (handoff_code_yields_one_session Function.injective_id rfl hruns).1
  exact ⟨server, hsessions, hhistory, hone "desktop-code"⟩

end Interleaved

end Taskboard
