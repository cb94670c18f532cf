import Taskboard.LeaseTimes

/-!
# The rate at which an agent picks up work

An agent's policy may limit how many runs it opens in a minute. The runs are counted at one reading
of the clock, and the new run is dated at a later one, in a transaction of its own; what holds the
two together is the mutex of the pickups, and a clock that does not go back. So the runs counted
are those of at least the last minute before the new one, and no run comes in between.
-/

namespace Taskboard

variable {run : AgentRun} {after : Db} {env : Env} {checked : Instant} {svc : Service}

variable {principal : Principal} {ι : Type}

/-- The starts and claims of an agent. -/
def Op.picks (principal : Principal) : Op → Bool
  | .start _ _ caller | .claim _ _ _ caller => caller = principal
  | _ => false

/-- The runs that the agent's starts and claims opened, the latest first. -/
def pickedUp {ι : Type} (ops : ι → Op) (principal : Principal) (commits : List (Commit ι Db)) :
    List AgentRun :=
  commits.flatMap fun commit =>
    if (ops commit.thread).picks principal then
      commit.after.runs.filter fun run => run.id ∉ commit.before.runs.map (·.id)
    else []

/-- The clock does not go back: what was committed before a call has the mutex carries a time that
was read before, and the call reads the clock with the mutex in hand. -/
def Clocked {ι : Type} (ops : ι → Op) : Act ι Mutex → Scene ι Db → Prop
  | .takes i .pickup, scene => ∀ commit ∈ scene.commits,
      (ops commit.thread).env.now ≤ (ops i).env.checked
  | _, _ => True

instance {ι : Type} (ops : ι → Op) : (act : Act ι Mutex) → (scene : Scene ι Db) →
    Decidable (Clocked ops act scene)
  | .takes i .pickup, scene => inferInstanceAs (Decidable (∀ commit ∈ scene.commits,
      (ops commit.thread).env.now ≤ (ops i).env.checked))
  | .takes _ .idempotency, _ | .sees _, _ | .commits _, _ => .isTrue trivial

/-- Starts, the latest first, each with fewer than `limit` in the minute before it. -/
def Paced (limit : Int) : List AgentRun → Prop
  | [] => True
  | run :: earlier =>
      (∀ row ∈ earlier, row.startedAt ≤ run.startedAt) ∧
      ((earlier.filter fun row => run.startedAt - minute ≤ row.startedAt).length : Int) < limit ∧
      Paced limit earlier

/-- In every closed minute at most `limit` of the starts lie: the latest of them counted the others. -/
theorem Paced.window {limit : Int} {runs : List AgentRun} (h : Paced limit runs) (hlimit : 0 ≤ limit)
    (t : Instant) :
    ((runs.filter fun run => t ≤ run.startedAt ∧ run.startedAt ≤ t + minute).length : Int) ≤ limit := by
  induction runs with
  | nil => simpa using hlimit
  | cons run earlier ih =>
      obtain ⟨hlast, hcount, hearlier⟩ := h
      by_cases hin : t ≤ run.startedAt ∧ run.startedAt ≤ t + minute
      · have hwithin : (earlier.filter fun row => t ≤ row.startedAt ∧ row.startedAt ≤ t + minute).length ≤
            (earlier.filter fun row => run.startedAt - minute ≤ row.startedAt).length := by
          refine (List.monotone_filter_right earlier fun row hrow => ?_).length_le
          simp only [decide_eq_true_eq] at hrow ⊢
          exact (Int.sub_right_le_of_le_add hin.2).trans hrow.1
        rw [List.filter_cons_of_pos (by simpa using hin), List.length_cons]
        omega
      · rw [List.filter_cons_of_neg (by simpa using hin)]
        exact ih hearlier

section Rate

variable {ops : ι → Op} {scene : Scene ι Db} {α : Type} {i : ι}

/-- What is kept of the runs that were picked up. -/
structure Rated (ops : ι → Op) (principal : Principal) (scene : Scene ι Db) : Prop where
  paced : Paced principal.policy.maxPickupsPerMinute (pickedUp ops principal scene.commits)
  stored : ∀ run ∈ pickedUp ops principal scene.commits, ∃ row ∈ scene.state.runs,
    row.id = run.id ∧ row.agent = principal.id ∧ row.startedAt = run.startedAt
  nodup : ((pickedUp ops principal scene.commits).map (·.id)).Nodup
  dated : ∀ run ∈ pickedUp ops principal scene.commits, ∃ commit ∈ scene.commits,
    run.startedAt = (ops commit.thread).env.now

/-- The agent picks up work only with the mutex in hand. -/
def pickupAgreement (ops : ι → Op) (principal : Principal) : Agreement ι Db Mutex where
  ok := Clocked ops
  mutex := .pickup
  inv := Rated ops principal
  rely _ held s s' :=
    held = true → pickedUp ops principal s'.commits = pickedUp ops principal s.commits
  guar _ held s s' := Rated ops principal s' ∧
    (held = true ∨ pickedUp ops principal s'.commits = pickedUp ops principal s.commits)
  refl _ _ _ _ := rfl
  trans h h' hheld := (h' hheld).trans (h hheld)
  keeps_inv _ h := h.1
  compat _ hboth _ h hheld := h.2.resolve_left (by simp_all)

/-- Fewer runs than the limit were picked up in the minute before `checked`. -/
def Spare (ops : ι → Op) (principal : Principal) (checked : Instant) (scene : Scene ι Db) : Prop :=
  (((pickedUp ops principal scene.commits).filter fun run =>
    checked - minute ≤ run.startedAt).length : Int) < principal.policy.maxPickupsPerMinute

theorem Rated.spare (hinstants : ∀ a b, svc.before a b = true ↔ a < b)
    (h : Rated ops principal scene)
    (hcount : ((scene.state.runs.filter fun run =>
      run.agent = principal.id && !svc.before run.startedAt (checked - minute)).length : Int) <
        principal.policy.maxPickupsPerMinute) : Spare ops principal checked scene := by
  have hsub : ((pickedUp ops principal scene.commits).filter fun run =>
      checked - minute ≤ run.startedAt).map (·.id) ⊆
      (scene.state.runs.filter fun run =>
        run.agent = principal.id && !svc.before run.startedAt (checked - minute)).map (·.id) := by
    intro id hid
    obtain ⟨run, hrun, rfl⟩ := List.mem_map.mp hid
    obtain ⟨hrun, hlate⟩ := List.mem_filter.mp hrun
    obtain ⟨row, hrow, hsame, hagent, hstarted⟩ := h.stored run hrun
    refine List.mem_map.mpr ⟨row, List.mem_filter.mpr ⟨hrow, ?_⟩, hsame⟩
    have hnot : ¬ svc.before row.startedAt (checked - minute) = true := by
      rw [hinstants, hstarted]
      exact not_lt.mpr (of_decide_eq_true hlate)
    simp [hagent, Bool.eq_false_iff.mpr hnot]
  have hnodup : ((pickedUp ops principal scene.commits).filter fun run =>
      checked - minute ≤ run.startedAt).map (·.id) |>.Nodup :=
    h.nodup.sublist (List.filter_sublist.map _)
  have hle := (List.subperm_of_subset hnodup hsub).length_le
  rw [List.length_map, List.length_map] at hle
  unfold Spare
  omega

/-- A call that is none of the agent's starts and claims leaves what was picked up alone. -/
theorem pickedUp_other (hother : (ops i).picks principal = false):
    pickedUp ops principal (scene.commit i after).commits = pickedUp ops principal scene.commits := by
  simp [pickedUp, Scene.commit, hother]

/-- A start or a claim picks up the run that it opens. -/
theorem pickedUp_own
    (hpicks : (ops i).picks principal = true) (hfresh : ∀ row ∈ scene.state.runs, row.id ≠ run.id)
    (hruns : after.runs = scene.state.runs ++ [run]) :
    pickedUp ops principal (scene.commit i after).commits =
      run :: pickedUp ops principal scene.commits := by
  have hopened : after.runs.filter (fun row => row.id ∉ scene.state.runs.map (·.id)) = [run] := by
    rw [hruns, List.filter_append, List.filter_eq_nil_iff.mpr, List.nil_append]
    · refine List.filter_cons_of_pos (decide_eq_true fun hmem => ?_)
      obtain ⟨row, hrow, hid⟩ := List.mem_map.mp hmem
      exact hfresh row hrow hid
    · intro row hrow
      simpa using ⟨row, hrow, rfl⟩
  rw [pickedUp, Scene.commit, List.flatMap_cons, if_pos hpicks, hopened]
  rfl

theorem Rated.other (h : Rated ops principal scene)
    {lg : List Ledger} {ev : Event → Prop} (hother : (ops i).picks principal = false)
    (hafter : Loose lg ev scene.state after) : Rated ops principal (scene.commit i after) := by
  obtain ⟨kept, added, hrows, hkept, -⟩ := hafter.runs
  refine ⟨?_, ?_, ?_, ?_⟩
  · rw [pickedUp_other hother]
    exact h.paced
  · intro run hrun
    rw [pickedUp_other hother] at hrun
    obtain ⟨row, hrow, hid, hagent, hstarted⟩ := h.stored run hrun
    obtain ⟨row', hrow', hsame⟩ := exists_next_of_forall₂ hkept hrow
    simp only [SameKey, Prod.mk.injEq] at hsame
    refine ⟨row', ?_, hsame.1.trans hid, hsame.2.2.1.trans hagent, hsame.2.2.2.trans hstarted⟩
    show row' ∈ after.runs
    rw [hrows]
    exact List.mem_append_left _ hrow'
  · rw [pickedUp_other hother]
    exact h.nodup
  · intro run hrun
    rw [pickedUp_other hother] at hrun
    obtain ⟨commit, hcommit, hnow⟩ := h.dated run hrun
    exact ⟨commit, List.mem_cons_of_mem _ hcommit, hnow⟩

theorem Rated.own (h : Rated ops principal scene)
    (hpicks : (ops i).picks principal = true)
    (hfresh : ∀ row ∈ scene.state.runs, row.id ≠ run.id)
    (hruns : after.runs = scene.state.runs ++ [run]) (hagent : run.agent = principal.id)
    (hstarted : run.startedAt = (ops i).env.now)
    (hclock : (ops i).env.checked ≤ (ops i).env.now)
    (hearlier : ∀ row ∈ pickedUp ops principal scene.commits,
      row.startedAt ≤ (ops i).env.checked)
    (hspare : Spare ops principal (ops i).env.checked scene) :
    Rated ops principal (scene.commit i after) := by
  have hpicked := pickedUp_own hpicks hfresh hruns
  refine ⟨?_, ?_, ?_, ?_⟩
  · rw [hpicked]
    refine ⟨fun row hrow => ?_, ?_, h.paced⟩
    · rw [hstarted]
      exact (hearlier row hrow).trans hclock
    · refine lt_of_le_of_lt (Int.ofNat_le.mpr ?_) hspare
      refine (List.monotone_filter_right _ fun row hrow => ?_).length_le
      simp only [decide_eq_true_eq, hstarted] at hrow ⊢
      exact (Int.sub_le_sub_right hclock minute).trans hrow
  · intro row hrow
    rw [hpicked] at hrow
    show ∃ kept ∈ after.runs, _
    rw [hruns]
    rcases List.mem_cons.mp hrow with rfl | hrow
    · exact ⟨row, List.mem_append_right _ List.mem_cons_self, rfl, hagent, rfl⟩
    · obtain ⟨kept, hkept, hsame⟩ := h.stored row hrow
      exact ⟨kept, List.mem_append_left _ hkept, hsame⟩
  · rw [hpicked, List.map_cons, List.nodup_cons]
    refine ⟨fun hmem => ?_, h.nodup⟩
    obtain ⟨row, hrow, hid⟩ := List.mem_map.mp hmem
    obtain ⟨kept, hkept, hsame, -, -⟩ := h.stored row hrow
    exact hfresh kept hkept (hsame.trans hid)
  · intro row hrow
    rw [hpicked] at hrow
    rcases List.mem_cons.mp hrow with rfl | hrow
    · exact ⟨_, List.mem_cons_self, hstarted⟩
    · obtain ⟨commit, hcommit, hnow⟩ := h.dated row hrow
      exact ⟨commit, List.mem_cons_of_mem _ hcommit, hnow⟩

/-- Behind the check of the limits there is room for one more run: what was picked up stays as it
is while the mutex is in hand. -/
theorem keeps_enforceAgentPickupLimits
    {f : Unit → CallM α} {post : Bool → α → Scene ι Db → Prop}
    (hinstants : ∀ a b, svc.before a b = true ↔ a < b) (hagent : principal.agent = true)
    (hlimit : 0 < principal.policy.maxPickupsPerMinute) (hinv : Rated ops principal scene)
    (h : ∀ s', (pickupAgreement ops principal).rely i true scene s' → Rated ops principal s' →
      Spare ops principal checked s' →
      (f ()).Keeps (pickupAgreement ops principal) i post true s') :
    (enforceAgentPickupLimits svc principal checked >>= f).Keeps (pickupAgreement ops principal) i
      post true scene := by
  refine Call.keeps_bind ?_ hinv
  rw [enforceAgentPickupLimits, if_pos hagent]
  refine Call.keeps_quiet_bind (Call.quiet_ite (Call.quiet_bind (Call.quiet_look _) fun _ =>
    Call.quiet_lift _) (Call.quiet_pure _)) (fun _ s1 hrely1 _ => ?_) hinv
  rw [if_pos hlimit]
  refine Call.keeps_look_bind fun s2 hrely2 hinv2 _ => ?_
  refine Call.keeps_lift fun _ hcount s3 hrely3 hinv3 => ?_
  have hspare := hinv2.spare hinstants (not_le.mp (refuse_ok_iff.mp hcount))
  refine h s3 (fun hheld => ?_) hinv3 ?_
  · exact (hrely3 hheld).trans ((hrely2 hheld).trans (hrely1 hheld))
  · unfold Spare
    rw [hrely3 rfl]
    exact hspare

/-- Every run that was picked up started before this time. -/
def Earlier (ops : ι → Op) (principal : Principal) (checked : Instant) (scene : Scene ι Db) : Prop :=
  ∀ row ∈ pickedUp ops principal scene.commits, row.startedAt ≤ checked

/-- With the mutex in hand everything that was picked up lies before the call's clock. -/
theorem keeps_holdingPickup {locked : Bool}
    {operation key : String} {hash : Digest} {answer : Event → CallM α} {proceed : CallM α}
    (hanswer : ∀ event, (answer event).Quiet)
    (h : ∀ s, Rated ops principal s → Earlier ops principal (ops i).env.checked s →
      proceed.Keeps (pickupAgreement ops principal) i (fun _ _ _ => True) true s) :
    ((keyed svc locked principal operation key hash answer proceed).holding .pickup).Keeps
      (pickupAgreement ops principal) i (fun _ _ _ => True) false scene := by
  refine Call.keeps_holding (fun _ _ _ _ _ _ _ => trivial) fun s hrely hinv hok => ?_
  have hearlier : Earlier ops principal (ops i).env.checked s := by
    intro row hrow
    obtain ⟨commit, hcommit, hnow⟩ := hinv.dated row hrow
    rw [hnow]
    exact hok commit hcommit
  refine keeps_keyedAs hinv (fun _ _ _ _ _ _ _ => trivial) fun s1 s2 s3 hrely1 _ hrely2 _ hrely3
    hinv3 => ?_
  constructor
  · exact fun event _ _ => Call.keeps_quiet (hanswer event) fun _ _ _ _ => trivial
  · intro _
    refine h s3 hinv3 fun row hrow => hearlier row ?_
    rwa [hrely3 rfl, hrely2 rfl, hrely1 rfl] at hrow

/-- The transaction that opens a run, and what is only read behind it. -/
theorem keeps_opens (svc : Service) {β : Type} {t : TxM β}
    {f : β → CallM α} (hpicks : (ops i).picks principal = true)
    (hclock : (ops i).env.checked ≤ (ops i).env.now)
    (hearlier : Earlier ops principal (ops i).env.checked scene)
    (hspare : Spare ops principal (ops i).env.checked scene)
    (ht : ∀ db b after, t.run db = .ok (b, after) → ∃ run, run.Opened svc (ops i).env ∧
      (∀ row ∈ db.runs, row.id ≠ run.id) ∧ run.agent = principal.id ∧ after.runs = db.runs ++ [run])
    (hf : ∀ b, (f b).Quiet) :
    ((Call.tx t : CallM β) >>= f).Keeps (pickupAgreement ops principal) i (fun _ _ _ => True) true
      scene := by
  refine Call.keeps_tx_bind fun s b after hrely hinv hrun _ => ?_
  obtain ⟨run, hopened, hfresh, hagent, hruns⟩ := ht _ _ _ hrun
  have hsame : pickedUp ops principal s.commits = pickedUp ops principal scene.commits := hrely rfl
  refine ⟨⟨?_, Or.inl rfl⟩, Call.keeps_quiet (hf b) fun _ _ _ _ => trivial⟩
  refine Rated.own hinv hpicks hfresh hruns hagent hopened.startedAt hclock ?_ ?_
  · intro row hrow
    exact hearlier row (hsame ▸ hrow)
  · unfold Spare at hspare ⊢
    rwa [hsame]

end Rate

section Calls

variable {ops : ι → Op} {i : ι} {scene s s' : Scene ι Db}

theorem Earlier.rely (h : Earlier ops principal checked s)
    (hrely : (pickupAgreement ops principal).rely i true s s') : Earlier ops principal checked s' :=
  fun row hrow => h row ((hrely rfl).symm ▸ hrow)

theorem Spare.rely (h : Spare ops principal checked s)
    (hrely : (pickupAgreement ops principal).rely i true s s') : Spare ops principal checked s' := by
  unfold Spare at h ⊢
  rwa [hrely rfl]

variable (hinstants : ∀ a b, svc.before a b = true ↔ a < b) (hagent : principal.agent = true)
  (hlimit : 0 < principal.policy.maxPickupsPerMinute)
include hinstants hagent hlimit

theorem keeps_startFor {request : StartRequest}
    (hop : ops i = .start env request principal) (hclock : env.checked ≤ env.now) :
    (startFor svc env request principal).Keeps (pickupAgreement ops principal) i
      (fun _ _ _ => True) false scene := by
  have hpicks : (ops i).picks principal = true := by simp [hop, Op.picks]
  obtain rfl : env = (ops i).env := by rw [hop]; rfl
  refine Call.keeps_lift_bind fun _ _ => ?_
  rw [if_pos hagent]
  refine Call.keeps_lift_bind fun checked hchecked => ?_
  refine keeps_holdingPickup (fun _ => quiet_replayedRun) fun s1 hinv1 hearlier => ?_
  refine keeps_enforceAgentPickupLimits hinstants hagent hlimit hinv1 fun s2 hrely2 hinv2 hspare => ?_
  refine Call.keeps_quiet_bind quiet_checkDuplicates (fun overridden s3 hrely3 hinv3 => ?_) hinv2
  refine Call.keeps_lift_bind fun item _ => ?_
  refine keeps_opens svc hpicks hclock ((hearlier.rely hrely2).rely hrely3) (hspare.rely hrely3)
    (fun db _ after hrun => ?_) fun _ => ?_
  · obtain ⟨run, hopened, hfresh, hrunAgent, hruns⟩ := startTx_opens hrun
    exact ⟨run, hopened, hfresh, hrunAgent.trans (startAgent_own hagent hchecked), hruns⟩
  · refine Call.quiet_bind quiet_getTask fun task => ?_
    split
    · exact Call.quiet_pure _
    · exact Call.quiet_fail _

theorem keeps_claimFor {taskID : String} {request : ClaimRequest}
    (hop : ops i = .claim env taskID request principal) (hclock : env.checked ≤ env.now) :
    (claimFor svc env taskID request principal).Keeps (pickupAgreement ops principal) i
      (fun _ _ _ => True) false scene := by
  have hpicks : (ops i).picks principal = true := by simp [hop, Op.picks]
  obtain rfl : env = (ops i).env := by rw [hop]; rfl
  refine Call.keeps_lift_bind fun _ _ => ?_
  refine keeps_holdingPickup (fun _ => quiet_replayedRun) fun s1 hinv1 hearlier => ?_
  refine Call.keeps_quiet_bind quiet_getForHidden (fun task s2 hrely2 hinv2 => ?_) hinv1
  refine Call.keeps_lift_bind fun _ _ => ?_
  refine Call.keeps_quiet_bind quiet_checkWorker (fun _ s3 hrely3 hinv3 => ?_) hinv2
  refine keeps_enforceAgentPickupLimits hinstants hagent hlimit hinv3 fun s4 hrely4 hinv4 hspare => ?_
  refine Call.keeps_lift_bind fun _ _ => Call.keeps_lift_bind fun _ _ => ?_
  refine keeps_opens svc hpicks hclock (((hearlier.rely hrely2).rely hrely3).rely hrely4) hspare
    (fun db _ after hrun => ?_) fun _ => ?_
  · obtain ⟨run, hopened, hfresh, hrunAgent, hruns⟩ := claimTx_opens hrun
    refine ⟨run, hopened, hfresh, hrunAgent.trans ?_, hruns⟩
    simp only [principal.trimmed]
    exact if_neg (principal.named hagent)
  · refine Call.quiet_bind quiet_getTask fun task => ?_
    split
    · exact Call.quiet_pure _
    · exact Call.quiet_fail _

/-- Every call keeps its part: the agent's starts and claims by their checks, all others since
they leave the runs in place. -/
theorem keeps_call (hclock : ∀ i, (ops i).env.checked ≤ (ops i).env.now)
    (hinv : Rated ops principal scene) :
    ((ops i).call svc).Keeps (pickupAgreement ops principal) i (fun _ _ _ => True) false scene := by
  cases hpicks : (ops i).picks principal with
  | false =>
      refine Call.keeps_each (loose_call (ops i)) fun held s after hinv hafter => ?_
      exact ⟨hinv.other hpicks hafter, Or.inr (pickedUp_other hpicks)⟩
  | true =>
      have hchecked := hclock i
      cases hop : ops i with
      | start env request caller =>
          obtain rfl : caller = principal := by simpa [hop, Op.picks] using hpicks
          rw [hop] at hchecked
          refine Call.keeps_bind ((keeps_startFor hinstants hagent hlimit hop hchecked).mono
            fun _ _ s _ _ => ?_) hinv
          exact Call.keeps_quiet (Call.quiet_pure _) fun _ _ _ _ => trivial
      | claim env taskID request caller =>
          obtain rfl : caller = principal := by simpa [hop, Op.picks] using hpicks
          rw [hop] at hchecked
          refine Call.keeps_bind ((keeps_claimFor hinstants hagent hlimit hop hchecked).mono
            fun _ _ s _ _ => ?_) hinv
          exact Call.keeps_quiet (Call.quiet_pure _) fun _ _ _ _ => trivial
      | _ => simp [hop, Op.picks] at hpicks

end Calls

/-- **The rate limit holds in every minute.** However the agent's starts and claims interleave with
each other and with any other calls of the process, every closed minute holds the start of at most
as many runs opened by them as the agent's policy allows. -/
theorem pickups_within_rate {ι : Type} [DecidableEq ι] {svc : Service}
    (hinstants : ∀ a b, svc.before a b = true ↔ a < b) {principal : Principal}
    (hagent : principal.agent = true) (hlimit : 0 < principal.policy.maxPickupsPerMinute)
    {ops : ι → Op} (hclock : ∀ i, (ops i).env.checked ≤ (ops i).env.now) {db : Db}
    {process : Process ι Db RowKey ServiceError Mutex Outcome}
    (h : process.Reaches (Clocked ops) (fun i => (ops i).call svc) db) (t : Instant) :
    (((pickedUp ops principal process.scene.commits).filter fun run =>
      t ≤ run.startedAt ∧ run.startedAt ≤ t + minute).length : Int) ≤
        principal.policy.maxPickupsPerMinute := by
  have hinit : Rated ops principal { state := db } :=
    ⟨trivial, by simp [pickedUp], List.nodup_nil, by simp [pickedUp]⟩
  have hkept : process.Kept (pickupAgreement ops principal) fun _ _ _ _ => True :=
    Process.Reaches.kept h hinit fun i => keeps_call hinstants hagent hlimit hclock hinit
  exact hkept.inv.paced.window hlimit.le t

/-- An agent that may open one run in a minute. -/
def hastyAgent : Principal :=
  agentPrincipal "builder" { defaultAgentPolicy with maxPickupsPerMinute := 1 }

/-- The agent starts three tasks, the last one after more than a minute. -/
def hastyOps (i : Fin 3) : Op :=
  .start (.numbered i (i * (31 * second)))
    { title := ["Fix the login", "Sort the mail", "Paint the fence"].getD i ""
      checklist := ["Look at it"] } hastyAgent

/-- The three calls take turns. -/
def hastyProcess : Process (Fin 3) Db RowKey ServiceError Mutex Outcome :=
  Process.schedule (Clocked hastyOps)
    { scene := { state := {} }, pending := fun i => (hastyOps i).call .ascii }
    (List.replicate 60 [0, 1, 2]).flatten

/-- The second start is refused, since the first one is not a minute old; the third one is not. -/
theorem second_start_is_refused :
    (pickedUp hastyOps hastyAgent hastyProcess.scene.commits).map (·.startedAt) =
        [62 * second, 0] ∧
      (((pickedUp hastyOps hastyAgent hastyProcess.scene.commits).filter fun run =>
        31 * second ≤ run.startedAt ∧ run.startedAt ≤ 31 * second + minute).length : Int) ≤ 1 := by
  refine ⟨by decide +kernel, ?_⟩
  have hreaches : hastyProcess.Reaches (Clocked hastyOps) (fun i => (hastyOps i).call .ascii) {} :=
    Process.Reaches.start.schedule _
  have hinstants : ∀ a b, Service.ascii.before a b = true ↔ a < b := by simp [Service.ascii]
  exact pickups_within_rate hinstants rfl (by decide : 0 < hastyAgent.policy.maxPickupsPerMinute)
    (fun _ => le_rfl) hreaches (31 * second)

end Taskboard
