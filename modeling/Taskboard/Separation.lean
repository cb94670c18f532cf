import Taskboard.Operations

/-!
# Who verifies evidence

A review that satisfies a requirement asks that its reviewer is none of the builders of the
evidence, or that an owner or an admin overrides this. The evidence is settled for a waiver
in the same way, where the check is not made. So a reviewer verifies evidence of their own
exactly by waiving; a caller without a name, which no list of builders holds, aside.
-/

namespace Taskboard

/-- The builders of a piece of evidence of a task: the agents with a run on it, the
submitter, and the creator of the reference it cites. -/
def Db.BuiltBy (db : Db) (taskID : String) (evidence : CompletionEvidence) (name : String) : Prop :=
  (∃ run ∈ db.runs, run.taskID = taskID ∧ run.agent = name) ∨ evidence.submittedBy = name ∨
    (evidence.referenceID ≠ "" ∧
      ∃ reference ∈ db.references, reference.id = evidence.referenceID ∧ reference.createdBy = name)

/-- The list of builders holds every builder with a name. -/
theorem mem_completionBuilderPrincipals {taskID requirementID : String} {db db' : Db}
    {evidence : CompletionEvidence} {builders : List String} {name : String}
    (hkeys : (db.references.map referenceTable.key).Nodup) (hrow : evidence ∈ db.evidence)
    (hreq : evidence.requirementID = requirementID) (hid : evidence.id ≠ "")
    (hone : (db.evidence.filter fun row =>
      row.id = evidence.id && row.requirementID = requirementID).length = 1)
    (h : (completionBuilderPrincipals taskID requirementID evidence.id).run db =
      .ok (builders, db'))
    (hname : name ≠ "") (htrim : trimSpace name = name) (hbuilt : db.BuiltBy taskID evidence name) :
    name ∈ builders := by
  simp only [completionBuilderPrincipals, evidenceBuilders, Tx.run_bind_ok, Tx.run_select_ok,
    Tx.run_selectOr_ok, Tx.run_ite_ok, Tx.run_pure_ok, hid, false_and, false_or, not_false_iff,
    true_and] at h
  obtain ⟨_, _, ⟨rfl, rfl⟩, others, _, ⟨found, _, ⟨hfound, rfl⟩, hothers⟩, rfl, rfl⟩ := h
  rw [mem_sortBy, mem_unique]
  refine ⟨hname, name, ?_, htrim⟩
  have hsame : found = evidence := by
    split at hfound
    · rename_i e he
      cases hfound
      have hp := List.find?_some he
      exact eq_of_filter_length_one hone (List.mem_of_find?_eq_some he) (by simpa using hp) hrow
        (by simp [hreq])
    · cases hfound
  subst hsame
  rw [List.mem_append]
  rcases hbuilt with ⟨run, hrun, htask, hagent⟩ | hsubmitted | ⟨hcites, reference, href, hrefid, hcreated⟩
  · left
    exact List.mem_map.mpr ⟨run, by simp [Db.runsOf, hrun, htask], hagent⟩
  · right
    rcases hothers with ⟨-, rfl, rfl⟩ | ⟨-, reference, _, ⟨-, rfl⟩, rfl, rfl⟩
    · simp [hsubmitted]
    · simp [hsubmitted]
  · right
    rcases hothers with ⟨hnone, -, -⟩ | ⟨-, cited, _, ⟨hcited, rfl⟩, rfl, rfl⟩
    · exact absurd hnone hcites
    · split at hcited
      · rename_i r hr
        cases hcited
        have hp : cited.id = found.referenceID ∧ cited.taskID = taskID := by
          simpa using List.find?_some hr
        have hkey : referenceTable.key cited = referenceTable.key reference :=
          congrArg RowKey.reference (hp.1.trans hrefid.symm)
        have heq := List.inj_on_of_nodup_map hkeys (List.mem_of_find?_eq_some hr) href hkey
        simp [heq, hcreated]
      · cases hcited

section Review

variable {svc : Service} {env : Env} {taskID requirementID : String} {principal : Principal}
  {request : ReviewCompletionRequest} {db db' : Db}

/-- The reviewer is a person with the role owner or admin who overrides the separation and
says why. -/
def ReviewCompletionRequest.Overrides (request : ReviewCompletionRequest)
    (principal : Principal) : Prop :=
  principal.agent = false ∧ (principal.role = .owner ∨ principal.role = .admin) ∧
    request.separationOverride = true ∧ trimSpace request.separationOverrideReason ≠ ""

/-- The database after a review. -/
def reviewed (svc : Service) (env : Env) (taskID requirementID : String)
    (request : ReviewCompletionRequest) (principal : Principal) (db : Db) : Db :=
  ((reviewCompletionRequirementFor svc env taskID requirementID request principal).exec db).2

/-- A review runs its transaction or leaves the database alone. -/
theorem reviewed_cases :
    reviewed svc env taskID requirementID request principal db = db ∨
      ∃ status hash refused, validateReview request.clean = .ok status ∧
        (reviewCompletionTx env (trimSpace taskID) (trimSpace requirementID) request.clean status
          principal hash).run db =
            .ok (refused, reviewed svc env taskID requirementID request principal db) := by
  suffices h : (reviewCompletionRequirementFor svc env taskID requirementID request
      principal).AtMost fun db db' => ∃ status hash refused,
        validateReview request.clean = .ok status ∧
          (reviewCompletionTx env (trimSpace taskID) (trimSpace requirementID) request.clean status
            principal hash).run db = .ok (refused, db') from h db
  refine Call.atMost_lift_bind fun _ _ => ?_
  refine Call.atMost_lift_bind fun _ _ => ?_
  refine Call.atMost_lift_bind fun status hstatus => ?_
  refine Call.atMost_bind_quiet quiet_getForHidden fun _ => ?_
  refine Call.atMost_lift_bind fun _ _ => ?_
  refine Call.atMost_bind_quiet quiet_requirementOf fun _ => ?_
  refine Call.atMost_lift_bind fun _ _ => ?_
  refine atMost_keyed (fun _ => Call.quiet_lift_bind fun _ => Call.quiet_lookOr _) ?_
  refine Call.atMost_then_quiet ((Call.atMost_tx _).mono fun db db' ⟨refused, hrun⟩ =>
    ⟨status, _, refused, hstatus, hrun⟩) fun refused => ?_
  cases refused with
  | some reason => exact Call.quiet_fail _
  | none => exact Call.quiet_lookOr _

/-- A row of evidence that a review has verified: the review named it, and the requirement was
waived, or it was satisfied by someone who is none of its builders or overrides. -/
theorem reviewed_row (hkeys : (db.references.map referenceTable.key).Nodup)
    {row : CompletionEvidence}
    (hnew : row ∈ (reviewed svc env taskID requirementID request principal db).evidence)
    (hold : row ∉ db.evidence) (hverified : row.status = .verified) :
    ∃ status evidence, validateReview request.clean = .ok status ∧ status ≠ .pending ∧
      evidence ∈ db.evidence ∧ evidence.id = trimSpace request.evidenceID ∧
      evidence.requirementID = trimSpace requirementID ∧
      (∀ name, db.BuiltBy (trimSpace taskID) row name →
        db.BuiltBy (trimSpace taskID) evidence name) ∧
      (status = .satisfied → principal.id ≠ "" →
        db.BuiltBy (trimSpace taskID) row principal.id → request.Overrides principal) := by
  rcases (reviewed_cases : reviewed svc env taskID requirementID request principal db = db ∨ _) with
    hsame | ⟨status, hash, refused, hvalid, hrun⟩
  · exact absurd (hsame ▸ hnew) hold
  rcases reviewCompletionTx_ok hrun with hsame | ⟨hsettles, hseparate⟩
  · exact absurd (hsame ▸ hnew) hold
  rcases hsettles with ⟨-, hsame⟩ | ⟨hnonempty, hone, hrows⟩
  · exact absurd (hsame ▸ hnew) hold
  rw [hrows, mem_mapWhere] at hnew
  obtain ⟨evidence, hmem, hrow⟩ := hnew
  split at hrow
  swap
  · exact absurd (hrow ▸ hmem) hold
  rename_i hnamed
  subst hrow
  simp only [Bool.and_eq_true, decide_eq_true_eq] at hnamed
  obtain ⟨hid, hreq⟩ := hnamed
  refine ⟨status, evidence, hvalid, ?_, hmem, hid, hreq, fun _ h => h,
    fun hsatisfied hname hbuilt => ?_⟩
  · rintro rfl
    simp [CompletionEvidence.settled] at hverified
  obtain ⟨builders, hbuilders, hoverride, hrole⟩ := hseparate hsatisfied
  rw [← hid] at hbuilders hone hnonempty
  have hself := mem_completionBuilderPrincipals hkeys hmem hreq hnonempty hone hbuilders hname
    principal.trimmed hbuilt
  exact ⟨(hrole hself).1, (hrole hself).2, hoverride.mpr hself,
    ((validateReview_ok hvalid).2 (hoverride.mpr hself)).2⟩

end Review

/-- The review does not waive and its reviewer has a name, or the evidence it names is none of
the reviewer's own. -/
def Op.Separates (op : Op) (db : Db) : Prop :=
  match op with
  | .reviewCompletion _ taskID requirementID request principal =>
      CompletionRequirementStatus.ofString? request.status = some .waived ∨ principal.id = "" →
        ∀ row ∈ db.evidence, row.id = trimSpace request.evidenceID →
          row.requirementID = trimSpace requirementID →
            ¬db.BuiltBy (trimSpace taskID) row principal.id
  | _ => True

/-- **Nobody verifies their own evidence.** In a run whose waivers name no evidence of the
reviewer's own, whenever a review verifies a piece of evidence its reviewer is none of the
builders, or an owner or an admin overrides the separation with a reason. -/
theorem review_verifies_others {svc : Service} {env : Env} {taskID requirementID : String}
    {principal : Principal} {request : ReviewCompletionRequest} {db : Db}
    {row : CompletionEvidence} (hreach : Reachable svc Op.Separates db)
    (hop : (Op.reviewCompletion env taskID requirementID request principal).Separates db)
    (hnew : row ∈
      ((Op.reviewCompletion env taskID requirementID request principal).step svc db).evidence)
    (hold : row ∉ db.evidence) (hverified : row.status = .verified) :
    ¬db.BuiltBy (trimSpace taskID) row principal.id ∨ request.Overrides principal := by
  have hkeys : (db.references.map referenceTable.key).Nodup :=
    hreach.invariant (P := fun db => (db.references.map referenceTable.key).Nodup)
      List.nodup_nil fun op db _ h => (loose_step op db).references.2 h
  rw [Op.step, Op.call, Call.exec_bind_pure_snd] at hnew
  obtain ⟨status, evidence, hvalid, hpending, hmem, hid, hreq, hbuilds, hsatisfied⟩ :=
    reviewed_row hkeys hnew hold hverified
  refine or_iff_not_imp_left.mpr fun hbuilt => ?_
  rw [not_not] at hbuilt
  have hown := hbuilds _ hbuilt
  have hname : principal.id ≠ "" := fun hempty => hop (Or.inr hempty) evidence hmem hid hreq hown
  cases status with
  | satisfied => exact hsatisfied rfl hname hbuilt
  | pending => exact absurd rfl hpending
  | waived =>
      exact absurd hown (hop (Or.inl (validateReview_ok hvalid).1) evidence hmem hid hreq)

/-- A person records a task, asks for release notes and submits them. -/
def contractOps : List Op :=
  [.create (.numbered 1 0)
      { title := "Publish the release", visibility := "team", checklist := ["Tag it"] }
      (humanPrincipal "ann" .member),
    .createRequirement (.numbered 2 1) "0100"
      { kind := "custom", label := "Release notes", required := true, expectedVersion := 1 }
      (humanPrincipal "ann" .member),
    .submitEvidence (.numbered 3 2) "0100" "0200" { note := "See the notes" }
      (humanPrincipal "ann" .member)]

/-- A review of what `contractOps` submitted. -/
def reviewOp (status reviewer : String) : Op :=
  .reviewCompletion (.numbered 4 3) "0100" "0200"
    { status, evidenceID := "0300", note := "Read them", expectedVersion := 2 }
    (humanPrincipal reviewer .member)

theorem contract_satisfied_by_other :
    ∃ row ∈ ((reviewOp "satisfied" "bob").step .ascii (Op.run .ascii contractOps {})).evidence,
      row.status = .verified ∧
        (¬(Op.run .ascii contractOps {}).BuiltBy (trimSpace "0100") row "bob" ∨
          ReviewCompletionRequest.Overrides
            { status := "satisfied", evidenceID := "0300", note := "Read them",
              expectedVersion := 2 } (humanPrincipal "bob" .member)) := by
  have hrow : ∃ row ∈
      ((reviewOp "satisfied" "bob").step .ascii (Op.run .ascii contractOps {})).evidence,
      row ∉ (Op.run .ascii contractOps {}).evidence ∧ row.status = .verified := by decide +kernel
  obtain ⟨row, hnew, hold, hverified⟩ := hrow
  have hreach : Reachable .ascii Op.Separates (Op.run .ascii contractOps {}) :=
    ((Reachable.step .refl _ trivial).step _ trivial).step _ trivial
  have hop : (reviewOp "satisfied" "bob").Separates (Op.run .ascii contractOps {}) :=
    fun h => absurd h (by decide)
  exact ⟨row, hnew, hverified, review_verifies_others hreach hop hnew hold hverified⟩

/-- The submitter waives the requirement and names the evidence, which is then verified. -/
theorem waiver_verifies_own_evidence :
    Reachable .ascii (fun _ _ => True) (Op.run .ascii contractOps {}) ∧
      ∃ row ∈ ((reviewOp "waived" "ann").step .ascii (Op.run .ascii contractOps {})).evidence,
        row ∉ (Op.run .ascii contractOps {}).evidence ∧ row.status = .verified ∧
          row.reviewedBy = "ann" ∧
          (Op.run .ascii contractOps {}).BuiltBy (trimSpace "0100") row "ann" ∧
          ¬ReviewCompletionRequest.Overrides
            { status := "waived", evidenceID := "0300", note := "Read them", expectedVersion := 2 }
            (humanPrincipal "ann" .member) := by
  have hrow : ∃ row ∈
      ((reviewOp "waived" "ann").step .ascii (Op.run .ascii contractOps {})).evidence,
      row ∉ (Op.run .ascii contractOps {}).evidence ∧ row.status = .verified ∧
        row.reviewedBy = "ann" ∧ row.submittedBy = "ann" := by decide +kernel
  obtain ⟨row, hmem, hold, hstatus, hreviewed, hsubmitted⟩ := hrow
  exact ⟨reachable_run _ _, row, hmem, hold, hstatus, hreviewed, Or.inr (Or.inl hsubmitted),
    fun h => Bool.noConfusion h.2.2.1⟩

end Taskboard
