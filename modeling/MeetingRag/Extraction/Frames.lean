import MeetingRag.Extraction.TextSubmissions

/-!
# What a call on the files leaves alone

`Touches P` says that a transaction rewrote only the revisions whose identifiers meet `P`, without
detaching them, and that the runs and anchors it added are of such revisions. `touched` are the revisions
that a call may touch in a state: that of a completion whose lease is in force, that of a retry whose job
has failed for good, and those of the jobs a reconciliation gives up.
-/

open Outcome Table Py

namespace MeetingRag

/-! ## Tables rewritten in part -/

/-- Only rows of some revisions are rewritten or added. -/
structure Touches (P : UUID → Prop) (t t' : FileTables) : Prop where
  textRevisions : t'.textRevisions = t.textRevisions
  submissions : t'.submissions = t.submissions
  revisions : ∃ g : FileRevision → FileRevision, t'.revisions = t.revisions.map g ∧
    ∀ r, (g r).id = r.id ∧ (g r).submissionId = r.submissionId ∧ (g r).isCurrent = r.isCurrent ∧
      (¬P r.id → g r = r)
  runs : ∃ added, t'.extractionRuns = t.extractionRuns ++ added ∧ ∀ x ∈ added, P x.sourceRevisionId
  anchors : ∃ added, t'.anchors = t.anchors ++ added ∧ ∀ a ∈ added, P a.sourceRevisionId

section Touches

variable {P Q : UUID → Prop} {t t' t'' : FileTables}

theorem Touches.refl (P : UUID → Prop) (t : FileTables) : Touches P t t where
  textRevisions := rfl
  submissions := rfl
  revisions := ⟨id, (List.map_id _).symm, fun _ ↦ ⟨rfl, rfl, rfl, fun _ ↦ rfl⟩⟩
  runs := ⟨[], (List.append_nil _).symm, List.forall_mem_nil _⟩
  anchors := ⟨[], (List.append_nil _).symm, List.forall_mem_nil _⟩

theorem Touches.trans (h : Touches P t t') (h' : Touches P t' t'') : Touches P t t'' where
  textRevisions := h'.textRevisions.trans h.textRevisions
  submissions := h'.submissions.trans h.submissions
  revisions := by
    obtain ⟨g, hg, hkept⟩ := h.revisions
    obtain ⟨g', hg', hkept'⟩ := h'.revisions
    refine ⟨g' ∘ g, by rw [hg', hg, List.map_map], fun r ↦ ?_⟩
    obtain ⟨hid, hsubmission, hcurrent, hsame⟩ := hkept r
    obtain ⟨hid', hsubmission', hcurrent', hsame'⟩ := hkept' (g r)
    refine ⟨hid'.trans hid, hsubmission'.trans hsubmission, hcurrent'.trans hcurrent, fun hr ↦ ?_⟩
    rw [Function.comp_apply, hsame' (by rwa [hid]), hsame hr]
  runs := by
    obtain ⟨added, hadded, hruns⟩ := h.runs
    obtain ⟨added', hadded', hruns'⟩ := h'.runs
    exact ⟨added ++ added', by rw [hadded', hadded, List.append_assoc],
      List.forall_mem_append.mpr ⟨hruns, hruns'⟩⟩
  anchors := by
    obtain ⟨added, hadded, hanchors⟩ := h.anchors
    obtain ⟨added', hadded', hanchors'⟩ := h'.anchors
    exact ⟨added ++ added', by rw [hadded', hadded, List.append_assoc],
      List.forall_mem_append.mpr ⟨hanchors, hanchors'⟩⟩

theorem Touches.mono (h : Touches P t t') (hPQ : ∀ id, P id → Q id) : Touches Q t t' where
  textRevisions := h.textRevisions
  submissions := h.submissions
  revisions := by
    obtain ⟨g, hg, hkept⟩ := h.revisions
    refine ⟨g, hg, fun r ↦ ?_⟩
    obtain ⟨hid, hsubmission, hcurrent, hsame⟩ := hkept r
    exact ⟨hid, hsubmission, hcurrent, fun hr ↦ hsame fun hp ↦ hr (hPQ _ hp)⟩
  runs := by
    obtain ⟨added, hadded, hruns⟩ := h.runs
    exact ⟨added, hadded, fun x hx ↦ hPQ _ (hruns x hx)⟩
  anchors := by
    obtain ⟨added, hadded, hanchors⟩ := h.anchors
    exact ⟨added, hadded, fun a ha ↦ hPQ _ (hanchors a ha)⟩

/-- An update of the rows of one revision. -/
theorem Touches.of_update {p : FileRevision → Prop} [DecidablePred p]
    {f : FileRevision → FileRevision} {revisionId : UUID} (hp : ∀ r, p r → r.id = revisionId)
    (hf : ∀ r, (f r).id = r.id ∧ (f r).submissionId = r.submissionId ∧ (f r).isCurrent = r.isCurrent)
    (t : FileTables) (events : List AuditEvent) :
    Touches (· = revisionId) t
      { t with revisions := updateWhere p f t.revisions, auditEvents := events } where
  textRevisions := rfl
  submissions := rfl
  revisions := by
    refine ⟨fun r ↦ if p r then f r else r, rfl, fun r ↦ ?_⟩
    dsimp only
    split
    · next hr => exact ⟨(hf r).1, (hf r).2.1, (hf r).2.2, fun hne ↦ absurd (hp r hr) hne⟩
    · exact ⟨rfl, rfl, rfl, fun _ ↦ rfl⟩
  runs := ⟨[], (List.append_nil _).symm, List.forall_mem_nil _⟩
  anchors := ⟨[], (List.append_nil _).symm, List.forall_mem_nil _⟩

end Touches

/-! ## Completions -/

section Completion

variable {claimed : ClaimedJob ExtractionDocument} {l : LoadedRevision} {runId : UUID}
  {t t' : FileTables}

theorem insertFileRun_touches {run : FileExtractionRun} (h : insertFileRun run t = .ok t') :
    Touches (· = run.sourceRevisionId) t t' := by
  obtain rfl := insertFileRun_eq_ok h
  have hkept := Touches.refl (· = run.sourceRevisionId) t
  exact ⟨rfl, rfl, hkept.revisions, ⟨[run], rfl, List.forall_mem_singleton.mpr rfl⟩, hkept.anchors⟩

theorem moveRevision_touches {revisionId : UUID} {f : FileRevision → FileRevision}
    (hf : ∀ r, (f r).id = r.id ∧ (f r).submissionId = r.submissionId ∧ (f r).isCurrent = r.isCurrent)
    (h : moveRevision revisionId f t = .ok t') : Touches (· = revisionId) t t' := by
  obtain ⟨-, ht⟩ := require_bind_eq_ok.mp h
  cases ht
  exact .of_update (fun _ hr ↦ hr.1) hf t t.auditEvents

theorem appendExtractionActivity_touches (P : UUID → Prop) (event : EventIdentity)
    (roomId sessionId : UUID) (t : FileTables) :
    Touches P t (appendExtractionActivity event roomId sessionId t) :=
  ⟨rfl, rfl, (Touches.refl P t).revisions, (Touches.refl P t).runs, (Touches.refl P t).anchors⟩

theorem persistExtraction_touches {result : ExtractionResult}
    (h : persistExtraction claimed l result runId t = .ok t') : Touches (· = l.id) t t' := by
  simp only [persistExtraction, bind_eq_ok, Except.ok.injEq] at h
  obtain ⟨t₁, hrun, anchors, hanchors, t₂, hmoved, rfl⟩ := h
  have hadded : Touches (· = l.id) t₁ { t₁ with anchors := anchors } := by
    rw [foldlM_insertAnchor hanchors]
    have hkept := Touches.refl (· = l.id) t₁
    refine ⟨rfl, rfl, hkept.revisions, hkept.runs, _, rfl, fun a ha ↦ ?_⟩
    obtain ⟨block, -, rfl⟩ := List.mem_map.mp ha
    rfl
  exact (insertFileRun_touches hrun).trans (hadded.trans
    ((moveRevision_touches (f := readyRevision runId) (fun _ ↦ ⟨rfl, rfl, rfl⟩) hmoved).trans
      (appendExtractionActivity_touches _ _ _ _ _)))

theorem persistExtractionFailure_touches {errorCode : String} {terminal : Prop} [Decidable terminal]
    (h : persistExtractionFailure claimed l errorCode terminal runId t = .ok t') :
    Touches (· = l.id) t t' := by
  obtain ⟨t₁, hrun, h⟩ := bind_eq_ok.mp h
  split at h
  · obtain ⟨t₂, hmoved, ht'⟩ := bind_eq_ok.mp h
    cases ht'
    exact (insertFileRun_touches hrun).trans
      ((moveRevision_touches (f := failedRevision) (fun _ ↦ ⟨rfl, rfl, rfl⟩) hmoved).trans
        (appendExtractionActivity_touches _ _ _ _ _))
  · cases h
    exact insertFileRun_touches hrun

theorem extractionEffect_touches {loaded : Option LoadedRevision} {decision : ExtractionDecision}
    (h : extractionEffect claimed loaded decision runId t = .ok t') :
    Touches (fun id ↦ ∃ l ∈ loaded, id = l.id) t t' := by
  rw [extractionEffect.eq_def] at h
  split at h
  · cases h
    exact .refl _ t
  · exact (persistExtraction_touches h).mono fun id hid ↦ ⟨_, rfl, hid⟩
  · exact (persistExtractionFailure_touches h).mono fun id hid ↦ ⟨_, rfl, hid⟩

end Completion

/-! ## Calls -/

/-- The revisions that a call may touch. -/
def touched (db : FileDatabase) : ExtractionCall → UUID → Prop
  | .complete claimed loaded .., id => (∃ l ∈ loaded, id = l.id) ∧
    ∃ j ∈ db.jobs, j.id = claimed.id ∧ j.state = .running ∧ j.leaseGeneration = claimed.leaseGeneration
  | .reconcile unseen, id => ∃ j ∈ db.jobs, Exhausted unseen j ∧ jobRevision j.payload = some id
  | .commitRetry pending _, id => id = pending.revisionId ∧ ∃ j ∈ db.jobs, TerminalExtraction id j
  | _, _ => False

/-- The repair of a job touches its revision. -/
theorem repairExhausted_touches {db db' : FileDatabase} {j : Job ExtractionDocument}
    (h : repairExhausted db j = .ok db') :
    Touches (fun id ↦ jobRevision j.payload = some id) db.other db'.other := by
  rw [repairExhausted] at h
  split at h
  · cases h
    exact .refl _ _
  · next revision submission hfound =>
    cases h
    obtain ⟨id, hid, hqueued⟩ := Option.bind_eq_some_iff.mp hfound
    simp only [queuedRevision, Option.bind_eq_bind, Option.bind_eq_some_iff] at hqueued
    obtain ⟨r, hr, y, -, hpair⟩ := hqueued
    cases hpair
    have hrevision : QueuedCurrent id revision := by simpa using List.find?_some hr
    have hmoved := Touches.of_update (p := QueuedCurrent revision.id) (f := failedRevision)
      (fun _ hp ↦ hp.1) (fun _ ↦ ⟨rfl, rfl, rfl⟩) db.other db.other.auditEvents
    refine (hmoved.trans (appendExtractionActivity_touches _ _ _ _ _)).mono fun id' hid' ↦ ?_
    rw [hid, hid', hrevision.1]

/-- A reconciliation touches the revisions of the jobs it gives up. -/
theorem reconcile_touches {db db' : FileDatabase} {unseen : List UUID}
    (h : reconcileRetryableExtractions unseen db = .ok db') :
    Touches (touched db (.reconcile unseen)) db.other db'.other := by
  -- A job that is put back is not given up as well.
  have hexhausted : ∀ j ∈ (updateWhere (Interrupted unseen) requeuedJob db.jobs).filter
      (Exhausted unseen), j ∈ db.jobs ∧ Exhausted unseen j := by
    intro j hj
    obtain ⟨hmem, hj⟩ := List.mem_filter.mp hj
    have hj := of_decide_eq_true hj
    rcases mem_updateWhere.mp hmem with ⟨j₀, -, -, rfl⟩ | ⟨hold, -⟩
    · exact nomatch hj.1.2.1
    · exact ⟨hold, hj⟩
  have hloop : ∀ (jobs : List (Job ExtractionDocument)) (a b : FileDatabase),
      (∀ j ∈ jobs, j ∈ db.jobs ∧ Exhausted unseen j) → jobs.foldlM repairExhausted a = .ok b →
        Touches (touched db (.reconcile unseen)) a.other b.other := by
    intro jobs
    induction jobs with
    | nil =>
      intro a b _ hab
      obtain rfl := pure_eq_ok.mp hab
      exact .refl _ _
    | cons j jobs ih =>
      intro a b hjobs hab
      rw [List.foldlM_cons, bind_eq_ok] at hab
      obtain ⟨c, hrepair, hab⟩ := hab
      obtain ⟨⟨hmem, hj⟩, hrest⟩ := List.forall_mem_cons.mp hjobs
      refine ((repairExhausted_touches hrepair).mono fun id hid ↦ ?_).trans (ih c b hrest hab)
      exact ⟨j, hmem, hj, hid⟩
  exact hloop _ { db with jobs := updateWhere (Interrupted unseen) requeuedJob db.jobs } db' hexhausted h

/-- **What a call on the files leaves alone**, an upload and the rest of the application apart. -/
theorem ExtractionState.Sound.touches {s : ExtractionState} (hs : s.Sound) {call : ExtractionCall}
    {clock : StatementClock} (hsubmit : ∀ upload, call ≠ .submit upload)
    (helsewhere : ∀ writes, call ≠ .elsewhere writes) {reply : ExtractionReply} {db' : FileDatabase}
    (h : call.body clock s.db = .ok (reply, db')) :
    Touches (touched s.db call) s.db.other db'.other := by
  cases call with
  | submit upload => exact absurd rfl (hsubmit upload)
  | elsewhere writes => exact absurd rfl (helsewhere writes)
  | reconcile unseen =>
    obtain ⟨db₁, hreconcile, hresult⟩ := bind_eq_ok.mp h
    cases hresult
    exact reconcile_touches hreconcile
  | claim owner leaseToken attemptId locked =>
    obtain ⟨⟨claimed, db₁⟩, hclaim, hresult⟩ := bind_eq_ok.mp h
    cases hresult
    rcases claimExtraction_step hclaim with ⟨-, rfl⟩ | ⟨row, c, -, -, hgranted⟩
    · exact .refl _ _
    · rw [hgranted.other]
      exact .refl _ _
  | load claimed =>
    obtain ⟨identity, -, hresult⟩ := bind_eq_ok.mp h
    cases hresult
    exact .refl _ _
  | complete claimed loaded attempt runId resultId =>
    obtain ⟨decision, -, h⟩ := bind_eq_ok.mp h
    obtain ⟨⟨_, db₁⟩, hcomplete, hresult⟩ := bind_eq_ok.mp h
    cases hresult
    obtain ⟨decision', -, hcomplete⟩ := bind_eq_ok.mp hcomplete
    obtain ⟨row, hrow, hfenced, s₂, heffect, hother, -⟩ :=
      completeWithEffects_eq_ok hs.filed.ids hcomplete
    obtain ⟨other, hextracted, hs₂⟩ := bind_eq_ok.mp heffect
    cases hs₂
    rw [hother]
    exact (extractionEffect_touches hextracted).mono fun id hid ↦
      ⟨hid, row, hrow, hfenced.1, hfenced.2.1, hfenced.2.2.1⟩
  | requeue claimed =>
    obtain ⟨⟨_, db₁⟩, hrequeue, hresult⟩ := bind_eq_ok.mp h
    cases hresult
    obtain ⟨row, -, hrequeued⟩ := requeueRetryable_step hs.filed.ids hrequeue
    rw [hrequeued.store]
    exact .refl _ _
  | beginRetry revisionId actorId =>
    obtain ⟨pending, -, hresult⟩ := bind_eq_ok.mp h
    cases hresult
    exact .refl _ _
  | commitRetry pending retryNonce =>
    obtain ⟨⟨_, db₁⟩, hretry, hresult⟩ := bind_eq_ok.mp h
    cases hresult
    obtain ⟨hcount, hdb'⟩ := require_bind_eq_ok.mp hretry
    cases hdb'
    obtain ⟨j, hj, hterminal⟩ := rowcount_pos.mp (Nat.pos_of_ne_zero hcount)
    have hmoved := Touches.of_update (p := (·.id = pending.revisionId)) (f := requeuedRevision)
      (fun _ hp ↦ hp) (fun _ ↦ ⟨rfl, rfl, rfl⟩) s.db.other
      (appendEvent ⟨.revisionRetryRequested pending.revisionId retryNonce, some pending.actorId,
        some pending.roomId, some pending.sessionId⟩ s.db.other.auditEvents)
    exact hmoved.mono fun id hid ↦ ⟨hid, j, hj, hid ▸ hterminal⟩

/-! ## Uploads -/

/-- The rows that an upload adds. -/
structure Uploads (u : FileUpload) (t t' : FileTables) : Prop where
  textRevisions : t'.textRevisions = t.textRevisions
  submissions : ∃ roomId, t'.submissions = t.submissions ++ [u.submission roomId]
  revisions : t'.revisions = t.revisions ++ [u.revision]
  runs : t'.extractionRuns = t.extractionRuns
  anchors : t'.anchors = t.anchors
  room : currentRevisionCount t u.sessionId < 20

theorem submitFile_uploads {u : FileUpload} {clock : StatementClock} {db db' : FileDatabase} {w : Unit}
    (h : submitFile u clock db = .ok (w, db')) : Uploads u db.other db'.other := by
  simp only [submitFile, bind_eq_ok, require_eq_ok, insertUnique_eq_ok] at h
  obtain ⟨roomId, -, -, hroom, _, ⟨-, rfl⟩, _, ⟨-, rfl⟩, ⟨job, db₁⟩, henqueue, hdb'⟩ := h
  obtain ⟨-, -, hother, -⟩ := enqueue_step henqueue
  cases hdb'
  dsimp only
  rw [hother]
  exact ⟨rfl, ⟨roomId, rfl⟩, rfl, rfl, rfl, not_le.mp hroom⟩

/-! ## Texts -/

/-- A revision of a submission is added, with its run and its anchors. -/
structure Revises (submissionId : UUID) (ids : DrawnIds) (t t' : TextSubmissionTables) : Prop where
  submissions : t'.submissions = t.submissions
  revisions : ∃ r : TextRevision, t'.revisions = t.revisions ++ [r] ∧ r.id = ids.revisionId ∧
    r.submissionId = submissionId ∧ r.isCurrent = true
  runs : ∃ x : TextRun, t'.runs = t.runs ++ [x] ∧ x.sourceRevisionId = ids.revisionId
  anchors : ∃ added, t'.anchors = t.anchors ++ added ∧
    ∀ a ∈ added, a.sourceRevisionId = ids.revisionId

/-- The text service changes the files in their deletion marks, and in what they see of the texts. -/
structure KeepsFiles (db db' : FileDatabase) : Prop where
  jobs : db'.jobs = db.jobs
  revisions : db'.other.revisions = db.other.revisions
  runs : db'.other.extractionRuns = db.other.extractionRuns
  anchors : db'.other.anchors = db.other.anchors
  submissions : ∃ f : FileSubmission → FileSubmission,
    db'.other.submissions = db.other.submissions.map f ∧
      ∀ x, (f x).id = x.id ∧ (f x).sessionId = x.sessionId ∧ (x.deleted = true → (f x).deleted = true)

theorem KeepsFiles.of_submissions {db db' : FileDatabase} (hjobs : db'.jobs = db.jobs)
    (hrevisions : db'.other.revisions = db.other.revisions)
    (hruns : db'.other.extractionRuns = db.other.extractionRuns)
    (hanchors : db'.other.anchors = db.other.anchors)
    (hsubmissions : db'.other.submissions = db.other.submissions) : KeepsFiles db db' :=
  ⟨hjobs, hrevisions, hruns, hanchors, id, hsubmissions.trans (List.map_id _).symm,
    fun _ ↦ ⟨rfl, rfl, id⟩⟩

section Texts

variable {U : Nfc} {submissionId actorId : UUID} {ids : DrawnIds} {db db' : SubmissionDatabase}

theorem escaping_eq_ok {α : Type} {x : Except Exc α} {a : α} : escaping x = .ok a ↔ x = .ok a := by
  cases x with
  | ok b => simp [escaping]
  | error e => simp [escaping]

theorem insertReadyTextRevision_revises {revisionNo : ℕ} {text : Str} {t t' : TextSubmissionTables}
    (h : insertReadyTextRevision U submissionId revisionNo text ids t = .ok t') :
    Revises submissionId ids t t' := by
  simp only [insertReadyTextRevision, bind_eq_ok, escaping_eq_ok, Except.ok.injEq] at h
  obtain ⟨source, -, profileHash, -, anchors, hanchors, -, -, rfl⟩ := h
  refine ⟨rfl, ⟨_, rfl, rfl, rfl, rfl⟩, ⟨_, rfl, rfl⟩, anchors, rfl, fun a ha ↦ ?_⟩
  obtain ⟨entry, -, hentry⟩ := exists_of_mem_mapM hanchors ha
  simp only [lineAnchor, bind_eq_ok, Except.ok.injEq] at hentry
  obtain ⟨fingerprint, -, hash, -, rfl⟩ := hentry
  rfl

/-- What a text submission has done. -/
theorem submitText_spec {r : TextRequest} (h : submitText U r db = .ok db') :
    ∃ title, Revises r.submissionId r.ids { db.text with
        submissions := db.text.submissions ++
          [⟨r.submissionId, r.sessionId, r.actorId, .text, title, false⟩] } db'.text ∧
      currentRevisionCount db.files.other r.sessionId < 20 ∧ KeepsFiles db.files db'.files ∧
      db'.files.other.submissions = db.files.other.submissions ∧
      db'.files.other.textRevisions = currentSessions db'.text := by
  simp only [submitText, bind_eq_ok, require_eq_ok, Except.ok.injEq] at h
  obtain ⟨text, -, title, -, roomId, -, -, hroom, t, hrevised, rfl⟩ := h
  exact ⟨title, insertReadyTextRevision_revises hrevised, not_le.mp hroom,
    .of_submissions rfl rfl rfl rfl rfl, rfl, rfl⟩

/-- A replacement that goes through: that of a text, by its author, in an open session. -/
structure Replaces (db : SubmissionDatabase) (submissionId actorId : UUID) (x : StoredSubmission) :
    Prop where
  found : db.submissions.find? (·.id = submissionId) = some x
  author : x.authorId = actorId
  kind : x.kind = .text
  session : ∃ s, memberSession db.files.other x.sessionId actorId = some s ∧ s.state = .open

theorem lockedMemberSubmission_eq_some {x : StoredSubmission} {s : TalkSession}
    (h : lockedMemberSubmission db submissionId actorId = some (x, s)) :
    db.submissions.find? (·.id = submissionId) = some x ∧
      memberSession db.files.other x.sessionId actorId = some s := by
  simp only [lockedMemberSubmission, Option.bind_eq_bind, Option.bind_eq_some_iff] at h
  obtain ⟨x', hx, s', hs, hpair⟩ := h
  cases hpair
  exact ⟨hx, hs⟩

/-- What a replacement has done. -/
theorem replaceText_spec {text : Str} (h : replaceText U submissionId actorId text ids db = .ok db') :
    (∃ x, Replaces db submissionId actorId x) ∧
      Revises submissionId ids { db.text with
        revisions := updateWhere (·.CurrentOf submissionId) supersededRevision db.text.revisions }
        db'.text ∧
      KeepsFiles db.files db'.files ∧ db'.files.other.submissions = db.files.other.submissions ∧
      db'.files.other.textRevisions = currentSessions db'.text := by
  obtain ⟨normalized, -, h⟩ := bind_eq_ok.mp h
  split at h
  · cases h
  · next x s hlocked =>
    obtain ⟨hfound, hsession⟩ := lockedMemberSubmission_eq_some hlocked
    simp only [bind_eq_ok, require_eq_ok, Except.ok.injEq] at h
    obtain ⟨-, hauthor, -, hkind, -, hopen, t, hrevised, rfl⟩ := h
    exact ⟨⟨x, hfound, hauthor, hkind, s, hsession, hopen⟩, insertReadyTextRevision_revises hrevised,
      .of_submissions rfl rfl rfl rfl rfl, rfl, rfl⟩

/-- A deletion marks the row of a submission in one of the tables, unless it is marked. -/
structure Deletes (submissionId : UUID) (db db' : SubmissionDatabase) : Prop where
  text : db'.text = { db.text with
    submissions := updateWhere (·.id = submissionId) tombstone db.text.submissions }
  files : KeepsFiles db.files db'.files
  submissions : db'.files.other.submissions =
    updateWhere (·.id = submissionId) deletedSubmission db.files.other.submissions
  textRevisions : db'.files.other.textRevisions = db.files.other.textRevisions
  memberSession : ∀ sessionId actorId, memberSession db'.files.other sessionId actorId =
    memberSession db.files.other sessionId actorId

theorem deleteSubmission_spec (h : deleteSubmission submissionId actorId db = .ok db') :
    db' = db ∨ Deletes submissionId db db' := by
  rw [deleteSubmission] at h
  split at h
  · exact nomatch h
  · obtain ⟨-, -, h⟩ := bind_eq_ok.mp h
    split at h
    · exact .inl (Except.ok.inj h).symm
    · obtain ⟨-, -, h⟩ := bind_eq_ok.mp h
      cases h
      refine .inr ⟨rfl, ⟨rfl, rfl, rfl, rfl, fun x ↦ if x.id = submissionId then deletedSubmission x
        else x, rfl, fun x ↦ ?_⟩, rfl, rfl, fun _ _ ↦ rfl⟩
      dsimp only
      split
      · exact ⟨rfl, rfl, fun _ ↦ rfl⟩
      · exact ⟨rfl, rfl, id⟩

end Texts

/-! ## The extraction machine beside the texts -/

/-- What the workers were told stays true. -/
theorem ExtractionState.Sound.keeps {s : ExtractionState} (hs : s.Sound) {db' : FileDatabase}
    (h : KeepsFiles s.db db') (now : Timestamp) : Sound { s with db := db', now := now } := by
  have hfile : ∀ r j, IsFile db' r j ↔ IsFile s.db r j := fun r j ↦
    ⟨fun hf ↦ ⟨h.revisions ▸ hf.revision, h.jobs ▸ hf.job, hf.kind, hf.key, hf.payload⟩,
      fun hf ↦ ⟨h.revisions ▸ hf.revision, h.jobs ▸ hf.job, hf.kind, hf.key, hf.payload⟩⟩
  have hmove : FilesMove False False s.db db' :=
    ⟨fun r j hf ↦ ⟨r, j, (hfile r j).mpr hf, rfl, rfl, h.runs ▸ .refl⟩,
      fun r j hf ↦ .inl ⟨r, j, (hfile r j).mp hf, rfl, rfl, h.runs ▸ .refl⟩⟩
  have hfiled : Filed db' := by
    refine ⟨?_, h.jobs ▸ hs.filed.keys, h.revisions ▸ hs.filed.revisionIds, ?_, ?_,
      h.jobs ▸ hs.filed.named, ?_, ?_, ?_, ?_⟩
    · rw [UniqueIds, h.jobs]
      exact hs.filed.ids
    · rw [h.revisions]
      intro r hr
      obtain ⟨j, hj⟩ := hs.filed.files r hr
      exact ⟨j, (hfile r j).mpr hj⟩
    · rw [h.jobs]
      intro j hj hkind
      obtain ⟨hunheld, r, hr⟩ := hs.filed.jobs j hj hkind
      exact ⟨hunheld, r, (hfile r j).mpr hr⟩
    · rw [h.revisions]
      intro r hr
      obtain ⟨hcurrent, hstored, x, hx, hid⟩ := hs.filed.uploaded r hr
      obtain ⟨f, hf, hkept⟩ := h.submissions
      exact ⟨hcurrent, hstored, f x, hf ▸ List.mem_map_of_mem hx, (hkept x).1.trans hid⟩
    · rw [h.runs, h.revisions]
      exact hs.filed.runs
    · rw [h.runs, h.anchors]
      exact hs.filed.anchored
    · intro r j hf
      rw [h.runs]
      exact hs.filed.sound r j ((hfile r j).mp hf)
  exact ⟨hfiled, fun c hc ↦ (hs.issued c hc).moved hmove, fun p hp ↦ (hs.loaded p hp).moved hmove,
    fun c hc ↦ (hs.putOff c hc).moved hmove⟩

end MeetingRag
