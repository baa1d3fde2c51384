import MeetingRag.Extraction.Frames

/-!
# The limit of a session

Both services refuse a submission once the session has twenty current revisions. Every submission has
exactly one of these, and keeps it when it is deleted, while the list leaves deleted submissions out. So
what is counted is what was ever submitted, and a deletion makes no room.

## Main results

* `SubmissionDatabase.Tallied.count_eq`: the count is that of all submissions of the session.
* `limit_counts_listed_iff`: when the limit is that of the list.
-/

open Outcome Table Py

namespace MeetingRag

/-! ## One current revision each -/

section Current

variable {ρ : Type*} {current : ρ → Bool} {key : ρ → UUID} {ids : List UUID}

theorem count_map_filter (revisions : List ρ) (id : UUID) :
    ((revisions.filter current).map key).count id =
      (revisions.filter fun r ↦ current r = true ∧ key r = id).length := by
  rw [← List.countP_eq_length_filter, List.count, List.countP_map, List.countP_filter]
  refine List.countP_congr fun r _ ↦ ?_
  simp [and_comm]

/-- Where the keys of the current rows are the identifiers, each of these has one. -/
theorem length_filter_of_perm {revisions : List ρ}
    (h : ((revisions.filter current).map key).Perm ids) (hnodup : ids.Nodup) {id : UUID}
    (hid : id ∈ ids) : (revisions.filter fun r ↦ current r = true ∧ key r = id).length = 1 := by
  calc (revisions.filter fun r ↦ current r = true ∧ key r = id).length
      = ((revisions.filter current).map key).count id := (count_map_filter revisions id).symm
    _ = ids.count id := h.count_eq id
    _ = 1 := List.count_eq_one_of_mem hnodup hid

/-- Counting current rows by what they belong to. -/
theorem countP_of_perm {revisions : List ρ} (h : ((revisions.filter current).map key).Perm ids)
    (p : UUID → Prop) [DecidablePred p] :
    revisions.countP (fun r ↦ current r = true ∧ p (key r)) = ids.countP (p ·) := by
  rw [← h.countP_eq, List.countP_map, List.countP_filter]
  refine List.countP_congr fun r _ ↦ ?_
  simp [and_comm]

end Current

/-- The number of submissions of a session, deleted or not. -/
def submissionCount (db : SubmissionDatabase) (sessionId : UUID) : ℕ :=
  db.submissions.countP (·.sessionId = sessionId)

/-- The number of its deleted submissions. -/
def deletedCount (db : SubmissionDatabase) (sessionId : UUID) : ℕ :=
  db.submissions.countP fun x ↦ x.sessionId = sessionId ∧ x.deleted = true

/-- A submission of a session is listed or deleted. -/
theorem countP_listed_add (rows : List StoredSubmission) (sessionId : UUID) :
    rows.countP (fun x ↦ x.sessionId = sessionId ∧ x.deleted = false) +
      rows.countP (fun x ↦ x.sessionId = sessionId ∧ x.deleted = true) =
        rows.countP (·.sessionId = sessionId) := by
  rw [List.countP_eq_countP_filter_add rows (·.sessionId = sessionId) (·.deleted = false),
    List.countP_filter, List.countP_filter]
  congr 1
  · refine List.countP_congr fun x _ ↦ ?_
    simp
  · refine List.countP_congr fun x _ ↦ ?_
    simp

namespace SubmissionDatabase

/-- **What the tables have in common**: every submission has one current revision, and a session has at
most twenty of them. -/
structure Tallied (db : SubmissionDatabase) : Prop where
  ids : (db.submissions.map (·.id)).Nodup
  textOne : ((db.text.revisions.filter (·.isCurrent)).map (·.submissionId)).Perm
    (db.text.submissions.map (·.id))
  fileOne : ((db.files.other.revisions.filter (·.isCurrent)).map (·.submissionId)).Perm
    (db.files.other.submissions.map (·.id))
  mirror : db.files.other.textRevisions = db.text.submissions.map (·.sessionId)
  bounded : ∀ sessionId, submissionCount db sessionId ≤ 20

theorem map_id_submissions (db : SubmissionDatabase) : db.submissions.map (·.id) =
    db.text.submissions.map (·.id) ++ db.files.other.submissions.map (·.id) := by
  rw [submissions, List.map_append, List.map_map]
  rfl

theorem submissionCount_eq (db : SubmissionDatabase) (sessionId : UUID) :
    submissionCount db sessionId = db.text.submissions.countP (·.sessionId = sessionId) +
      db.files.other.submissions.countP (·.sessionId = sessionId) := by
  rw [submissionCount, submissions, List.countP_append, List.countP_map]
  rfl

variable {db : SubmissionDatabase}

theorem Tallied.textIds (h : db.Tallied) : (db.text.submissions.map (·.id)).Nodup :=
  (List.nodup_append'.mp (db.map_id_submissions ▸ h.ids)).1

theorem Tallied.fileIds (h : db.Tallied) : (db.files.other.submissions.map (·.id)).Nodup :=
  (List.nodup_append'.mp (db.map_id_submissions ▸ h.ids)).2.1

/-- With one current revision for each text, the sessions of these are those of the texts. -/
theorem currentSessions_eq {t : TextSubmissionTables} (hids : (t.submissions.map (·.id)).Nodup)
    (hone : ((t.revisions.filter (·.isCurrent)).map (·.submissionId)).Perm
      (t.submissions.map (·.id))) :
    currentSessions t = t.submissions.map (·.sessionId) := by
  rw [currentSessions, List.map_eq_flatMap]
  refine List.flatMap_congr fun x hx ↦ ?_
  have hlength := length_filter_of_perm hone hids (List.mem_map_of_mem (f := (·.id)) hx)
  obtain ⟨r, hr⟩ := List.length_eq_one_iff.mp hlength
  change ((t.revisions.filter fun r ↦ r.isCurrent = true ∧ r.submissionId = x.id).map _) = _
  rw [hr]
  rfl

/-- **The count** that both services check is that of all submissions. -/
theorem Tallied.count_eq (h : db.Tallied) (sessionId : UUID) :
    currentRevisionCount db.files.other sessionId = submissionCount db sessionId := by
  have hfiles : db.files.other.revisions.countP (fun r ↦ r.isCurrent = true ∧
      ∃ x ∈ db.files.other.submissions, x.id = r.submissionId ∧ x.sessionId = sessionId) =
        db.files.other.submissions.countP (·.sessionId = sessionId) := by
    rw [countP_of_perm h.fileOne
      (fun id ↦ ∃ x ∈ db.files.other.submissions, x.id = id ∧ x.sessionId = sessionId),
      List.countP_map]
    refine List.countP_congr fun y hy ↦ ?_
    simp only [Function.comp_apply, decide_eq_true_eq]
    constructor
    · rintro ⟨x, hx, hid, hsession⟩
      exact eq_of_key_eq h.fileIds hx hy hid ▸ hsession
    · exact fun hsession ↦ ⟨y, hy, rfl, hsession⟩
  rw [submissionCount_eq, ← hfiles, currentRevisionCount, h.mirror, List.countP_map]
  rfl

/-! ## The list -/

/-- A submission has one current revision. -/
theorem Tallied.currentRevisions_length (h : db.Tallied) {x : StoredSubmission}
    (hx : x ∈ db.submissions) : (db.currentRevisions x.id).length = 1 := by
  have hid : x.id ∈ db.submissions.map (·.id) := List.mem_map_of_mem hx
  have hboth : ((db.text.revisions.filter (·.isCurrent)).map (·.submissionId) ++
      (db.files.other.revisions.filter (·.isCurrent)).map (·.submissionId)).Perm
        (db.submissions.map (·.id)) := db.map_id_submissions ▸ h.textOne.append h.fileOne
  have hcount := (hboth.count_eq x.id).trans (List.count_eq_one_of_mem h.ids hid)
  rw [List.count_append, count_map_filter, count_map_filter] at hcount
  rw [currentRevisions, List.length_append, List.length_map, List.length_map]
  exact hcount

/-- A member is shown every submission of a session that has not been deleted, once. -/
theorem Tallied.listCurrent (h : db.Tallied) {sessionId actorId : UUID} {s : TalkSession}
    (hmember : memberSession db.files.other sessionId actorId = some s) :
    ∃ rows, MeetingRag.listCurrent sessionId actorId db = .ok rows ∧
      rows.length + deletedCount db sessionId = submissionCount db sessionId := by
  have hrows : ∀ xs : List StoredSubmission, (∀ x ∈ xs, x ∈ db.submissions) →
      ∃ rows, xs.mapM (listRows db) = .ok rows ∧ rows.flatten.length = xs.length := by
    intro xs
    induction xs with
    | nil => exact fun _ ↦ ⟨[], rfl, rfl⟩
    | cons x xs ih =>
      intro hxs
      obtain ⟨hx, hrest⟩ := List.forall_mem_cons.mp hxs
      obtain ⟨rows, hrows, hlength⟩ := ih hrest
      have hone := h.currentRevisions_length hx
      have hsome : db.currentRevisions x.id ≠ [] := fun hnil ↦ by
        rw [hnil] at hone
        exact nomatch hone
      refine ⟨_ :: rows, mapM_eq_ok.mpr (.cons (if_neg hsome) (mapM_eq_ok.mp hrows)), ?_⟩
      rw [List.flatten_cons, List.length_append, List.length_map, hone, hlength, List.length_cons,
        Nat.add_comm]
  obtain ⟨rows, hrows, hlength⟩ := hrows
    (db.submissions.filter fun x ↦ x.sessionId = sessionId ∧ x.deleted = false)
    fun x hx ↦ (List.mem_filter.mp hx).1
  refine ⟨rows.flatten, ?_, ?_⟩
  · rw [MeetingRag.listCurrent, hmember, require_of (Option.isSome_some), ok_bind, hrows, ok_bind]
  · rw [hlength, ← List.countP_eq_length_filter]
    exact countP_listed_add db.submissions sessionId

/-! ## Steps -/

section Steps

variable {U : Nfc} {db' : SubmissionDatabase}

/-- What the tallies see of the tables. -/
theorem Tallied.congr (h : db.Tallied)
    (htext : (db'.text.submissions.map fun x ↦ (x.id, x.sessionId)) =
      db.text.submissions.map fun x ↦ (x.id, x.sessionId))
    (hfiles : (db'.files.other.submissions.map fun x ↦ (x.id, x.sessionId)) =
      db.files.other.submissions.map fun x ↦ (x.id, x.sessionId))
    (htextOne : ((db'.text.revisions.filter (·.isCurrent)).map (·.submissionId)).Perm
      (db.text.submissions.map (·.id)))
    (hfileOne : ((db'.files.other.revisions.filter (·.isCurrent)).map (·.submissionId)).Perm
      (db.files.other.submissions.map (·.id)))
    (hmirror : db'.files.other.textRevisions = db.files.other.textRevisions ∨
      db'.files.other.textRevisions = currentSessions db'.text) : db'.Tallied := by
  have htextIds : db'.text.submissions.map (·.id) = db.text.submissions.map (·.id) := by
    have hcolumn := congrArg (List.map Prod.fst) htext
    rw [List.map_map, List.map_map] at hcolumn
    exact hcolumn
  have hfileIds : db'.files.other.submissions.map (·.id) = db.files.other.submissions.map (·.id) := by
    have hcolumn := congrArg (List.map Prod.fst) hfiles
    rw [List.map_map, List.map_map] at hcolumn
    exact hcolumn
  have htextSessions : db'.text.submissions.map (·.sessionId) =
      db.text.submissions.map (·.sessionId) := by
    have hcolumn := congrArg (List.map Prod.snd) htext
    rw [List.map_map, List.map_map] at hcolumn
    exact hcolumn
  have hfileSessions : db'.files.other.submissions.map (·.sessionId) =
      db.files.other.submissions.map (·.sessionId) := by
    have hcolumn := congrArg (List.map Prod.snd) hfiles
    rw [List.map_map, List.map_map] at hcolumn
    exact hcolumn
  have hcount : ∀ sessionId, submissionCount db' sessionId = submissionCount db sessionId := by
    intro sessionId
    have htextCount := congrArg (List.countP (· = sessionId)) htextSessions
    have hfileCount := congrArg (List.countP (· = sessionId)) hfileSessions
    rw [List.countP_map, List.countP_map] at htextCount hfileCount
    rw [submissionCount_eq, submissionCount_eq]
    exact congrArg₂ (· + ·) htextCount hfileCount
  refine ⟨?_, htextIds ▸ htextOne, hfileIds ▸ hfileOne, ?_, fun sessionId ↦ hcount _ ▸ h.bounded _⟩
  · rw [map_id_submissions, htextIds, hfileIds, ← map_id_submissions]
    exact h.ids
  · obtain hsame | hcurrent := hmirror
    · rw [hsame, h.mirror, htextSessions]
    · rw [hcurrent, currentSessions_eq (htextIds ▸ h.textIds) (htextIds ▸ htextOne)]

/-- A new submission, of either kind. -/
theorem Tallied.added (h : db.Tallied) {id sessionId : UUID}
    (hnew : id ∉ db.submissions.map (·.id)) (hroom : currentRevisionCount db.files.other sessionId < 20)
    (hids : (db'.submissions.map fun x ↦ (x.id, x.sessionId)).Perm
      ((id, sessionId) :: db.submissions.map fun x ↦ (x.id, x.sessionId))) :
    (db'.submissions.map (·.id)).Nodup ∧ ∀ sessionId', submissionCount db' sessionId' ≤ 20 := by
  have hfirst := hids.map Prod.fst
  have hsecond := hids.map Prod.snd
  rw [List.map_cons, List.map_map, List.map_map] at hfirst hsecond
  refine ⟨hfirst.nodup_iff.mpr (List.nodup_cons.mpr ⟨hnew, h.ids⟩), fun sessionId' ↦ ?_⟩
  have hcount := hsecond.countP_eq (· = sessionId')
  rw [List.countP_cons, List.countP_map, List.countP_map] at hcount
  have hle := h.bounded sessionId'
  rw [h.count_eq] at hroom
  unfold submissionCount at hle hroom ⊢
  change _ = db.submissions.countP (·.sessionId = sessionId') + _ at hcount
  change db'.submissions.countP (·.sessionId = sessionId') = _ at hcount
  split at hcount
  · next hsame =>
    have hsession : sessionId = sessionId' := of_decide_eq_true hsame
    subst hsession
    omega
  · omega

theorem Tallied.submitText (h : db.Tallied) {r : TextRequest}
    (hnew : r.submissionId ∉ db.submissions.map (·.id))
    (hok : MeetingRag.submitText U r db = .ok db') : db'.Tallied := by
  obtain ⟨title, hrevised, hroom, hkeeps, hfiles, hmirror⟩ := submitText_spec hok
  obtain ⟨row, hrow, -, hsubmission, hcurrent⟩ := hrevised.revisions
  have hsubmissions := hrevised.submissions
  dsimp only at hrow hsubmissions
  have hone : ((db'.text.revisions.filter (·.isCurrent)).map (·.submissionId)).Perm
      (db'.text.submissions.map (·.id)) := by
    rw [hrow, hsubmissions, List.filter_append, List.map_append, List.map_append,
      List.filter_cons_of_pos hcurrent, List.filter_nil, List.map_singleton, List.map_singleton,
      hsubmission]
    exact h.textOne.append_right _
  have hrows : (db'.submissions.map fun x ↦ (x.id, x.sessionId)).Perm
      ((r.submissionId, r.sessionId) :: db.submissions.map fun x ↦ (x.id, x.sessionId)) := by
    rw [submissions, submissions, hsubmissions, hfiles, List.append_assoc, List.singleton_append]
    simp only [List.map_append, List.map_cons]
    exact List.perm_middle
  obtain ⟨hids, hbounded⟩ := h.added hnew hroom hrows
  have htextIds : (db'.text.submissions.map (·.id)).Nodup :=
    (List.nodup_append'.mp (db'.map_id_submissions ▸ hids)).1
  exact ⟨hids, hone, hkeeps.revisions ▸ hfiles ▸ h.fileOne,
    hmirror.trans (currentSessions_eq htextIds hone), hbounded⟩

theorem Tallied.replaceText (h : db.Tallied) {submissionId actorId : UUID} {text : Str}
    {ids : DrawnIds} (hok : MeetingRag.replaceText U submissionId actorId text ids db = .ok db') :
    db'.Tallied := by
  obtain ⟨⟨x, hreplaces⟩, hrevised, hkeeps, hfiles, hmirror⟩ := replaceText_spec hok
  obtain ⟨row, hrow, -, hsubmission, hcurrent⟩ := hrevised.revisions
  have hsubmissions := hrevised.submissions
  dsimp only at hrow hsubmissions
  -- The submission is one of the texts.
  have hmem : submissionId ∈ db.text.submissions.map (·.id) := by
    have hid : x.id = submissionId := by simpa using List.find?_some hreplaces.found
    rcases List.mem_append.mp (List.mem_of_find?_eq_some hreplaces.found) with hx | hx
    · exact hid ▸ List.mem_map_of_mem hx
    · obtain ⟨y, -, rfl⟩ := List.mem_map.mp hx
      exact nomatch hreplaces.kind
  -- Its current revision makes room for the new one.
  have hleft : ((updateWhere (·.CurrentOf submissionId) supersededRevision
      db.text.revisions).filter (·.isCurrent)).map (·.submissionId) =
        ((db.text.revisions.filter (·.isCurrent)).map (·.submissionId)).filter (· != submissionId) := by
    induction db.text.revisions with
    | nil => rfl
    | cons r revisions ih =>
      rw [updateWhere, List.map_cons]
      rw [updateWhere] at ih
      by_cases hr : r.isCurrent = true <;> by_cases hof : r.submissionId = submissionId <;>
        simpa [TextRevision.CurrentOf, supersededRevision, hr, hof] using ih
  have hone : ((db'.text.revisions.filter (·.isCurrent)).map (·.submissionId)).Perm
      (db.text.submissions.map (·.id)) := by
    rw [hrow, List.filter_append, List.map_append, hleft, List.filter_cons_of_pos hcurrent,
      List.filter_nil, List.map_singleton, hsubmission]
    refine ((h.textOne.filter _).append_right [submissionId]).trans ?_
    rw [← h.textIds.erase_eq_filter]
    exact (List.perm_append_comm.trans (List.perm_cons_erase hmem).symm)
  exact h.congr (by rw [hsubmissions]) (by rw [hfiles]) hone (hkeeps.revisions ▸ h.fileOne)
    (.inr hmirror)

theorem Tallied.deleteSubmission (h : db.Tallied) {submissionId actorId : UUID}
    (hok : MeetingRag.deleteSubmission submissionId actorId db = .ok db') : db'.Tallied := by
  obtain rfl | hdeletes := deleteSubmission_spec hok
  · exact h
  · have htext := hdeletes.text
    refine h.congr ?_ ?_ (by rw [htext]; exact h.textOne) (hdeletes.files.revisions ▸ h.fileOne)
      (.inl hdeletes.textRevisions)
    · rw [htext]
      exact map_updateWhere_of_forall fun _ ↦ rfl
    · rw [hdeletes.submissions]
      exact map_updateWhere_of_forall fun _ ↦ rfl

theorem Tallied.uploads (h : db.Tallied) {u : FileUpload} {files : FileDatabase}
    (hnew : u.submissionId ∉ db.submissions.map (·.id)) (hu : Uploads u db.files.other files.other) :
    Tallied ⟨files, db.text⟩ := by
  obtain ⟨roomId, hsubmissions⟩ := hu.submissions
  have hrows : ((SubmissionDatabase.mk files db.text).submissions.map fun x ↦ (x.id, x.sessionId)).Perm
      ((u.submissionId, u.sessionId) :: db.submissions.map fun x ↦ (x.id, x.sessionId)) := by
    rw [submissions, submissions, hsubmissions]
    simp only [List.map_append, List.map_singleton, ← List.append_assoc]
    exact List.perm_append_singleton _ _
  obtain ⟨hids, hbounded⟩ := h.added hnew hu.room hrows
  refine ⟨hids, h.textOne, ?_, hu.textRevisions.trans h.mirror, hbounded⟩
  rw [hu.revisions, hsubmissions, List.filter_append, List.map_append, List.map_append]
  exact h.fileOne.append_right _

theorem Tallied.touches (h : db.Tallied) {P : UUID → Prop} {files : FileDatabase}
    (ht : Touches P db.files.other files.other) : Tallied ⟨files, db.text⟩ := by
  obtain ⟨g, hg, hkept⟩ := ht.revisions
  have hone : (files.other.revisions.filter (·.isCurrent)).map (·.submissionId) =
      (db.files.other.revisions.filter (·.isCurrent)).map (·.submissionId) := by
    rw [hg, List.filter_map, List.map_map]
    have hcurrent : (fun r : FileRevision ↦ r.isCurrent) ∘ g = fun r ↦ r.isCurrent :=
      funext fun r ↦ (hkept r).2.2.1
    rw [hcurrent]
    exact List.map_congr_left fun r _ ↦ (hkept r).2.1
  exact h.congr rfl (by rw [ht.submissions]) h.textOne (hone ▸ h.fileOne) (.inl ht.textRevisions)

end Steps

end SubmissionDatabase

/-! ## Runs -/

/-- What holds in every state of a run. -/
structure SubmissionState.Sound (s : SubmissionState) : Prop where
  files : s.files.Sound
  tallied : s.database.Tallied

theorem sound_emptySubmissions (now : Timestamp) : (emptySubmissions now).Sound where
  files := sound_emptyExtraction now
  tallied := ⟨List.nodup_nil, .nil, .nil, rfl, fun _ ↦ Nat.zero_le _⟩

section Runs

variable {U : Nfc} {s : SubmissionState}

theorem SubmissionState.Sound.commit (hs : s.Sound) {clock : StatementClock}
    {r : Except TextSubmissionError SubmissionDatabase}
    (hr : ∀ db, r = .ok db → db.Tallied ∧ KeepsFiles s.files.db db.files) : (s.commit clock r).2.Sound := by
  cases r with
  | ok db =>
    obtain ⟨htallied, hkeeps⟩ := hr db rfl
    exact ⟨hs.files.keeps hkeeps clock.written, htallied⟩
  | error e => exact ⟨⟨hs.files.filed, hs.files.issued, hs.files.loaded, hs.files.putOff⟩, hs.tallied⟩

theorem deleteSubmission_keeps {db db' : SubmissionDatabase} {submissionId actorId : UUID}
    (h : deleteSubmission submissionId actorId db = .ok db') : KeepsFiles db.files db'.files := by
  obtain rfl | hdeletes := deleteSubmission_spec h
  · exact .of_submissions rfl rfl rfl rfl rfl
  · exact hdeletes.files

/-- The rest of the application leaves the submissions to the two services. -/
theorem BesideFiles.apply_submissions {w : BesideFiles} (hw : w.deleted = []) (db : FileDatabase) :
    (w.apply db).other.submissions = db.other.submissions := by
  refine updateWhere_eq_self fun x _ hx ↦ ?_
  rw [hw] at hx
  exact List.not_mem_nil hx

/-- What the extraction machine keeps of the tallies. -/
theorem SubmissionState.Sound.file (hs : s.Sound) {clock : StatementClock} {call : ExtractionCall}
    (hadmits : s.Admits (.file call)) :
    SubmissionDatabase.Tallied ⟨(extractionMachine.step s.files ⟨clock, call⟩).2.db, s.text⟩ := by
  have hdb : (extractionMachine.step s.files ⟨clock, call⟩).2.db =
      (transaction s.files.db (call.body clock s.files.db)).2 := ExtractionState.record_db _ _
  rw [hdb]
  cases hbody : call.body clock s.files.db with
  | error e => exact hs.tallied
  | ok result =>
    obtain ⟨reply, db'⟩ := result
    rw [transaction_ok]
    cases call with
    | submit upload =>
      obtain ⟨⟨_, db₁⟩, hsubmit, hresult⟩ := bind_eq_ok.mp hbody
      cases hresult
      exact hs.tallied.uploads hadmits.1 (submitFile_uploads hsubmit)
    | elsewhere writes =>
      cases hbody
      obtain ⟨-, htextRevisions, hdeleted⟩ := hadmits
      exact hs.tallied.congr rfl (congrArg _ (BesideFiles.apply_submissions hdeleted _))
        hs.tallied.textOne hs.tallied.fileOne (.inl htextRevisions)
    | _ =>
      refine hs.tallied.touches (hs.files.touches ?_ ?_ hbody)
      · exact nofun
      · exact nofun

theorem SubmissionState.Sound.step (hs : s.Sound) {i : SubmissionInput}
    (henabled : (submissionMachine U).enabled s i) : ((submissionMachine U).step s i).2.Sound := by
  obtain ⟨clock, call⟩ := i
  obtain ⟨-, hadmits⟩ := henabled
  cases call with
  | submitText request =>
    refine hs.commit fun db hdb ↦ ⟨hs.tallied.submitText hadmits.1 hdb, ?_⟩
    obtain ⟨-, -, -, hkeeps, -⟩ := submitText_spec hdb
    exact hkeeps
  | replaceText submissionId actorId text ids =>
    exact hs.commit fun db hdb ↦ ⟨hs.tallied.replaceText hdb, (replaceText_spec hdb).2.2.1⟩
  | delete submissionId actorId =>
    exact hs.commit fun db hdb ↦ ⟨hs.tallied.deleteSubmission hdb, deleteSubmission_keeps hdb⟩
  | file call =>
    refine ⟨hs.files.step ?_, hs.file hadmits⟩
    cases call with
    | elsewhere writes => exact hadmits.1
    | submit upload => trivial
    | _ => exact hadmits

theorem submissions_sound {now : Timestamp} {is : List SubmissionInput}
    (h : (submissionMachine U).Legal (emptySubmissions now) is) :
    ((submissionMachine U).exec (emptySubmissions now) is).Sound :=
  h.invariant (sound_emptySubmissions now) fun _ _ hs henabled ↦ hs.step henabled

end Runs

/-! ## Attempts -/

/-- A further submission. -/
inductive SubmissionAttempt
  | text (request : TextRequest)
  | file (upload : FileUpload) (clock : StatementClock)

namespace SubmissionAttempt

def sessionId : SubmissionAttempt → UUID
  | text request => request.sessionId
  | file upload _ => upload.sessionId

def actorId : SubmissionAttempt → UUID
  | text request => request.actorId
  | file upload _ => upload.actorId

/-- Nothing but the limit stands against it: the text and the title are valid, the session is open, and
its author is a member. -/
def Entitled (U : Nfc) (db : SubmissionDatabase) (a : SubmissionAttempt) : Prop :=
  (∃ s, memberSession db.files.other a.sessionId a.actorId = some s ∧ s.state = .open) ∧
    match a with
    | text request => (∃ text, validatedNormalizedText U request.text = .ok text) ∧
        ∃ title, validatedTitle U request.title = .ok title
    | file .. => True

/-- It is rejected for the limit of the session. -/
def Limited (U : Nfc) (db : SubmissionDatabase) : SubmissionAttempt → Prop
  | text request => submitText U request db = .error limitReached
  | file upload clock =>
    submitFile upload clock db.files = .error (.fileSubmissionLimit "current revision limit reached")

/-- The session lists twenty submissions. -/
def ListsTwenty (db : SubmissionDatabase) (a : SubmissionAttempt) : Prop :=
  ∃ rows, listCurrent a.sessionId a.actorId db = .ok rows ∧ rows.length = 20

variable {U : Nfc} {db : SubmissionDatabase}

theorem limited_text_iff {request : TextRequest} (h : (text request).Entitled U db) :
    (text request).Limited U db ↔ 20 ≤ currentRevisionCount db.files.other request.sessionId := by
  obtain ⟨⟨s, hmember, hopen⟩, ⟨normalized, htext⟩, title, htitle⟩ := h
  have hroom : requireOpenMember db.files.other request.sessionId request.actorId = .ok s.roomId := by
    change memberSession db.files.other request.sessionId request.actorId = some s at hmember
    rw [requireOpenMember, hmember]
    exact bind_eq_ok.mpr ⟨_, require_of hopen, rfl⟩
  rw [Limited, submitText, htext, ok_bind, htitle, ok_bind, hroom, ok_bind]
  by_cases hfull : currentRevisionCount db.files.other request.sessionId ≥ 20
  · rw [require_of_not (not_not.mpr hfull), error_bind]
    exact iff_of_true rfl hfull
  · rw [require_of hfull, ok_bind]
    refine iff_of_false (fun hlimited ↦ ?_) hfull
    -- What comes behind the check raises other exceptions.
    have hescaping : ∀ {α : Type} {x : Except Exc α}, ¬Raises (· = limitReached) (escaping x) := by
      rintro α (e | a) ⟨e', he', rfl⟩
      · cases he'
      · cases he'
    have hnot : ∀ t, ¬Raises (· = limitReached) (insertReadyTextRevision U request.submissionId 1
        normalized request.ids t) := fun t ↦
      not_raises_bind hescaping fun _ _ ↦ not_raises_bind hescaping fun _ _ ↦
        not_raises_bind hescaping fun _ _ ↦
          not_raises_bind (not_raises_require (by rintro ⟨⟩)) fun _ _ ↦ not_raises_ok
    exact (not_raises_bind (hnot _) fun _ _ ↦ not_raises_ok) ⟨_, hlimited, rfl⟩

theorem limited_file_iff {upload : FileUpload} {clock : StatementClock}
    (h : (file upload clock).Entitled U db) :
    (file upload clock).Limited U db ↔ 20 ≤ currentRevisionCount db.files.other upload.sessionId := by
  obtain ⟨⟨s, hmember, hopen⟩, -⟩ := h
  have hroom : requireOpenMemberSession db.files.other upload.sessionId upload.actorId =
      .ok s.roomId := by
    have hfound : db.files.other.talkSessions.find? (fun s ↦ s.id = upload.sessionId ∧
        ∃ m ∈ db.files.other.roomMemberships, m.roomId = s.roomId ∧ m.userId = upload.actorId ∧
          m.left = false) = some s := hmember
    rw [requireOpenMemberSession, hfound]
    exact bind_eq_ok.mpr ⟨_, require_of hopen, rfl⟩
  rw [Limited, submitFile, hroom, ok_bind]
  by_cases hfull : currentRevisionCount db.files.other upload.sessionId ≥ 20
  · rw [require_of_not (not_not.mpr hfull), error_bind]
    exact iff_of_true rfl hfull
  · rw [require_of hfull, ok_bind]
    refine iff_of_false (fun hlimited ↦ ?_) hfull
    have henqueue : ∀ t : FileDatabase, ¬Raises (· = Error.fileSubmissionLimit "current revision limit reached")
        (enqueue upload.jobId (extractionKey upload.revisionId) JobKind.extraction.value
          (ExtractionDocument.job upload.revisionId upload.fileType.1.mediaType upload.fileType.1.parser)
          none clock t) := by
      intro t
      refine not_raises_bind (not_raises_require (by rintro ⟨⟩)) fun _ _ ↦ not_raises_bind ?_
        fun _ _ ↦ not_raises_bind (not_raises_require (by rintro ⟨⟩)) fun _ _ ↦ not_raises_bind ?_
          fun _ _ ↦ ?_
      · rw [requireKind]
        split
        · exact not_raises_ok
        · exact raises_error.not.mpr (by rintro ⟨⟩)
      · rw [insertJobOrIgnore]
        split
        · exact not_raises_ok
        · exact not_raises_insertUnique (by rintro ⟨⟩)
      · split
        · exact not_raises_ok
        · exact raises_error.not.mpr (by rintro ⟨⟩)
    refine (not_raises_bind (not_raises_insertUnique (by rintro ⟨⟩)) fun _ _ ↦
      not_raises_bind (not_raises_insertUnique (by rintro ⟨⟩)) fun _ _ ↦
        not_raises_bind (henqueue _) fun _ _ ↦ not_raises_ok) ⟨_, hlimited, rfl⟩

/-- Both services check the same count. -/
theorem limited_iff {a : SubmissionAttempt} (h : a.Entitled U db) (htallied : db.Tallied) :
    a.Limited U db ↔ 20 ≤ submissionCount db a.sessionId := by
  rw [← htallied.count_eq]
  cases a with
  | text request => exact limited_text_iff h
  | file upload clock => exact limited_file_iff h

end SubmissionAttempt

/-- A deletion leaves the number of submissions as it was. -/
theorem Deletes.submissionCount {db db' : SubmissionDatabase} {submissionId : UUID}
    (h : Deletes submissionId db db') (sessionId : UUID) :
    submissionCount db' sessionId = submissionCount db sessionId := by
  have htextColumn : (updateWhere (·.id = submissionId) tombstone db.text.submissions).map
      (·.sessionId) = db.text.submissions.map (·.sessionId) := map_updateWhere_of_forall fun _ ↦ rfl
  have hfileColumn : (updateWhere (·.id = submissionId) deletedSubmission
      db.files.other.submissions).map (·.sessionId) = db.files.other.submissions.map (·.sessionId) :=
    map_updateWhere_of_forall fun _ ↦ rfl
  have htext := congrArg (List.countP (· = sessionId)) htextColumn
  have hfiles := congrArg (List.countP (· = sessionId)) hfileColumn
  rw [List.countP_map, List.countP_map] at htext hfiles
  rw [SubmissionDatabase.submissionCount_eq, SubmissionDatabase.submissionCount_eq, h.text,
    h.submissions]
  exact congrArg₂ (· + ·) htext hfiles

/-- Where the limit is that of the list. -/
theorem SubmissionDatabase.Tallied.limited_iff_listed {U : Nfc} {db : SubmissionDatabase}
    {a : SubmissionAttempt} (h : db.Tallied) (hentitled : a.Entitled U db) :
    (a.Limited U db ↔ a.ListsTwenty db) ↔
      submissionCount db a.sessionId < 20 ∨ deletedCount db a.sessionId = 0 := by
  obtain ⟨s, hmember, -⟩ := hentitled.1
  obtain ⟨rows, hrows, hlength⟩ := h.listCurrent hmember
  have hlists : a.ListsTwenty db ↔ rows.length = 20 := by
    constructor
    · rintro ⟨rows', hrows', htwenty⟩
      cases hrows.symm.trans hrows'
      exact htwenty
    · exact fun htwenty ↦ ⟨rows, hrows, htwenty⟩
  have hle := h.bounded a.sessionId
  rw [SubmissionAttempt.limited_iff hentitled h, hlists]
  omega

/-- **The limit is that of the list** exactly where the session has room left, or no deleted submission;
and a deletion makes room exactly where there was some. -/
theorem limit_counts_listed_iff (U : Nfc) (now : Timestamp) (is : List SubmissionInput)
    (a : SubmissionAttempt) (h : (submissionMachine U).Legal (emptySubmissions now) is)
    (hentitled : a.Entitled U ((submissionMachine U).exec (emptySubmissions now) is).database) :
    let db := ((submissionMachine U).exec (emptySubmissions now) is).database
    ((a.Limited U db ↔ a.ListsTwenty db) ↔
        submissionCount db a.sessionId < 20 ∨ deletedCount db a.sessionId = 0) ∧
      ∀ submissionId actorId db', deleteSubmission submissionId actorId db = .ok db' →
        (¬a.Limited U db' ↔ submissionCount db a.sessionId < 20) := by
  intro db
  have htallied : db.Tallied := (submissions_sound h).tallied
  refine ⟨htallied.limited_iff_listed hentitled, fun submissionId actorId db' hdeleted ↦ ?_⟩
  obtain ⟨⟨s, hmember, hopen⟩, hvalid⟩ := hentitled
  have hkept : submissionCount db' a.sessionId = submissionCount db a.sessionId ∧
      ∀ sessionId actorId, memberSession db'.files.other sessionId actorId =
        memberSession db.files.other sessionId actorId := by
    obtain rfl | hdeletes := deleteSubmission_spec hdeleted
    · exact ⟨rfl, fun _ _ ↦ rfl⟩
    · exact ⟨hdeletes.submissionCount _, hdeletes.memberSession⟩
  have hentitled' : a.Entitled U db' := ⟨⟨s, (hkept.2 _ _).trans hmember, hopen⟩, hvalid⟩
  rw [SubmissionAttempt.limited_iff hentitled' (htallied.deleteSubmission hdeleted), hkept.1]
  exact not_le

/-! ### A session with files -/

def submissionAt (n : ℕ) (call : SubmissionCall) : SubmissionInput := ⟨⟨n, n, instant_le n⟩, call⟩

/-- The member of the open session submits a text, with identifiers from a number on. -/
def shortText (n : ℕ) : TextRequest where
  sessionId := 3
  actorId := 1
  text := lit "x"
  title := lit "t"
  submissionId := ⟨BitVec.ofNat 128 n⟩
  ids := ⟨⟨BitVec.ofNat 128 (n + 1)⟩, ⟨BitVec.ofNat 128 (n + 2)⟩⟩

/-- The member uploads a file, likewise. -/
def shortFile (n : ℕ) : FileUpload :=
  { textUpload with
    submissionId := ⟨BitVec.ofNat 128 n⟩
    revisionId := ⟨BitVec.ofNat 128 (n + 1)⟩
    jobId := ⟨BitVec.ofNat 128 (n + 2)⟩ }

/-- A number of files, and the deletion of the first one. -/
def filesThenDeletion (n : ℕ) : List SubmissionInput :=
  submissionAt 0 (.file (.elsewhere oneOpenSession)) ::
    (List.range n).map (fun k ↦ submissionAt (k + 1) (.file (.submit (shortFile (100 + 3 * k))))) ++
      [submissionAt (n + 1) (.delete 100 1)]

/-- A further text is kept out by nothing but the limit. -/
theorem entitled_shortText {db : SubmissionDatabase} {n : ℕ}
    (h : memberSession db.files.other 3 1 = some ⟨3, 2, 1, "topic", .open, 0, 1, 0⟩) :
    (SubmissionAttempt.text (shortText n)).Entitled Nfc.ascii db := by
  have htext : validatedNormalizedText Nfc.ascii (lit "x") = .ok (lit "x") := by decide +kernel
  have htitle : validatedTitle Nfc.ascii (lit "t") = .ok (lit "t") := by decide +kernel
  exact ⟨⟨_, h, rfl⟩, ⟨_, htext⟩, _, htitle⟩

theorem limit_counts_listed_iff_oneFile :
    let db := ((submissionMachine Nfc.ascii).exec (emptySubmissions 0) (filesThenDeletion 1)).database
    let a := SubmissionAttempt.text (shortText 200)
    deletedCount db a.sessionId = 1 ∧ ((a.Limited Nfc.ascii db ↔ a.ListsTwenty db) ↔
        submissionCount db a.sessionId < 20 ∨ deletedCount db a.sessionId = 0) ∧
      ∀ submissionId actorId db', deleteSubmission submissionId actorId db = .ok db' →
        (¬a.Limited Nfc.ascii db' ↔ submissionCount db a.sessionId < 20) :=
  ⟨by decide +kernel, limit_counts_listed_iff Nfc.ascii 0 (filesThenDeletion 1) _ (by decide +kernel)
    (entitled_shortText (by decide +kernel))⟩

/-! ### Files that are taken in -/

section Fresh

variable (clock : StatementClock)

theorem blobKey_injective {a b : UUID} (h : blobKey a = blobKey b) : a = b := by
  have hchars := congrArg String.toList h
  simp only [blobKey, UUID.str, String.toList_append, String.toList_ofList] at hchars
  have hdigits := List.append_cancel_right hchars
  rw [UUID.filter_chars, UUID.filter_chars] at hdigits
  exact UUID.toNat_injective (Text.hexDigits_injective a.toNat_lt b.toNat_lt hdigits)

theorem requireLogicalKey_extractionKey (id : UUID) : requireLogicalKey (extractionKey id) = .ok () := by
  refine require_eq_ok.mpr ?_
  have hchars : (extractionKey id).toList = "extraction:".toList ++ id.str.toList := String.toList_append
  rintro (hblank | hlong)
  · have hfirst : 'e' ∈ (extractionKey id).toList := by
      rw [hchars]
      exact List.mem_append_left _ (by decide)
    exact absurd (hblank 'e' hfirst) (by decide)
  · rw [← String.length_toList, hchars, List.length_append, UUID.length_str] at hlong
    exact absurd hlong (by decide)

/-- A job under a new key is put in the queue. -/
theorem enqueue_of_fresh (db : FileDatabase) {jobId revisionId : UUID} (payload : ExtractionDocument)
    (hpayload : JsonDocument.encodable payload = true)
    (hfresh : ∀ j ∈ db.jobs, j.id ≠ jobId ∧ j.logicalKey ≠ extractionKey revisionId) :
    ∃ job, enqueue jobId (extractionKey revisionId) JobKind.extraction.value payload none clock db =
      .ok (job, { db with jobs := db.jobs ++
        [newJob jobId (extractionKey revisionId) .extraction none payload clock.written] }) := by
  have hjobs : insertJobOrIgnore
      (newJob jobId (extractionKey revisionId) .extraction none payload clock.written) db.jobs =
        .ok (db.jobs ++
          [newJob jobId (extractionKey revisionId) .extraction none payload clock.written]) := by
    have hnew : ¬∃ j ∈ db.jobs, j.logicalKey = extractionKey revisionId := by
      rintro ⟨j, hj, h⟩
      exact (hfresh j hj).2 h
    refine (if_neg hnew).trans ?_
    exact insertUnique_of_fresh fun j hj hclash ↦ hclash.elim (hfresh j hj).1 (hfresh j hj).2
  obtain ⟨row, hrow⟩ : ∃ row, (db.jobs ++
      [newJob jobId (extractionKey revisionId) .extraction none payload clock.written]).find?
        (·.logicalKey = extractionKey revisionId) = some row := by
    rw [← Option.isSome_iff_exists, List.find?_isSome]
    exact ⟨_, List.mem_append_right _ (List.mem_singleton_self _), decide_eq_true rfl⟩
  have hkind : requireKind JobKind.extraction.value = .ok .extraction := rfl
  have hfinite : requireFinite payload = .ok () := require_eq_ok.mpr hpayload
  refine ⟨durableJobFromRow row, ?_⟩
  rw [enqueue, requireLogicalKey_extractionKey, ok_bind, hkind, ok_bind, hfinite, ok_bind, hjobs, ok_bind]
  simp only [hrow]

/-- An upload under new identifiers is taken in where there is room. -/
theorem submitFile_of_fresh {db : FileDatabase} {u : FileUpload} {roomId : UUID}
    (hroom : requireOpenMemberSession db.other u.sessionId u.actorId = .ok roomId)
    (hcount : currentRevisionCount db.other u.sessionId < 20)
    (hsubmissions : ∀ x ∈ db.other.submissions, x.id ≠ u.submissionId)
    (hrevisions : ∀ r ∈ db.other.revisions, r.id ≠ u.revisionId ∧ r.submissionId ≠ u.submissionId ∧
      r.storageKey = some (blobKey r.id))
    (hjobs : ∀ j ∈ db.jobs, j.id ≠ u.jobId ∧ j.logicalKey ≠ extractionKey u.revisionId) :
    ∃ job events, job.id = u.jobId ∧ job.logicalKey = extractionKey u.revisionId ∧
      submitFile u clock db = .ok ((), { db with
        jobs := db.jobs ++ [job]
        other := { db.other with
          submissions := db.other.submissions ++ [u.submission roomId]
          revisions := db.other.revisions ++ [u.revision]
          auditEvents := events } }) := by
  have hsubmission : insertUnique fileSubmissionsClash (fun _ ↦ Error.database "submissions_pkey")
      (u.submission roomId) db.other.submissions =
        .ok (db.other.submissions ++ [u.submission roomId]) :=
    insertUnique_of_fresh hsubmissions
  have hrevision : insertUnique fileRevisionsClash (fun _ ↦ Error.database "source_revisions_key")
      u.revision db.other.revisions = .ok (db.other.revisions ++ [u.revision]) := by
    refine insertUnique_of_fresh fun r hr hclash ↦ ?_
    obtain ⟨hid, hsubmissionId, hkey⟩ := hrevisions r hr
    obtain h | h | ⟨-, h⟩ := hclash
    · exact hid h
    · exact hsubmissionId h
    · exact hid (blobKey_injective (Option.some.inj (hkey.symm.trans h)))
  obtain ⟨job, henqueue⟩ := enqueue_of_fresh clock { db with
    other := { db.other with
      submissions := db.other.submissions ++ [u.submission roomId]
      revisions := db.other.revisions ++ [u.revision] } }
    (.job u.revisionId u.fileType.1.mediaType u.fileType.1.parser) rfl hjobs
  have hlimit : require (¬currentRevisionCount db.other u.sessionId ≥ 20)
      (Error.fileSubmissionLimit "current revision limit reached") = .ok () :=
    require_eq_ok.mpr (Nat.not_le.mpr hcount)
  refine ⟨newJob u.jobId (extractionKey u.revisionId) .extraction none
    (.job u.revisionId u.fileType.1.mediaType u.fileType.1.parser) clock.written,
    appendEvent ⟨.submission ⟨.created, by decide⟩ u.submissionId 1, some u.actorId, some roomId,
      some u.sessionId⟩ db.other.auditEvents, rfl, rfl, ?_⟩
  rw [submitFile, hroom, ok_bind, hlimit, ok_bind, hsubmission, ok_bind, hrevision, ok_bind, henqueue,
    ok_bind]

end Fresh

/-! ### Twenty uploads -/

/-- The tables of the files after a number of uploads, but for the events. -/
def filledTables (n : ℕ) : FileTables :=
  { (oneOpenSession.apply (emptyStore emptyFileTables)).other with
    submissions := (List.range n).map fun k ↦ (shortFile (100 + 3 * k)).submission 2
    revisions := (List.range n).map fun k ↦ (shortFile (100 + 3 * k)).revision }

/-- The state after a number of uploads. -/
structure Filled (n : ℕ) (s : SubmissionState) : Prop where
  now : s.files.now = n
  text : s.text = ⟨[], [], [], []⟩
  other : ∃ events, s.files.db.other = { filledTables n with auditEvents := events }
  jobs : ∀ j ∈ s.files.db.jobs, ∃ k < n, j.id = (shortFile (100 + 3 * k)).jobId ∧
    j.logicalKey = extractionKey (shortFile (100 + 3 * k)).revisionId

theorem ofNat_ne {a b : ℕ} (ha : a < 1000) (hb : b < 1000) (h : a ≠ b) :
    (⟨BitVec.ofNat 128 a⟩ : UUID) ≠ ⟨BitVec.ofNat 128 b⟩ := by
  intro hsame
  have hnat := congrArg BitVec.toNat (UUID.mk.inj hsame)
  rw [BitVec.toNat_ofNat, BitVec.toNat_ofNat, Nat.mod_eq_of_lt (by omega),
    Nat.mod_eq_of_lt (by omega)] at hnat
  exact h hnat

/-- The uploads use different identifiers. -/
theorem shortFile_ids {k n : ℕ} (hk : k < n) (hn : n < 20) :
    (shortFile (100 + 3 * k)).submissionId ≠ (shortFile (100 + 3 * n)).submissionId ∧
      (shortFile (100 + 3 * k)).revisionId ≠ (shortFile (100 + 3 * n)).revisionId ∧
        (shortFile (100 + 3 * k)).jobId ≠ (shortFile (100 + 3 * n)).jobId :=
  ⟨@ofNat_ne (100 + 3 * k) (100 + 3 * n) (by omega) (by omega) (by omega),
    @ofNat_ne (100 + 3 * k + 1) (100 + 3 * n + 1) (by omega) (by omega) (by omega),
    @ofNat_ne (100 + 3 * k + 2) (100 + 3 * n + 2) (by omega) (by omega) (by omega)⟩

/-- **Another upload is taken in.** -/
theorem Filled.step {n : ℕ} {s : SubmissionState} (h : Filled n s) (hn : n < 20) :
    (submissionMachine Nfc.ascii).enabled s
        (submissionAt (n + 1) (.file (.submit (shortFile (100 + 3 * n))))) ∧
      Filled (n + 1) ((submissionMachine Nfc.ascii).step s
        (submissionAt (n + 1) (.file (.submit (shortFile (100 + 3 * n)))))).2 := by
  obtain ⟨hnow, htext, ⟨events, hother⟩, hjobs⟩ := h
  generalize hupload : shortFile (100 + 3 * n) = u
  have hsubmissions : ∀ x ∈ s.files.db.other.submissions, x.id ≠ u.submissionId := by
    intro x hx
    rw [hother] at hx
    obtain ⟨k, hk, rfl⟩ := List.mem_map.mp hx
    exact hupload ▸ (shortFile_ids (List.mem_range.mp hk) hn).1
  have hrevisions : ∀ r ∈ s.files.db.other.revisions, r.id ≠ u.revisionId ∧
      r.submissionId ≠ u.submissionId ∧ r.storageKey = some (blobKey r.id) := by
    intro r hr
    rw [hother] at hr
    obtain ⟨k, hk, rfl⟩ := List.mem_map.mp hr
    obtain ⟨hsubmission, hrevision, -⟩ := shortFile_ids (List.mem_range.mp hk) hn
    rw [hupload] at hsubmission hrevision
    exact ⟨hrevision, hsubmission, rfl⟩
  have hnew : ∀ j ∈ s.files.db.jobs, j.id ≠ u.jobId ∧ j.logicalKey ≠ extractionKey u.revisionId := by
    intro j hj
    obtain ⟨k, hk, hid, hkey⟩ := hjobs j hj
    obtain ⟨-, hrevision, hjob⟩ := shortFile_ids hk hn
    rw [hupload] at hrevision hjob
    rw [hid, hkey]
    exact ⟨hjob, fun hsame ↦ hrevision (extractionKey_injective hsame)⟩
  have hroom : requireOpenMemberSession s.files.db.other 3 1 = .ok 2 := by
    rw [hother]
    rfl
  have hcount : currentRevisionCount s.files.db.other 3 < 20 := by
    have htextRevisions : s.files.db.other.textRevisions = [] := by rw [hother]; rfl
    have hlength : s.files.db.other.revisions.length = n := by
      rw [hother]
      exact (List.length_map _).trans List.length_range
    rw [currentRevisionCount, htextRevisions, List.countP_nil, Nat.zero_add]
    exact lt_of_le_of_lt List.countP_le_length (hlength ▸ hn)
  have hmember : u.sessionId = 3 ∧ u.actorId = 1 := by
    rw [← hupload]
    exact ⟨rfl, rfl⟩
  rw [← hmember.1, ← hmember.2] at hroom
  rw [← hmember.1] at hcount
  obtain ⟨job, events', hid, hkey, hsubmit⟩ := submitFile_of_fresh
    ⟨(n + 1 : ℕ), (n + 1 : ℕ), le_rfl⟩
    hroom hcount hsubmissions hrevisions hnew
  have hstep : (submissionMachine Nfc.ascii).step s (submissionAt (n + 1) (.file (.submit u))) =
      (.file (.ok .done), { s with files := { s.files with
        db := { s.files.db with
          jobs := s.files.db.jobs ++ [job]
          other := { s.files.db.other with
            submissions := s.files.db.other.submissions ++ [u.submission 2]
            revisions := s.files.db.other.revisions ++ [u.revision]
            auditEvents := events' } }
        now := (n + 1 : ℕ) } }) := by
    rw [submissionMachine, submissionAt]
    dsimp only
    rw [extractionMachine]
    dsimp only
    rw [ExtractionCall.body, hsubmit, ok_bind, transaction_ok]
    rfl
  refine ⟨⟨?_, ?_, ?_⟩, ?_⟩
  · rw [hnow]
    exact Nat.cast_le.mpr (Nat.le_succ n)
  · rw [SubmissionState.database, SubmissionDatabase.map_id_submissions, htext]
    rintro hmem
    obtain ⟨x, hx, hxid⟩ := List.mem_map.mp hmem
    exact hsubmissions x hx hxid
  · refine ⟨?_, fun hmem ↦ ?_⟩
    · rw [htext]
      exact List.not_mem_nil
    · obtain ⟨r, hr, hrid⟩ := List.mem_map.mp hmem
      exact (hrevisions r hr).1 hrid
  · rw [hstep]
    refine ⟨rfl, htext, ⟨events', ?_⟩, ?_⟩
    · dsimp only
      rw [hother]
      simp only [filledTables, List.range_succ, List.map_append, List.map_singleton, hupload]
    · intro j hj
      rcases List.mem_append.mp hj with hj | hj
      · obtain ⟨k, hk, hfile⟩ := hjobs j hj
        exact ⟨k, hk.trans (Nat.lt_succ_self n), hfile⟩
      · obtain rfl := List.mem_singleton.mp hj
        exact ⟨n, Nat.lt_succ_self n, hupload ▸ ⟨hid, hkey⟩⟩

/-- The uploads in front of the deletion. -/
def filesOnly (n : ℕ) : List SubmissionInput :=
  submissionAt 0 (.file (.elsewhere oneOpenSession)) ::
    (List.range n).map fun k ↦ submissionAt (k + 1) (.file (.submit (shortFile (100 + 3 * k))))

/-- Up to twenty uploads are taken in. -/
theorem filled_filesOnly {n : ℕ} (hn : n ≤ 20) :
    (submissionMachine Nfc.ascii).Legal (emptySubmissions 0) (filesOnly n) ∧
      Filled n ((submissionMachine Nfc.ascii).exec (emptySubmissions 0) (filesOnly n)) := by
  induction n with
  | zero =>
    refine ⟨by decide +kernel, rfl, rfl, ⟨_, rfl⟩, ?_⟩
    exact fun j hj ↦ absurd hj List.not_mem_nil
  | succ n ih =>
    obtain ⟨hlegal, hfilled⟩ := ih (Nat.le_of_succ_le hn)
    obtain ⟨henabled, hstep⟩ := hfilled.step hn
    have hmore : filesOnly (n + 1) = filesOnly n ++
        [submissionAt (n + 1) (.file (.submit (shortFile (100 + 3 * n))))] := by
      simp only [filesOnly, List.range_succ, List.map_append, List.map_singleton, List.cons_append]
    rw [hmore, Machine.exec_concat]
    exact ⟨Machine.along_append.mpr ⟨hlegal, henabled, trivial⟩, hstep⟩

/-- What is left of a full session after the deletion of its first file. -/
theorem Filled.delete {s : SubmissionState} (h : Filled 20 s) :
    let s' := ((submissionMachine Nfc.ascii).step s (submissionAt 21 (.delete 100 1))).2
    memberSession s'.database.files.other 3 1 = some ⟨3, 2, 1, "topic", .open, 0, 1, 0⟩ ∧
      submissionCount s'.database 3 = 20 ∧ deletedCount s'.database 3 = 1 := by
  obtain ⟨⟨⟨jobs, attempts, results, other⟩, now, issued, loaded, putOff, retries⟩, text⟩ := s
  obtain ⟨-, htext, ⟨events, hother⟩, -⟩ := h
  dsimp only at htext hother
  subst htext hother
  intro s'
  exact ⟨rfl, rfl, rfl⟩

/-- Twenty files, of which one is deleted: the session lists nineteen, and refuses another text. -/
theorem deletion_frees_no_place :
    ¬∀ (U : Nfc) (now : Timestamp) (is : List SubmissionInput) (a : SubmissionAttempt),
      (submissionMachine U).Legal (emptySubmissions now) is →
        a.Entitled U ((submissionMachine U).exec (emptySubmissions now) is).database →
          (a.Limited U ((submissionMachine U).exec (emptySubmissions now) is).database ↔
            a.ListsTwenty ((submissionMachine U).exec (emptySubmissions now) is).database) := by
  intro h
  obtain ⟨hfiles, hfilled⟩ := filled_filesOnly (n := 20) le_rfl
  obtain ⟨hmember, hfull, hdeleted⟩ := hfilled.delete
  have hlegal : (submissionMachine Nfc.ascii).Legal (emptySubmissions 0) (filesThenDeletion 20) := by
    refine Machine.along_append.mpr ⟨hfiles, ⟨?_, trivial⟩, trivial⟩
    exact le_of_eq_of_le hfilled.now (by decide)
  rw [← Machine.exec_concat] at hmember hfull hdeleted
  have hentitled : (SubmissionAttempt.text (shortText 200)).Entitled Nfc.ascii _ :=
    entitled_shortText hmember
  have hsame := h Nfc.ascii 0 (filesThenDeletion 20) (.text (shortText 200)) hlegal hentitled
  rw [(submissions_sound hlegal).tallied.limited_iff_listed hentitled] at hsame
  have hcount : submissionCount ((submissionMachine Nfc.ascii).exec (emptySubmissions 0)
      (filesThenDeletion 20)).database 3 < 20 ∨ deletedCount ((submissionMachine Nfc.ascii).exec
        (emptySubmissions 0) (filesThenDeletion 20)).database 3 = 0 := hsame
  rw [show filesThenDeletion 20 = filesOnly 20 ++ [submissionAt 21 (.delete 100 1)] from rfl, hfull,
    hdeleted] at hcount
  omega

end MeetingRag
