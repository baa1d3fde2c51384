import MeetingRag.Extraction.SessionLimit

/-!
# Deleted submissions

A deletion marks the row of a submission, and what belongs to it stays. No operation looks at the mark but
a second deletion, the list and the `SELECT` of a retry. So the rows of a deleted submission change where a
replacement of it goes through, and where its extraction goes on: a lease that was granted before is
completed, a failed job is given up, or a retry that was let in before is committed.

## Main results

* `SubmissionState.Sound.frozen`: every other step leaves the rows of deleted submissions alone.
* `deleted_rows_stay`: so does every run of such steps.
-/

open Outcome Table Py

namespace MeetingRag

/-! ## Rows of a submission -/

/-- The revisions of a submission, with their runs and their anchors. -/
structure SubmissionRows where
  textRevisions : List TextRevision
  textRuns : List TextRun
  textAnchors : List TextAnchor
  fileRevisions : List FileRevision
  fileRuns : List FileExtractionRun
  fileAnchors : List FileAnchor

section Rows

variable (submissionId : UUID)

def TextSubmissionTables.revisionsOf (t : TextSubmissionTables) : List TextRevision :=
  t.revisions.filter (·.submissionId = submissionId)

def FileTables.revisionsOf (t : FileTables) : List FileRevision :=
  t.revisions.filter (·.submissionId = submissionId)

def SubmissionDatabase.rowsOf (db : SubmissionDatabase) : SubmissionRows where
  textRevisions := db.text.revisionsOf submissionId
  textRuns := db.text.runs.filter
    (·.sourceRevisionId ∈ (db.text.revisionsOf submissionId).map (·.id))
  textAnchors := db.text.anchors.filter
    (·.sourceRevisionId ∈ (db.text.revisionsOf submissionId).map (·.id))
  fileRevisions := db.files.other.revisionsOf submissionId
  fileRuns := db.files.other.extractionRuns.filter
    (·.sourceRevisionId ∈ (db.files.other.revisionsOf submissionId).map (·.id))
  fileAnchors := db.files.other.anchors.filter
    (·.sourceRevisionId ∈ (db.files.other.revisionsOf submissionId).map (·.id))

/-- The submission is marked as deleted. -/
def SubmissionDatabase.Deleted (db : SubmissionDatabase) : Prop :=
  ∃ x ∈ db.submissions, x.id = submissionId ∧ x.deleted = true

end Rows

/-- The rows of the texts of a submission are those of before. -/
structure SameTexts (submissionId : UUID) (t t' : TextSubmissionTables) : Prop where
  revisions : t'.revisionsOf submissionId = t.revisionsOf submissionId
  runs : t'.runs.filter (·.sourceRevisionId ∈ (t.revisionsOf submissionId).map (·.id)) =
    t.runs.filter (·.sourceRevisionId ∈ (t.revisionsOf submissionId).map (·.id))
  anchors : t'.anchors.filter (·.sourceRevisionId ∈ (t.revisionsOf submissionId).map (·.id)) =
    t.anchors.filter (·.sourceRevisionId ∈ (t.revisionsOf submissionId).map (·.id))

/-- The rows of the files of a submission are those of before. -/
structure SameFiles (submissionId : UUID) (t t' : FileTables) : Prop where
  revisions : t'.revisionsOf submissionId = t.revisionsOf submissionId
  runs : t'.extractionRuns.filter (·.sourceRevisionId ∈ (t.revisionsOf submissionId).map (·.id)) =
    t.extractionRuns.filter (·.sourceRevisionId ∈ (t.revisionsOf submissionId).map (·.id))
  anchors : t'.anchors.filter (·.sourceRevisionId ∈ (t.revisionsOf submissionId).map (·.id)) =
    t.anchors.filter (·.sourceRevisionId ∈ (t.revisionsOf submissionId).map (·.id))

/-- No row of a deleted submission is changed, and none is added. -/
def Frozen (db db' : SubmissionDatabase) : Prop :=
  ∀ submissionId, db.Deleted submissionId →
    db'.Deleted submissionId ∧ db'.rowsOf submissionId = db.rowsOf submissionId

section Frames

variable {submissionId : UUID} {db db' db'' : SubmissionDatabase}

theorem SameTexts.refl (t : TextSubmissionTables) : SameTexts submissionId t t := ⟨rfl, rfl, rfl⟩

theorem SameFiles.refl (t : FileTables) : SameFiles submissionId t t := ⟨rfl, rfl, rfl⟩

theorem rowsOf_congr (htexts : SameTexts submissionId db.text db'.text)
    (hfiles : SameFiles submissionId db.files.other db'.files.other) :
    db'.rowsOf submissionId = db.rowsOf submissionId := by
  rw [SubmissionDatabase.rowsOf, SubmissionDatabase.rowsOf, htexts.revisions, htexts.runs,
    htexts.anchors, hfiles.revisions, hfiles.runs, hfiles.anchors]

theorem Frozen.refl (db : SubmissionDatabase) : Frozen db db := fun _ h ↦ ⟨h, rfl⟩

theorem Frozen.trans (h : Frozen db db') (h' : Frozen db' db'') : Frozen db db'' := by
  intro submissionId hdeleted
  obtain ⟨hdeleted', hrows⟩ := h submissionId hdeleted
  obtain ⟨hdeleted'', hrows'⟩ := h' submissionId hdeleted'
  exact ⟨hdeleted'', hrows'.trans hrows⟩

/-- Rows that are added under other keys are filtered out. -/
theorem filter_append_of_not {ρ : Type*} {p : ρ → Bool} {rows added : List ρ}
    (h : ∀ r ∈ added, p r = false) : (rows ++ added).filter p = rows.filter p := by
  have hnone : added.filter p = [] := List.filter_eq_nil_iff.mpr fun r hr ↦ by simp [h r hr]
  rw [List.filter_append, hnone, List.append_nil]

/-- A revision of another submission is no row of this one. -/
theorem Revises.sameTexts {other : UUID} {ids : DrawnIds} {t t' : TextSubmissionTables}
    (h : Revises other ids t t') (hother : other ≠ submissionId)
    (hdrawn : ids.revisionId ∉ t.revisions.map (·.id)) : SameTexts submissionId t t' := by
  have hnot : ids.revisionId ∉ (t.revisionsOf submissionId).map (·.id) := fun hmem ↦
    hdrawn (List.map_subset _ (List.filter_subset_self _) hmem)
  obtain ⟨r, hr, -, hsubmission, -⟩ := h.revisions
  obtain ⟨run, hrun, hsource⟩ := h.runs
  obtain ⟨added, hadded, hanchors⟩ := h.anchors
  refine ⟨?_, ?_, ?_⟩
  · rw [TextSubmissionTables.revisionsOf, hr]
    refine filter_append_of_not fun x hx ↦ ?_
    rw [List.mem_singleton.mp hx, hsubmission]
    exact decide_eq_false hother
  · rw [hrun]
    refine filter_append_of_not fun x hx ↦ ?_
    rw [List.mem_singleton.mp hx, hsource]
    exact decide_eq_false hnot
  · rw [hadded]
    refine filter_append_of_not fun a ha ↦ ?_
    rw [hanchors a ha]
    exact decide_eq_false hnot

/-- Superseding the revision of another submission changes no row of this one. -/
theorem sameTexts_superseded {other : UUID} (hother : other ≠ submissionId) (t : TextSubmissionTables) :
    SameTexts submissionId t { t with
      revisions := updateWhere (·.CurrentOf other) supersededRevision t.revisions } := by
  refine ⟨?_, rfl, rfl⟩
  change (updateWhere _ _ _).filter _ = t.revisionsOf submissionId
  rw [filter_updateWhere_of_forall (f := supersededRevision) fun _ ↦ rfl]
  refine updateWhere_eq_self fun r hr hcurrent ↦ hother ?_
  exact hcurrent.2.symm.trans (of_decide_eq_true (List.mem_filter.mp hr).2)

theorem SameTexts.trans {t t' t'' : TextSubmissionTables} (h : SameTexts submissionId t t')
    (h' : SameTexts submissionId t' t'') : SameTexts submissionId t t'' where
  revisions := h'.revisions.trans h.revisions
  runs := by
    have hruns := h'.runs
    rw [h.revisions] at hruns
    exact hruns.trans h.runs
  anchors := by
    have hanchors := h'.anchors
    rw [h.revisions] at hanchors
    exact hanchors.trans h.anchors

/-- A call that touches no revision of the submission. -/
theorem Touches.sameFiles {P : UUID → Prop} {t t' : FileTables} (h : Touches P t t')
    (hspared : ∀ r ∈ t.revisionsOf submissionId, ¬P r.id) : SameFiles submissionId t t' := by
  have hnot : ∀ id, P id → id ∉ (t.revisionsOf submissionId).map (·.id) := by
    intro id hid hmem
    obtain ⟨r, hr, rfl⟩ := List.mem_map.mp hmem
    exact hspared r hr hid
  obtain ⟨g, hg, hkept⟩ := h.revisions
  obtain ⟨added, hadded, hruns⟩ := h.runs
  obtain ⟨added', hadded', hanchors⟩ := h.anchors
  refine ⟨?_, ?_, ?_⟩
  · have hlink : (fun r : FileRevision ↦ decide (r.submissionId = submissionId)) ∘ g =
        fun r ↦ decide (r.submissionId = submissionId) :=
      funext fun r ↦ by rw [Function.comp_apply, (hkept r).2.1]
    rw [FileTables.revisionsOf, hg, List.filter_map, hlink]
    exact (List.map_congr_left fun r hr ↦ (hkept r).2.2.2 (hspared r hr)).trans (List.map_id _)
  · rw [hadded]
    exact filter_append_of_not fun x hx ↦ decide_eq_false (hnot _ (hruns x hx))
  · rw [hadded']
    exact filter_append_of_not fun a ha ↦ decide_eq_false (hnot _ (hanchors a ha))

theorem Uploads.sameFiles {u : FileUpload} {t t' : FileTables} (h : Uploads u t t')
    (hother : u.submissionId ≠ submissionId) : SameFiles submissionId t t' := by
  refine ⟨?_, by rw [h.runs], by rw [h.anchors]⟩
  rw [FileTables.revisionsOf, h.revisions]
  refine filter_append_of_not fun r hr ↦ ?_
  rw [List.mem_singleton.mp hr]
  exact decide_eq_false hother

theorem KeepsFiles.sameFiles {files files' : FileDatabase} (h : KeepsFiles files files') :
    SameFiles submissionId files.other files'.other :=
  ⟨by rw [FileTables.revisionsOf, h.revisions]; rfl, by rw [h.runs], by rw [h.anchors]⟩

/-- A submission that is there is not one that is drawn anew. -/
theorem SubmissionDatabase.Deleted.ne (h : db.Deleted submissionId) {other : UUID}
    (hnew : other ∉ db.submissions.map (·.id)) : other ≠ submissionId := by
  rintro rfl
  obtain ⟨x, hx, hid, -⟩ := h
  exact hnew (hid ▸ List.mem_map_of_mem hx)

/-- Rows that are kept, or marked, keep their marks. -/
theorem SubmissionDatabase.Deleted.mono (h : db.Deleted submissionId)
    (hkept : ∀ x ∈ db.submissions, ∃ y ∈ db'.submissions, y.id = x.id ∧
      (x.deleted = true → y.deleted = true)) : db'.Deleted submissionId := by
  obtain ⟨x, hx, hid, hdeleted⟩ := h
  obtain ⟨y, hy, hyid, hydeleted⟩ := hkept x hx
  exact ⟨y, hy, hyid.trans hid, hydeleted hdeleted⟩

/-- The rows of both tables are kept. -/
theorem SubmissionDatabase.Deleted.of_subset (h : db.Deleted submissionId)
    (htext : db.text.submissions ⊆ db'.text.submissions)
    (hfiles : db.files.other.submissions ⊆ db'.files.other.submissions) : db'.Deleted submissionId := by
  refine h.mono fun x hx ↦ ⟨x, ?_, rfl, id⟩
  rcases List.mem_append.mp hx with hx | hx
  · exact List.mem_append_left _ (htext hx)
  · exact List.mem_append_right _ (List.map_subset _ hfiles hx)

end Frames

/-! ## Steps -/

/-- The call is none of those that change a deleted submission: its author does not replace it, and no
extraction of it goes on. -/
def Spares (U : Nfc) (db : SubmissionDatabase) : SubmissionCall → Prop
  | .replaceText submissionId actorId text _ =>
    (∃ normalized, validatedNormalizedText U text = .ok normalized) →
      ∀ x, Replaces db submissionId actorId x → x.deleted = false
  | .file call => ∀ r ∈ db.files.other.revisions, touched db.files call r.id →
    ¬db.Deleted r.submissionId
  | _ => True

section Steps

variable {U : Nfc} {s : SubmissionState}

theorem frozen_submitText {r : TextRequest} {db db' : SubmissionDatabase}
    (hnew : r.submissionId ∉ db.submissions.map (·.id))
    (hdrawn : r.ids.revisionId ∉ db.text.revisions.map (·.id))
    (h : submitText U r db = .ok db') : Frozen db db' := by
  obtain ⟨title, hrevised, -, hkeeps, hfiles, -⟩ := submitText_spec h
  intro submissionId hdeleted
  refine ⟨hdeleted.of_subset ?_ (by rw [hfiles]; exact List.Subset.refl _), ?_⟩
  · rw [hrevised.submissions]
    exact List.subset_append_left _ _
  · have htexts := hrevised.sameTexts (hdeleted.ne hnew) hdrawn
    exact rowsOf_congr ⟨htexts.revisions, htexts.runs, htexts.anchors⟩ hkeeps.sameFiles

theorem frozen_replaceText {submissionId actorId : UUID} {text : Str} {ids : DrawnIds}
    {db db' : SubmissionDatabase} (hids : (db.submissions.map (·.id)).Nodup)
    (hdrawn : ids.revisionId ∉ db.text.revisions.map (·.id))
    (hspares : Spares U db (.replaceText submissionId actorId text ids))
    (h : replaceText U submissionId actorId text ids db = .ok db') : Frozen db db' := by
  obtain ⟨normalized, hvalid, -⟩ := bind_eq_ok.mp h
  obtain ⟨⟨x, hreplaces⟩, hrevised, hkeeps, hfiles, -⟩ := replaceText_spec h
  have hkept := hspares ⟨normalized, hvalid⟩ x hreplaces
  have hid : x.id = submissionId := by simpa using List.find?_some hreplaces.found
  intro id hdeleted
  have hother : submissionId ≠ id := by
    rintro rfl
    -- The row that is replaced would be the one that is marked.
    obtain ⟨y, hy, hyid, hmarked⟩ := hdeleted
    have hsame : y = x := eq_of_key_eq hids hy (List.mem_of_find?_eq_some hreplaces.found)
      (hyid.trans hid.symm)
    rw [hsame, hkept] at hmarked
    exact nomatch hmarked
  refine ⟨hdeleted.of_subset ?_ (by rw [hfiles]; exact List.Subset.refl _), ?_⟩
  · rw [hrevised.submissions]
    exact List.Subset.refl _
  · have hdrawn' : ids.revisionId ∉
        (updateWhere (·.CurrentOf submissionId) supersededRevision db.text.revisions).map (·.id) := by
      rw [map_updateWhere_of_forall (f := supersededRevision) fun _ ↦ rfl]
      exact hdrawn
    exact rowsOf_congr ((sameTexts_superseded hother db.text).trans (hrevised.sameTexts hother hdrawn'))
      hkeeps.sameFiles

theorem frozen_deleteSubmission {submissionId actorId : UUID} {db db' : SubmissionDatabase}
    (h : deleteSubmission submissionId actorId db = .ok db') : Frozen db db' := by
  obtain rfl | hdeletes := deleteSubmission_spec h
  · exact .refl _
  · intro id hdeleted
    refine ⟨hdeleted.mono fun x hx ↦ ?_, rowsOf_congr ?_ hdeletes.files.sameFiles⟩
    · rcases List.mem_append.mp hx with hx | hx
      · refine ⟨if x.id = submissionId then tombstone x else x, List.mem_append_left _ ?_, ?_⟩
        · rw [hdeletes.text]
          exact List.mem_map_of_mem hx
        · split
          · exact ⟨rfl, fun _ ↦ rfl⟩
          · exact ⟨rfl, fun hx ↦ hx⟩
      · obtain ⟨y, hy, rfl⟩ := List.mem_map.mp hx
        obtain ⟨f, hf, hkept⟩ := hdeletes.files.submissions
        refine ⟨(f y).row, List.mem_append_right _ ?_, (hkept y).1, (hkept y).2.2⟩
        rw [hf, List.map_map]
        exact List.mem_map_of_mem hy
    · rw [hdeletes.text]
      exact ⟨rfl, rfl, rfl⟩

/-- A call that touches no revision of a deleted submission. -/
theorem frozen_touches {P : UUID → Prop} {db : SubmissionDatabase} {files : FileDatabase}
    (h : Touches P db.files.other files.other)
    (hspared : ∀ r ∈ db.files.other.revisions, P r.id → ¬db.Deleted r.submissionId) :
    Frozen db ⟨files, db.text⟩ := by
  intro submissionId hdeleted
  refine ⟨hdeleted.of_subset (List.Subset.refl _) ?_, rowsOf_congr (.refl _)
    (h.sameFiles fun r hr htouched ↦ ?_)⟩
  · rw [h.submissions]
    exact List.Subset.refl _
  · obtain ⟨hmem, hof⟩ := List.mem_filter.mp hr
    exact hspared r hmem htouched (of_decide_eq_true hof ▸ hdeleted)

/-- What a call on the files leaves of a deleted submission. -/
theorem SubmissionState.Sound.frozen_file (hs : s.Sound) {clock : StatementClock}
    {call : ExtractionCall} (hadmits : s.Admits (.file call))
    (hspares : Spares U s.database (.file call)) :
    Frozen s.database ⟨(extractionMachine.step s.files ⟨clock, call⟩).2.db, s.text⟩ := by
  have hdb : (extractionMachine.step s.files ⟨clock, call⟩).2.db =
      (transaction s.files.db (call.body clock s.files.db)).2 := ExtractionState.record_db _ _
  rw [hdb]
  cases hbody : call.body clock s.files.db with
  | error e => exact .refl _
  | ok result =>
    obtain ⟨reply, db'⟩ := result
    rw [transaction_ok]
    intro submissionId hdeleted
    cases call with
    | submit upload =>
      obtain ⟨⟨_, db₁⟩, hsubmit, hresult⟩ := bind_eq_ok.mp hbody
      cases hresult
      have huploads := submitFile_uploads hsubmit
      obtain ⟨roomId, hsubmissions⟩ := huploads.submissions
      refine ⟨hdeleted.of_subset (List.Subset.refl _) ?_, rowsOf_congr (.refl _)
        (huploads.sameFiles (hdeleted.ne hadmits.1))⟩
      rw [hsubmissions]
      exact List.subset_append_left _ _
    | elsewhere writes =>
      cases hbody
      refine ⟨hdeleted.of_subset (List.Subset.refl _) ?_, rowsOf_congr (.refl _) ⟨rfl, rfl, rfl⟩⟩
      rw [BesideFiles.apply_submissions hadmits.2.2]
      exact List.Subset.refl _
    | _ =>
      refine frozen_touches (hs.files.touches ?_ ?_ hbody) hspares submissionId hdeleted
      · exact nofun
      · exact nofun

/-- **A step that spares deleted submissions** leaves their rows alone. -/
theorem SubmissionState.Sound.frozen (hs : s.Sound) {i : SubmissionInput}
    (henabled : (submissionMachine U).enabled s i) (hspares : Spares U s.database i.call) :
    Frozen s.database ((submissionMachine U).step s i).2.database := by
  obtain ⟨clock, call⟩ := i
  obtain ⟨-, hadmits⟩ := henabled
  have hcommit : ∀ r : Except TextSubmissionError SubmissionDatabase,
      (∀ db, r = .ok db → Frozen s.database db) →
        Frozen s.database (s.commit clock r).2.database := by
    rintro (e | db) hr
    · exact .refl _
    · exact hr db rfl
  cases call with
  | submitText request =>
    exact hcommit _ fun db hdb ↦ frozen_submitText hadmits.1 hadmits.2.1 hdb
  | replaceText submissionId actorId text ids =>
    exact hcommit _ fun db hdb ↦ frozen_replaceText hs.tallied.ids hadmits.1 hspares hdb
  | delete submissionId actorId =>
    exact hcommit _ fun db hdb ↦ frozen_deleteSubmission hdb
  | file call => exact hs.frozen_file hadmits hspares

end Steps

/-! ## Runs -/

/-- **The rows of a deleted submission stay** as they are, in every run that spares deleted
submissions. -/
theorem deleted_rows_stay (U : Nfc) (now : Timestamp) (before after : List SubmissionInput)
    (hlegal : (submissionMachine U).Legal (emptySubmissions now) (before ++ after))
    (hspares : (submissionMachine U).Along (fun s i ↦ Spares U s.database i.call)
      ((submissionMachine U).exec (emptySubmissions now) before) after) :
    Frozen ((submissionMachine U).exec (emptySubmissions now) before).database
      ((submissionMachine U).exec (emptySubmissions now) (before ++ after)).database := by
  obtain ⟨hbefore, hafter⟩ := Machine.along_append.mp hlegal
  have hsound : ((submissionMachine U).exec (emptySubmissions now) before).Sound :=
    submissions_sound hbefore
  rw [Machine.exec_append]
  have hboth := Machine.along_and.mpr ⟨hafter, hspares⟩
  have hsteps := hboth.with_invariant (P := SubmissionState.Sound) hsound
    fun _ _ hs hi ↦ hs.step hi.1
  exact hsteps.relates (R := fun a b ↦ Frozen a.database b.database) (fun a ↦ .refl a.database)
    (fun {a b c} (h : Frozen a.database b.database) (h' : Frozen b.database c.database) ↦ h.trans h')
    fun _ _ hi ↦ hi.1.frozen hi.2.1 hi.2.2

/-- A file is deleted, and then deleted again while another one is uploaded. -/
theorem deleted_rows_stay_twice :
    Frozen ((submissionMachine Nfc.ascii).exec (emptySubmissions 0) (filesThenDeletion 1)).database
      ((submissionMachine Nfc.ascii).exec (emptySubmissions 0) (filesThenDeletion 1 ++
        [submissionAt 3 (.delete 100 1), submissionAt 4 (.file (.submit (shortFile 200)))])).database :=
  deleted_rows_stay Nfc.ascii 0 (filesThenDeletion 1) _ (by decide +kernel)
    ⟨trivial, fun _ _ htouched ↦ htouched.elim, trivial⟩

/-- A text is deleted, and its author replaces it all the same. -/
def textReplaced : List SubmissionInput :=
  [submissionAt 0 (.file (.elsewhere oneOpenSession)), submissionAt 1 (.submitText (shortText 100)),
    submissionAt 2 (.delete 100 1)]

/-- A deleted text gets a second revision. -/
theorem deleted_text_replaced :
    ¬∀ (U : Nfc) (now : Timestamp) (before after : List SubmissionInput),
      (submissionMachine U).Legal (emptySubmissions now) (before ++ after) →
        Frozen ((submissionMachine U).exec (emptySubmissions now) before).database
          ((submissionMachine U).exec (emptySubmissions now) (before ++ after)).database := by
  intro h
  obtain ⟨hlegal, hrow, hlength⟩ :
      (submissionMachine Nfc.ascii).Legal (emptySubmissions 0)
          (textReplaced ++ [submissionAt 3 (.replaceText 100 1 (lit "y") ⟨201, 202⟩)]) ∧
        ((submissionMachine Nfc.ascii).exec (emptySubmissions 0) textReplaced).database.submissions =
          [⟨100, 3, 1, .text, lit "t", true⟩] ∧
        (((submissionMachine Nfc.ascii).exec (emptySubmissions 0) (textReplaced ++
          [submissionAt 3 (.replaceText 100 1 (lit "y") ⟨201, 202⟩)])).database.rowsOf
            100).textRevisions.length ≠
          (((submissionMachine Nfc.ascii).exec (emptySubmissions 0) textReplaced).database.rowsOf
            100).textRevisions.length := by
    decide +kernel
  have hdeleted : ((submissionMachine Nfc.ascii).exec (emptySubmissions 0)
      textReplaced).database.Deleted 100 := by
    obtain ⟨x, hx, hid, hdeleted⟩ : ∃ x, ((submissionMachine Nfc.ascii).exec (emptySubmissions 0)
        textReplaced).database.submissions = [x] ∧ x.id = 100 ∧ x.deleted = true :=
      ⟨_, hrow, by decide +kernel⟩
    exact ⟨x, hx ▸ List.mem_singleton_self x, hid, hdeleted⟩
  obtain ⟨-, hrows⟩ := h Nfc.ascii 0 textReplaced _ hlegal 100 hdeleted
  exact hlength (congrArg (·.textRevisions.length) hrows)

end MeetingRag
