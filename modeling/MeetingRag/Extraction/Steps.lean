import MeetingRag.Extraction.Cells
import MeetingRag.Extraction.Submission
import MeetingRag.Queue.Progress

/-!
# What a transaction does to the files

A file is a revision together with its extraction job. `Filed` says that revisions and jobs come in
such pairs and that every pair is sound. `Reworked` is what the workers' and the members'
transactions have in common: they rewrite jobs and revisions row by row, add runs and anchors, and
what they make of each file is a number of moves. An upload adds a file instead.
-/

open Outcome Table Text

namespace MeetingRag

/-- The key of an extraction job names its revision. -/
theorem extractionKey_injective {a b : UUID} (h : extractionKey a = extractionKey b) : a = b := by
  unfold extractionKey at h
  have hchars := congrArg String.toList h
  simp only [String.toList_append] at hchars
  exact UUID.str_injective (String.toList_inj.mp (List.append_cancel_left hchars))

/-! ## Files -/

/-- A revision and the extraction job of its file. -/
structure IsFile (db : FileDatabase) (r : FileRevision) (j : Job ExtractionDocument) : Prop where
  revision : r ∈ db.other.revisions
  job : j ∈ db.jobs
  kind : j.kind = .extraction
  key : j.logicalKey = extractionKey r.id
  payload : jobRevision j.payload = some r.id

/-- The runs of a revision that have succeeded. -/
def succeededRuns (runs : List FileExtractionRun) (revisionId : UUID) : List UUID :=
  (runs.filter fun run ↦ run.sourceRevisionId = revisionId ∧ run.status = .succeeded).map (·.id)

/-- What a revision and its job amount to. -/
def fileCell (runs : List FileExtractionRun) (r : FileRevision) (j : Job ExtractionDocument) :
    FileCell :=
  ⟨j.state, j.leaseGeneration, r.processingState, r.approvedExtractionRunId,
    succeededRuns runs r.id⟩

/-- A job that is not running is not held. -/
def Unheld (j : Job ExtractionDocument) : Prop := j.state ≠ .running → j.leaseToken = none

/-- A revision as an upload left it, apart from what extracting it writes. -/
structure Uploaded (submissions : List FileSubmission) (r : FileRevision) : Prop where
  current : r.isCurrent = true
  stored : r.storageKey.isSome
  submission : ∃ x ∈ submissions, x.id = r.submissionId

/-- **The files of a database.** -/
structure Filed (db : FileDatabase) : Prop where
  ids : UniqueIds db
  keys : (db.jobs.map (·.logicalKey)).Nodup
  revisionIds : (db.other.revisions.map (·.id)).Nodup
  files : ∀ r ∈ db.other.revisions, ∃ j, IsFile db r j
  jobs : ∀ j ∈ db.jobs, j.kind = .extraction → Unheld j ∧ ∃ r, IsFile db r j
  named : ∀ j ∈ db.jobs, ∀ revisionId, j.logicalKey = extractionKey revisionId →
    j.kind = .extraction
  uploaded : ∀ r ∈ db.other.revisions, Uploaded db.other.submissions r
  runs : ∀ run ∈ db.other.extractionRuns, ∃ r ∈ db.other.revisions, r.id = run.sourceRevisionId
  anchored : ∀ run ∈ db.other.extractionRuns, run.status = .succeeded →
    ∃ a ∈ db.other.anchors, a.extractionRunId = run.id ∧ a.sourceRevisionId = run.sourceRevisionId
  sound : ∀ r j, IsFile db r j → (fileCell db.other.extractionRuns r j).Sound

/-- A job has one revision, and a revision one job. -/
theorem Filed.file_unique {db : FileDatabase} (hf : Filed db) {r r' : FileRevision}
    {j j' : Job ExtractionDocument} (h : IsFile db r j) (h' : IsFile db r' j') :
    r = r' ↔ j = j' := by
  constructor
  · rintro rfl
    exact eq_of_key_eq hf.keys h.job h'.job (h.key.trans h'.key.symm)
  · rintro rfl
    exact eq_of_key_eq hf.revisionIds h.revision h'.revision
      (Option.some.inj (h.payload.symm.trans h'.payload))

/-! ## Rows rewritten -/

/-- A transaction that rewrites the jobs by `F` and the revisions by `G`. -/
structure Reworked (reclaims retries : Prop) (F : Job ExtractionDocument → Job ExtractionDocument)
    (G : FileRevision → FileRevision) (db db' : FileDatabase) : Prop where
  jobs : db'.jobs = db.jobs.map F
  revisions : db'.other.revisions = db.other.revisions.map G
  identity : ∀ j, (F j).identity = j.identity
  others : ∀ j ∈ db.jobs, j.kind ≠ .extraction → F j = j
  unheld : ∀ j ∈ db.jobs, Unheld j → Unheld (F j)
  revisionId : ∀ r, (G r).id = r.id
  upload : ∀ r, (G r).submissionId = r.submissionId ∧ (G r).isCurrent = r.isCurrent ∧
    (G r).storageKey = r.storageKey
  submissions : db'.other.submissions = db.other.submissions
  anchors : db.other.anchors ⊆ db'.other.anchors
  runs : ∀ run ∈ db'.other.extractionRuns, run ∈ db.other.extractionRuns ∨
    ((∃ r ∈ db.other.revisions, r.id = run.sourceRevisionId) ∧ (run.status = .succeeded →
      ∃ a ∈ db'.other.anchors,
        a.extractionRunId = run.id ∧ a.sourceRevisionId = run.sourceRevisionId))
  moves : ∀ r j, IsFile db r j → FileMoves reclaims retries
    (fileCell db.other.extractionRuns r j) (fileCell db'.other.extractionRuns (G r) (F j))

section Reworked

variable {reclaims retries : Prop} {F F' : Job ExtractionDocument → Job ExtractionDocument}
  {G G' : FileRevision → FileRevision} {db db' db'' : FileDatabase}

theorem Job.kind_of_identity {j j' : Job ExtractionDocument} (h : j'.identity = j.identity) :
    j'.kind = j.kind := congrArg JobIdentity.kind h

theorem Job.id_of_identity {j j' : Job ExtractionDocument} (h : j'.identity = j.identity) :
    j'.id = j.id := congrArg JobIdentity.id h

theorem Job.logicalKey_of_identity {j j' : Job ExtractionDocument}
    (h : j'.identity = j.identity) : j'.logicalKey = j.logicalKey :=
  congrArg JobIdentity.logicalKey h

theorem Job.payload_of_identity {j j' : Job ExtractionDocument}
    (h : j'.identity = j.identity) : j'.payload = j.payload := congrArg JobIdentity.payload h

/-- A file stays a file. -/
theorem Reworked.isFile (h : Reworked reclaims retries F G db db') {r : FileRevision}
    {j : Job ExtractionDocument} (hfile : IsFile db r j) : IsFile db' (G r) (F j) where
  revision := h.revisions ▸ List.mem_map_of_mem hfile.revision
  job := h.jobs ▸ List.mem_map_of_mem hfile.job
  kind := (Job.kind_of_identity (h.identity j)).trans hfile.kind
  key := by rw [Job.logicalKey_of_identity (h.identity j), h.revisionId, hfile.key]
  payload := by rw [Job.payload_of_identity (h.identity j), h.revisionId, hfile.payload]

/-- Every file was one before. -/
theorem Reworked.origin (h : Reworked reclaims retries F G db db') {r' : FileRevision}
    {j' : Job ExtractionDocument} (hfile : IsFile db' r' j') :
    ∃ r j, IsFile db r j ∧ r' = G r ∧ j' = F j := by
  have hr := hfile.revision
  have hj := hfile.job
  rw [h.revisions] at hr
  rw [h.jobs] at hj
  obtain ⟨r, hold, rfl⟩ := List.mem_map.mp hr
  obtain ⟨j, hjold, rfl⟩ := List.mem_map.mp hj
  refine ⟨r, j, ⟨hold, hjold, ?_, ?_, ?_⟩, rfl, rfl⟩
  · exact (Job.kind_of_identity (h.identity j)).symm.trans hfile.kind
  · rw [← Job.logicalKey_of_identity (h.identity j), hfile.key, h.revisionId]
  · rw [← Job.payload_of_identity (h.identity j), hfile.payload, h.revisionId]

theorem Filed.reworked (hf : Filed db) (h : Reworked reclaims retries F G db db') : Filed db' where
  ids := by
    rw [UniqueIds, h.jobs, List.map_map]
    exact List.map_congr_left (fun j _ ↦ Job.id_of_identity (h.identity j)) ▸ hf.ids
  keys := by
    rw [h.jobs, List.map_map]
    exact List.map_congr_left (fun j _ ↦ Job.logicalKey_of_identity (h.identity j)) ▸ hf.keys
  revisionIds := by
    rw [h.revisions, List.map_map]
    exact List.map_congr_left (fun r _ ↦ h.revisionId r) ▸ hf.revisionIds
  files := by
    rw [h.revisions]
    intro r' hr'
    obtain ⟨r, hr, rfl⟩ := List.mem_map.mp hr'
    obtain ⟨j, hfile⟩ := hf.files r hr
    exact ⟨F j, h.isFile hfile⟩
  jobs := by
    rw [h.jobs]
    intro j' hj' hkind
    obtain ⟨j, hj, rfl⟩ := List.mem_map.mp hj'
    obtain ⟨hunheld, r, hfile⟩ := hf.jobs j hj
      ((Job.kind_of_identity (h.identity j)).symm.trans hkind)
    exact ⟨h.unheld j hj hunheld, G r, h.isFile hfile⟩
  named := by
    rw [h.jobs]
    intro j' hj' revisionId hkey
    obtain ⟨j, hj, rfl⟩ := List.mem_map.mp hj'
    rw [Job.logicalKey_of_identity (h.identity j)] at hkey
    exact (Job.kind_of_identity (h.identity j)).trans (hf.named j hj revisionId hkey)
  uploaded := by
    rw [h.revisions, h.submissions]
    intro r' hr'
    obtain ⟨r, hr, rfl⟩ := List.mem_map.mp hr'
    obtain ⟨hcurrent, hstored, hsubmission⟩ := hf.uploaded r hr
    obtain ⟨hid, hcurrent', hstored'⟩ := h.upload r
    exact ⟨hcurrent'.trans hcurrent, hstored' ▸ hstored, hid ▸ hsubmission⟩
  runs := by
    intro run hrun
    have hold : ∃ r ∈ db.other.revisions, r.id = run.sourceRevisionId := by
      rcases h.runs run hrun with hrun | ⟨hsource, -⟩
      · exact hf.runs run hrun
      · exact hsource
    obtain ⟨r, hr, hid⟩ := hold
    exact ⟨G r, h.revisions ▸ List.mem_map_of_mem hr, (h.revisionId r).trans hid⟩
  anchored := by
    intro run hrun hsucceeded
    rcases h.runs run hrun with hrun | ⟨-, hanchored⟩
    · obtain ⟨a, ha, hid⟩ := hf.anchored run hrun hsucceeded
      exact ⟨a, h.anchors ha, hid⟩
    · exact hanchored hsucceeded
  sound := by
    intro r' j' hfile
    obtain ⟨r, j, hold, rfl, rfl⟩ := h.origin hfile
    exact (h.moves r j hold).preserve (fun _ _ hmove ↦ hmove.sound) (hf.sound r j hold)

theorem Reworked.refl (db : FileDatabase) : Reworked reclaims retries id id db db where
  jobs := (List.map_id _).symm
  revisions := (List.map_id _).symm
  identity := fun _ ↦ rfl
  others := fun _ _ _ ↦ rfl
  unheld := fun _ _ h ↦ h
  revisionId := fun _ ↦ rfl
  upload := fun _ ↦ ⟨rfl, rfl, rfl⟩
  submissions := rfl
  anchors := List.Subset.refl _
  runs := fun _ h ↦ Or.inl h
  moves := fun _ _ _ ↦ .refl

theorem Reworked.trans (h : Reworked reclaims retries F G db db')
    (h' : Reworked reclaims retries F' G' db' db'') :
    Reworked reclaims retries (F' ∘ F) (G' ∘ G) db db'' where
  jobs := by rw [h'.jobs, h.jobs, List.map_map]
  revisions := by rw [h'.revisions, h.revisions, List.map_map]
  identity j := (h'.identity (F j)).trans (h.identity j)
  others j hj hkind := by
    have hsame := h.others j hj hkind
    have hj' : j ∈ db'.jobs := h.jobs ▸ List.mem_map.mpr ⟨j, hj, hsame⟩
    rw [Function.comp_apply, hsame, h'.others j hj' hkind]
  unheld j hj hunheld := h'.unheld (F j) (h.jobs ▸ List.mem_map_of_mem hj) (h.unheld j hj hunheld)
  revisionId r := (h'.revisionId (G r)).trans (h.revisionId r)
  upload r := by
    obtain ⟨hid, hcurrent, hstored⟩ := h.upload r
    obtain ⟨hid', hcurrent', hstored'⟩ := h'.upload (G r)
    exact ⟨hid'.trans hid, hcurrent'.trans hcurrent, hstored'.trans hstored⟩
  submissions := h'.submissions.trans h.submissions
  anchors := fun _ ha ↦ h'.anchors (h.anchors ha)
  runs := by
    have hrevision : ∀ r' ∈ db'.other.revisions, ∃ r ∈ db.other.revisions, r.id = r'.id := by
      rw [h.revisions]
      intro r' hr'
      obtain ⟨r, hr, rfl⟩ := List.mem_map.mp hr'
      exact ⟨r, hr, (h.revisionId r).symm⟩
    intro run hrun
    rcases h'.runs run hrun with hrun | ⟨⟨r', hr', hid⟩, hanchored⟩
    · rcases h.runs run hrun with hrun | ⟨hsource, hanchored⟩
      · exact Or.inl hrun
      · refine Or.inr ⟨hsource, fun hsucceeded ↦ ?_⟩
        obtain ⟨a, ha, hid⟩ := hanchored hsucceeded
        exact ⟨a, h'.anchors ha, hid⟩
    · obtain ⟨r, hr, hid'⟩ := hrevision r' hr'
      exact Or.inr ⟨⟨r, hr, hid'.trans hid⟩, hanchored⟩
  moves r j hfile := (h.moves r j hfile).trans (h'.moves (G r) (F j) (h.isFile hfile))

end Reworked

/-! ## One file rewritten -/

theorem updateWhere_id {α : Type} {p : α → Prop} [DecidablePred p] {t : List α} :
    updateWhere p id t = t := by
  simp [updateWhere]

/-- A transaction that rewrites the job and the revision of one file and adds runs of it. -/
theorem Reworked.of_file {reclaims retries : Prop} {db db' : FileDatabase} (hf : Filed db)
    {r : FileRevision} {j : Job ExtractionDocument} (hfile : IsFile db r j)
    {f : Job ExtractionDocument → Job ExtractionDocument} {g : FileRevision → FileRevision}
    {added : List FileExtractionRun}
    (hjobs : db'.jobs = setJob j.id f db.jobs)
    (hrevisions : db'.other.revisions = updateWhere (·.id = r.id) g db.other.revisions)
    (hruns : db'.other.extractionRuns = db.other.extractionRuns ++ added)
    (hsubmissions : db'.other.submissions = db.other.submissions)
    (hanchors : db.other.anchors ⊆ db'.other.anchors)
    (hidentity : ∀ j, (f j).identity = j.identity) (hunheld : Unheld j → Unheld (f j))
    (hrevision : ∀ r, (g r).id = r.id ∧ (g r).submissionId = r.submissionId ∧
      (g r).isCurrent = r.isCurrent ∧ (g r).storageKey = r.storageKey)
    (hadded : ∀ run ∈ added, run.sourceRevisionId = r.id ∧ (run.status = .succeeded →
      ∃ a ∈ db'.other.anchors,
        a.extractionRunId = run.id ∧ a.sourceRevisionId = run.sourceRevisionId))
    (hmove : FileMoves reclaims retries (fileCell db.other.extractionRuns r j)
      (fileCell db'.other.extractionRuns (g r) (f j))) :
    Reworked reclaims retries (fun x ↦ if x.id = j.id then f x else x)
      (fun x ↦ if x.id = r.id then g x else x) db db' where
  jobs := hjobs
  revisions := hrevisions
  identity x := by
    split
    · exact hidentity x
    · rfl
  others x hx hkind := by
    refine if_neg fun hid ↦ hkind ?_
    rw [eq_of_key_eq hf.ids hx hfile.job hid]
    exact hfile.kind
  unheld x hx := by
    split
    · next hid =>
      rw [eq_of_key_eq hf.ids hx hfile.job hid]
      exact hunheld
    · exact id
  revisionId x := by
    split
    · exact (hrevision x).1
    · rfl
  upload x := by
    split
    · exact (hrevision x).2
    · exact ⟨rfl, rfl, rfl⟩
  submissions := hsubmissions
  anchors := hanchors
  runs run hrun := by
    rw [hruns] at hrun
    rcases List.mem_append.mp hrun with hrun | hrun
    · exact Or.inl hrun
    · obtain ⟨hsource, hanchored⟩ := hadded run hrun
      exact Or.inr ⟨⟨r, hfile.revision, hsource.symm⟩, hanchored⟩
  moves r' j' hfile' := by
    by_cases hid : r'.id = r.id
    · obtain rfl : r' = r := eq_of_key_eq hf.revisionIds hfile'.revision hfile.revision hid
      obtain rfl : j' = j := (hf.file_unique hfile' hfile).mp rfl
      rw [if_pos rfl, if_pos rfl]
      exact hmove
    · have hjob : j'.id ≠ j.id := fun heq ↦ hid <| congrArg FileRevision.id <|
        (hf.file_unique hfile' hfile).mpr (eq_of_key_eq hf.ids hfile'.job hfile.job heq)
      -- the runs that were added are not runs of this file
      have hnone : added.filter (fun run ↦ run.sourceRevisionId = r'.id ∧ run.status = .succeeded)
          = [] := by
        rw [List.filter_eq_nil_iff]
        intro run hrun hof
        exact hid ((of_decide_eq_true hof).1.symm.trans (hadded run hrun).1)
      rw [if_neg hid, if_neg hjob, fileCell, fileCell, hruns, succeededRuns, succeededRuns,
        List.filter_append, hnone, List.append_nil]

end MeetingRag
