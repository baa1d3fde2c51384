import MeetingRag.Documents.RoomReads
import MeetingRag.Library.Lists

/-!
# Rooms are isolated

The rows that a member sees are those of the rooms the member is in. `restrict` keeps these and drops
the rest. Every read has the same outcome on the restricted tables: what it returns, and what it raises,
does not depend on a row of another room, or on whether there is one.

Two reads rest on more than their joins. What a snapshot pins is of its session, which a trigger of the
schema asserts; and `_resolve_anchor_titles` takes the titles of whatever anchors a summary lists, so the
summaries have to list anchors of their own session.
-/

open Outcome Py Py.Json Table Text

namespace MeetingRag

namespace RoomRows

variable (d : RoomRows) (actorId : UUID)

/-- The rows of the rooms that the actor is in. -/
def restrict : RoomRows where
  roomMemberships := d.roomMemberships.filter fun m ↦ d.SeesRoom actorId m.roomId
  talkSessions := d.talkSessions.filter fun s ↦ d.SeesRoom actorId s.roomId
  submissions := d.submissions.filter fun row ↦ d.SeesSession actorId row.sessionId
  sourceRevisions := d.sourceRevisions.filter fun row ↦ d.SeesSubmission actorId row.submissionId
  sourceAnchors := d.sourceAnchors.filter fun a ↦ d.SeesRevision actorId a.sourceRevisionId
  generationSnapshots := d.generationSnapshots.filter fun p ↦ d.SeesSession actorId p.sessionId
  snapshotRevisions := d.snapshotRevisions.filter fun pin ↦ d.SeesSnapshot actorId pin.snapshotId
  generationRuns := d.generationRuns.filter fun run ↦ d.SeesSnapshot actorId run.snapshotId
  generatedDocuments := d.generatedDocuments.filter fun document ↦ d.SeesRun actorId document.row.runId
  generatedSegments := d.generatedSegments.filter fun segment ↦
    d.SeesDocument actorId segment.documentId
  citations := d.citations.filter fun c ↦ d.SeesSegment actorId c.segmentId
  webEvidence := d.webEvidence.filter fun e ↦ d.SeesEvidence actorId e.id
  mergedDocumentStates := d.mergedDocumentStates.filter fun row ↦ d.SeesSession actorId row.sessionId
  versions := d.versions.filter fun row ↦ d.SeesSession actorId row.sessionId
  reportSuggestions := d.reportSuggestions.filter fun row ↦ d.SeesSession actorId row.sessionId

/-! ## What is seen -/

variable {d actorId}

theorem seesRoom_restrict {id : UUID} : (d.restrict actorId).SeesRoom actorId id ↔
    d.SeesRoom actorId id := by
  refine Lists.exists_mem_filter_iff fun m hm hown ↦ decide_eq_true ?_
  exact ⟨m, hm, rfl, hown.2⟩

theorem seesSession_restrict {id : UUID} : (d.restrict actorId).SeesSession actorId id ↔
    d.SeesSession actorId id := by
  simp only [SeesSession, seesRoom_restrict]
  exact Lists.exists_mem_filter_iff fun s _ hs ↦ decide_eq_true hs.2

theorem seesSubmission_restrict {id : UUID} : (d.restrict actorId).SeesSubmission actorId id ↔
    d.SeesSubmission actorId id := by
  simp only [SeesSubmission, seesSession_restrict]
  exact Lists.exists_mem_filter_iff fun row _ hrow ↦ decide_eq_true hrow.2

theorem seesRevision_restrict {id : UUID} : (d.restrict actorId).SeesRevision actorId id ↔
    d.SeesRevision actorId id := by
  simp only [SeesRevision, seesSubmission_restrict]
  exact Lists.exists_mem_filter_iff fun row _ hrow ↦ decide_eq_true hrow.2

theorem seesSnapshot_restrict {id : UUID} : (d.restrict actorId).SeesSnapshot actorId id ↔
    d.SeesSnapshot actorId id := by
  simp only [SeesSnapshot, seesSession_restrict]
  exact Lists.exists_mem_filter_iff fun p _ hp ↦ decide_eq_true hp.2

theorem seesRun_restrict {id : UUID} : (d.restrict actorId).SeesRun actorId id ↔
    d.SeesRun actorId id := by
  simp only [SeesRun, seesSnapshot_restrict]
  exact Lists.exists_mem_filter_iff fun run _ hrun ↦ decide_eq_true hrun.2

/-! ## The schema -/

/-- A revision of a session, through its submission. -/
def RevisionOf (d : RoomRows) (sessionId revisionId : UUID) : Prop :=
  ∃ revision ∈ d.sourceRevisions, revision.id = revisionId ∧
    ∃ submission ∈ d.submissions, submission.id = revision.submissionId ∧
      submission.sessionId = sessionId

theorem RevisionOf.seesRevision {sessionId revisionId : UUID} (h : d.RevisionOf sessionId revisionId)
    (hsees : d.SeesSession actorId sessionId) : d.SeesRevision actorId revisionId := by
  obtain ⟨revision, hrevision, hid, submission, hsubmission, hsid, hsession⟩ := h
  exact ⟨revision, hrevision, hid, submission, hsubmission, hsid, hsession ▸ hsees⟩

/-- What the schema asserts of the tables: the primary keys that count here, and
`axit_assert_snapshot_revision_session`. -/
structure Schema (d : RoomRows) : Prop where
  documentIds : (d.generatedDocuments.map (·.row.id)).Nodup
  revisionIds : (d.sourceRevisions.map (·.id)).Nodup
  submissionIds : (d.submissions.map (·.id)).Nodup
  pinned : ∀ pin ∈ d.snapshotRevisions, ∀ p ∈ d.generationSnapshots, p.id = pin.snapshotId →
    d.RevisionOf p.sessionId pin.sourceRevisionId

/-- The anchors that the summary of a session lists are of the session. -/
def ListsOwnAnchors (sections : Fields → Except Error (List SummarySection)) (d : RoomRows) : Prop :=
  ∀ p ∈ d.generationSnapshots, ∀ run ∈ d.generationRuns, run.snapshotId = p.id →
    ∀ document ∈ d.generatedDocuments, document.row.runId = run.id →
      ∀ content parts, d.citedContent document.row.id = .ok content → sections content = .ok parts →
        ∀ anchorId ∈ anchorIdsIn parts, ∀ a ∈ d.sourceAnchors, a.id.str = anchorId →
          d.RevisionOf p.sessionId a.sourceRevisionId

/-! ## The citation resolver -/

theorem segmentOf_restrict {p : GenerationSnapshot} {segmentId : UUID}
    (hp : p ∈ d.generationSnapshots) (hsees : d.SeesSession actorId p.sessionId) :
    (d.restrict actorId).SegmentOf p segmentId ↔ d.SegmentOf p segmentId := by
  constructor
  · rintro ⟨run, hrun, hsnapshot, document, hdocument, hof, segment, hsegment, hin, hid⟩
    exact ⟨run, List.mem_of_mem_filter hrun, hsnapshot, document, List.mem_of_mem_filter hdocument,
      hof, segment, List.mem_of_mem_filter hsegment, hin, hid⟩
  · rintro ⟨run, hrun, hsnapshot, document, hdocument, hof, segment, hsegment, hin, hid⟩
    have hseesSnapshot : d.SeesSnapshot actorId run.snapshotId := ⟨p, hp, hsnapshot.symm, hsees⟩
    have hseesRun : d.SeesRun actorId document.row.runId := ⟨run, hrun, hof.symm, hseesSnapshot⟩
    have hseesDocument : d.SeesDocument actorId segment.documentId :=
      ⟨document, hdocument, hin.symm, hseesRun⟩
    exact ⟨run, List.mem_filter.mpr ⟨hrun, decide_eq_true hseesSnapshot⟩, hsnapshot, document,
      List.mem_filter.mpr ⟨hdocument, decide_eq_true hseesRun⟩, hof, segment,
      List.mem_filter.mpr ⟨hsegment, decide_eq_true hseesDocument⟩, hin, hid⟩

theorem SegmentOf.seesSegment {p : GenerationSnapshot} {segmentId : UUID}
    (h : d.SegmentOf p segmentId) (hp : p ∈ d.generationSnapshots)
    (hsees : d.SeesSession actorId p.sessionId) : d.SeesSegment actorId segmentId := by
  obtain ⟨run, hrun, hsnapshot, document, hdocument, hof, segment, hsegment, hin, hid⟩ := h
  exact ⟨segment, hsegment, hid, document, hdocument, hin.symm, run, hrun, hof.symm, p, hp,
    hsnapshot.symm, hsees⟩

theorem pinned_restrict {p : GenerationSnapshot} {a : AnchorRow} (hp : p ∈ d.generationSnapshots)
    (hsees : d.SeesSession actorId p.sessionId) :
    (d.restrict actorId).Pinned p a ↔ d.Pinned p a :=
  Lists.exists_mem_filter_iff fun _ _ hpin ↦ decide_eq_true ⟨p, hp, hpin.1.symm, hsees⟩

theorem citationTarget_restrict (h : d.Schema) {c : CitationWrite} {p : GenerationSnapshot}
    (hc : c ∈ d.citations) (hp : p ∈ d.generationSnapshots)
    (hsees : d.SeesSession actorId p.sessionId) (hof : d.SegmentOf p c.segmentId) :
    (d.restrict actorId).citationTarget c p = d.citationTarget c p := by
  rw [citationTarget, citationTarget]
  split
  · next anchorId htarget =>
    simp only [pinned_restrict hp hsees]
    refine congrArg (Option.map _) (Lists.find?_filter_of_imp fun a _ ha ↦ decide_eq_true ?_)
    obtain ⟨-, pin, hpin, hsnapshot, hrevision, -⟩ := of_decide_eq_true ha
    exact hrevision ▸ (h.pinned pin hpin p hp hsnapshot.symm).seesRevision hsees
  · next evidenceId htarget =>
    refine congrArg (Option.map _) (Lists.find?_filter_of_imp fun e _ he ↦ decide_eq_true ?_)
    have heq : e.id = evidenceId := of_decide_eq_true he
    exact ⟨c, hc, by rw [htarget, heq], hof.seesSegment hp hsees⟩

theorem visibleSnapshots_restrict (segmentId : UUID) :
    ((d.restrict actorId).generationSnapshots.filter fun p ↦
        (d.restrict actorId).SeesSession actorId p.sessionId ∧
          (d.restrict actorId).SegmentOf p segmentId) =
      d.generationSnapshots.filter fun p ↦
        d.SeesSession actorId p.sessionId ∧ d.SegmentOf p segmentId := by
  have hsame : ∀ p ∈ (d.restrict actorId).generationSnapshots,
      decide ((d.restrict actorId).SeesSession actorId p.sessionId ∧
        (d.restrict actorId).SegmentOf p segmentId) =
      decide (d.SeesSession actorId p.sessionId ∧ d.SegmentOf p segmentId) := by
    intro p hp
    obtain ⟨hp, hsees⟩ := List.mem_filter.mp hp
    rw [decide_eq_decide, seesSession_restrict, segmentOf_restrict hp (of_decide_eq_true hsees)]
  rw [List.filter_congr hsame]
  exact Lists.filter_filter_of_imp fun p _ hp ↦ decide_eq_true (of_decide_eq_true hp).1

theorem resolve_restrict (h : d.Schema) (citationId : UUID) :
    (d.restrict actorId).resolve actorId citationId = d.resolve actorId citationId := by
  have hunseen : ∀ c ∈ d.citations, ¬decide (d.SeesSegment actorId c.segmentId) = true →
      (if c.id = citationId then
        (d.generationSnapshots.filter fun p ↦ d.SeesSession actorId p.sessionId ∧
          d.SegmentOf p c.segmentId).findSome? (d.citationTarget c)
      else none) = none := by
    intro c _ hnot
    have hnone : (d.generationSnapshots.filter fun p ↦ d.SeesSession actorId p.sessionId ∧
        d.SegmentOf p c.segmentId) = [] := by
      refine List.filter_eq_nil_iff.mpr fun p hp hvisible ↦ hnot (decide_eq_true ?_)
      obtain ⟨hsees, hof⟩ := of_decide_eq_true hvisible
      exact hof.seesSegment hp hsees
    rw [hnone]
    split <;> rfl
  have hsame : ∀ c ∈ (d.restrict actorId).citations,
      (if c.id = citationId then
        ((d.restrict actorId).generationSnapshots.filter fun p ↦
          (d.restrict actorId).SeesSession actorId p.sessionId ∧
            (d.restrict actorId).SegmentOf p c.segmentId).findSome?
              ((d.restrict actorId).citationTarget c)
      else none) =
      (if c.id = citationId then
        (d.generationSnapshots.filter fun p ↦ d.SeesSession actorId p.sessionId ∧
          d.SegmentOf p c.segmentId).findSome? (d.citationTarget c)
      else none) := by
    intro c hc
    rw [visibleSnapshots_restrict]
    refine if_congr Iff.rfl (Lists.findSome?_congr_of_mem fun p hp ↦ ?_) rfl
    obtain ⟨hp, hvisible⟩ := List.mem_filter.mp hp
    obtain ⟨hsees, hof⟩ := of_decide_eq_true hvisible
    exact citationTarget_restrict h (List.mem_filter.mp hc).1 hp hsees hof
  rw [resolve, resolve, Lists.findSome?_congr_of_mem hsame]
  exact congrArg (available _) (Lists.findSome?_filter_of_none hunseen)

theorem find_anchor_restrict {q : AnchorRow → Bool}
    (h : ∀ a ∈ d.sourceAnchors, q a = true → d.SeesRevision actorId a.sourceRevisionId) :
    (d.restrict actorId).sourceAnchors.find? q = d.sourceAnchors.find? q :=
  Lists.find?_filter_of_imp fun a ha hq ↦ decide_eq_true (h a ha hq)

theorem resolveSourceAnchorForViewer_restrict (revisionId : UUID) (anchorId : Option UUID) :
    (d.restrict actorId).resolveSourceAnchorForViewer actorId revisionId anchorId =
      d.resolveSourceAnchorForViewer actorId revisionId anchorId := by
  unfold resolveSourceAnchorForViewer
  by_cases hsees : d.SeesRevision actorId revisionId
  · rw [require_of hsees, require_of (seesRevision_restrict.mpr hsees), ok_bind, ok_bind]
    cases anchorId with
    | none => rfl
    | some anchorId =>
      dsimp only
      rw [find_anchor_restrict fun a _ ha ↦ (of_decide_eq_true ha).2 ▸ hsees]
  · rw [require_of_not hsees, require_of_not (mt seesRevision_restrict.mp hsees), error_bind, error_bind]

theorem resolveSourceAnchorForMember_restrict (anchorId : UUID) :
    (d.restrict actorId).resolveSourceAnchorForMember actorId anchorId =
      d.resolveSourceAnchorForMember actorId anchorId := by
  rw [resolveSourceAnchorForMember, resolveSourceAnchorForMember]
  simp only [seesRevision_restrict]
  rw [find_anchor_restrict fun a _ ha ↦ (of_decide_eq_true ha).2]

/-! ## Evidence -/

theorem seesResearchSegment_restrict {segmentId : UUID} :
    (d.restrict actorId).SeesResearchSegment actorId segmentId ↔
      d.SeesResearchSegment actorId segmentId := by
  simp only [SeesResearchSegment, seesRun_restrict]
  constructor
  · rintro ⟨segment, hsegment, hid, document, hdocument, hresearch, hrun⟩
    exact ⟨segment, (List.mem_filter.mp hsegment).1, hid, document, (List.mem_filter.mp hdocument).1,
      hresearch, hrun⟩
  · rintro ⟨segment, hsegment, hid, document, hdocument, hresearch, hrun⟩
    have hsees : d.SeesDocument actorId segment.documentId := ⟨document, hdocument, hresearch.1, hrun⟩
    exact ⟨segment, List.mem_filter.mpr ⟨hsegment, decide_eq_true hsees⟩, hid, document,
      List.mem_filter.mpr ⟨hdocument, decide_eq_true hrun⟩, hresearch, hrun⟩

theorem SeesResearchSegment.seesSegment {segmentId : UUID}
    (h : d.SeesResearchSegment actorId segmentId) : d.SeesSegment actorId segmentId := by
  obtain ⟨segment, hsegment, hid, document, hdocument, hresearch, hrun⟩ := h
  exact ⟨segment, hsegment, hid, document, hdocument, hresearch.1, hrun⟩

theorem seesResearchEvidence_restrict {evidenceId : UUID} :
    (d.restrict actorId).SeesResearchEvidence actorId evidenceId ↔
      d.SeesResearchEvidence actorId evidenceId := by
  simp only [SeesResearchEvidence, seesResearchSegment_restrict]
  exact Lists.exists_mem_filter_iff fun c _ hc ↦ decide_eq_true hc.2.seesSegment

theorem resolveWebEvidenceForMember_restrict (evidenceId : UUID) :
    (d.restrict actorId).resolveWebEvidenceForMember actorId evidenceId =
      d.resolveWebEvidenceForMember actorId evidenceId := by
  rw [resolveWebEvidenceForMember, resolveWebEvidenceForMember]
  simp only [seesResearchEvidence_restrict]
  have hfind : ((d.restrict actorId).webEvidence.find? fun e ↦
      e.id = evidenceId ∧ d.SeesResearchEvidence actorId e.id) =
        d.webEvidence.find? fun e ↦ e.id = evidenceId ∧ d.SeesResearchEvidence actorId e.id := by
    refine Lists.find?_filter_of_imp fun e _ he ↦ decide_eq_true ?_
    obtain ⟨c, hc, htarget, hsegment⟩ := (of_decide_eq_true he).2
    exact ⟨c, hc, htarget, hsegment.seesSegment⟩
  rw [hfind]

/-! ## The merged document -/

theorem requireDocumentMember_restrict (sessionId : UUID) :
    requireDocumentMember (d.restrict actorId).database sessionId actorId =
      requireDocumentMember d.database sessionId actorId := by
  have hfind : ((d.restrict actorId).talkSessions.find? fun s ↦
      s.id = sessionId ∧ (d.restrict actorId).SeesRoom actorId s.roomId) =
        d.talkSessions.find? fun s ↦ s.id = sessionId ∧ d.SeesRoom actorId s.roomId := by
    simp only [seesRoom_restrict]
    exact Lists.find?_filter_of_imp fun s _ hs ↦ decide_eq_true (of_decide_eq_true hs).2
  have hsession : (d.restrict actorId).database.other.talkSessions.find? (fun s ↦
      s.id = sessionId ∧ ActiveMember (d.restrict actorId).database s.roomId actorId) =
        d.database.other.talkSessions.find? fun s ↦
          s.id = sessionId ∧ ActiveMember d.database s.roomId actorId := hfind
  rw [requireDocumentMember, hsession, requireDocumentMember]

/-- Who passes the check of membership sees the session. -/
theorem seesSession_of_requireDocumentMember {sessionId roomId : UUID}
    (h : requireDocumentMember d.database sessionId actorId = .ok roomId) :
    d.SeesSession actorId sessionId := by
  rw [requireDocumentMember] at h
  split at h
  · next s hs =>
    have hfound : s.id = sessionId ∧ ActiveMember d.database s.roomId actorId := by
      simpa only [decide_eq_true_eq] using List.find?_some hs
    obtain ⟨hid, hmember⟩ := hfound
    exact ⟨s, List.mem_of_find?_eq_some hs, hid, hmember⟩
  · cases h

theorem filter_runs_restrict {q : GenerationRun → Bool} {snapshotId : UUID}
    (hsees : d.SeesSnapshot actorId snapshotId) (h : ∀ run, q run = true → run.snapshotId = snapshotId) :
    (d.restrict actorId).generationRuns.filter q = d.generationRuns.filter q :=
  Lists.filter_filter_of_imp fun run _ hrun ↦ decide_eq_true (h run hrun ▸ hsees)

theorem filter_documents_restrict {runId : UUID} (hsees : d.SeesRun actorId runId) :
    (d.restrict actorId).database.other.generatedDocuments.filter (·.runId = runId) =
      d.database.other.generatedDocuments.filter (·.runId = runId) := by
  have hmap : ∀ l : List DocumentRow, (l.map (·.row)).filter (fun row ↦ decide (row.runId = runId)) =
      (l.filter fun document ↦ decide (document.row.runId = runId)).map (·.row) :=
    fun l ↦ List.filter_map
  change ((d.restrict actorId).generatedDocuments.map (·.row)).filter _ =
    (d.generatedDocuments.map (·.row)).filter _
  rw [hmap, hmap]
  refine congrArg (List.map _) (Lists.filter_filter_of_imp fun document _ h ↦ decide_eq_true ?_)
  exact (of_decide_eq_true h : document.row.runId = runId) ▸ hsees

theorem reportDocuments_restrict {p : GenerationSnapshot} (hsees : d.SeesSnapshot actorId p.id) :
    reportDocuments (d.restrict actorId).database p = reportDocuments d.database p := by
  rw [reportDocuments, reportDocuments]
  have hruns := filter_runs_restrict (q := fun run ↦ decide (run.snapshotId = p.id ∧
    run.state = .succeeded ∧ run.pipelineVersion = p.pipelineVersion)) hsees
      fun run hrun ↦ (of_decide_eq_true hrun).1
  change ((d.restrict actorId).generationRuns.filter _).flatMap _ =
    (d.generationRuns.filter _).flatMap _
  rw [hruns]
  refine List.flatMap_congr fun run hrun ↦ filter_documents_restrict ?_
  obtain ⟨hmem, hq⟩ := List.mem_filter.mp hrun
  exact ⟨run, hmem, rfl, (of_decide_eq_true hq).1 ▸ hsees⟩

theorem loadReportIdentity_restrict {sessionId : UUID} (hsees : d.SeesSession actorId sessionId) :
    loadReportIdentity (d.restrict actorId).database sessionId =
      loadReportIdentity d.database sessionId := by
  rw [loadReportIdentity, loadReportIdentity, selectLast, selectLast]
  have hsame : ∀ p ∈ (d.restrict actorId).generationSnapshots,
      decide (p.sessionId = sessionId ∧ HasReport (d.restrict actorId).database p) =
        decide (p.sessionId = sessionId ∧ HasReport d.database p) := by
    intro p hp
    obtain ⟨hp, hown⟩ := List.mem_filter.mp hp
    have hsnapshot : d.SeesSnapshot actorId p.id := ⟨p, hp, rfl, of_decide_eq_true hown⟩
    rw [decide_eq_decide, HasReport, HasReport, reportDocuments_restrict hsnapshot]
  have hfilter : ((d.restrict actorId).generationSnapshots.filter fun p ↦
      decide (p.sessionId = sessionId ∧ HasReport (d.restrict actorId).database p)) =
        d.generationSnapshots.filter fun p ↦
          decide (p.sessionId = sessionId ∧ HasReport d.database p) := by
    rw [List.filter_congr hsame]
    exact Lists.filter_filter_of_imp fun p _ hp ↦ decide_eq_true ((of_decide_eq_true hp).1 ▸ hsees)
  exact congrArg (fun l : List GenerationSnapshot ↦
    (l.argmax (·.generationEpoch)).map fun p ↦ (⟨p.id⟩ : IntegratedReportIdentity)) hfilter

theorem requireReport_restrict {sessionId : UUID} (hsees : d.SeesSession actorId sessionId) :
    requireReport (d.restrict actorId).database sessionId = requireReport d.database sessionId := by
  rw [requireReport, requireReport, loadReportIdentity_restrict hsees]

/-- The snapshot of a report is one of the session. -/
theorem seesSnapshot_of_identity {sessionId : UUID} {identity : IntegratedReportIdentity}
    (hsees : d.SeesSession actorId sessionId)
    (h : loadReportIdentity d.database sessionId = some identity) :
    ∃ p ∈ d.generationSnapshots, p.id = identity.snapshotId ∧ p.sessionId = sessionId ∧
      d.SeesSnapshot actorId p.id := by
  obtain ⟨p, hp, heq⟩ := Option.map_eq_some_iff.mp h
  obtain ⟨hmem, hq⟩ := selectLast_mem hp
  have hsession : p.sessionId = sessionId := (of_decide_eq_true hq).1
  exact ⟨p, hmem, congrArg IntegratedReportIdentity.snapshotId heq, hsession, p, hmem, rfl,
    hsession ▸ hsees⟩

theorem documentRow_restrict {sessionId : UUID} (hsees : d.SeesSession actorId sessionId)
    (snapshotId : UUID) :
    documentRow (d.restrict actorId).database sessionId snapshotId =
      documentRow d.database sessionId snapshotId :=
  Lists.find?_filter_of_imp fun _ _ hrow ↦ decide_eq_true ((of_decide_eq_true hrow).1 ▸ hsees)

theorem memberDocuments_restrict (sessionId : UUID) (kind : GenerationKind) :
    memberDocuments (d.restrict actorId).database sessionId actorId kind =
      memberDocuments d.database sessionId actorId kind := by
  rw [memberDocuments, memberDocuments]
  have hsessions : ((d.restrict actorId).talkSessions.filter fun s ↦
      s.id = sessionId ∧ (d.restrict actorId).SeesRoom actorId s.roomId) =
        d.talkSessions.filter fun s ↦ s.id = sessionId ∧ d.SeesRoom actorId s.roomId := by
    simp only [seesRoom_restrict]
    exact Lists.filter_filter_of_imp fun s _ hs ↦ decide_eq_true (of_decide_eq_true hs).2
  change ((d.restrict actorId).talkSessions.filter fun s ↦
      s.id = sessionId ∧ (d.restrict actorId).SeesRoom actorId s.roomId).flatMap _ =
    (d.talkSessions.filter fun s ↦ s.id = sessionId ∧ d.SeesRoom actorId s.roomId).flatMap _
  rw [hsessions]
  refine List.flatMap_congr fun s hs ↦ ?_
  obtain ⟨hs, hq⟩ := List.mem_filter.mp hs
  have hsession : d.SeesSession actorId s.id := ⟨s, hs, rfl, (of_decide_eq_true hq).2⟩
  have hsnapshots : ((d.restrict actorId).generationSnapshots.filter fun p ↦
      p.sessionId = s.id ∧ p.generationEpoch = s.generationEpoch) =
        d.generationSnapshots.filter fun p ↦
          p.sessionId = s.id ∧ p.generationEpoch = s.generationEpoch :=
    Lists.filter_filter_of_imp fun p _ hp ↦ decide_eq_true ((of_decide_eq_true hp).1 ▸ hsession)
  change ((d.restrict actorId).generationSnapshots.filter _).flatMap _ =
    (d.generationSnapshots.filter _).flatMap _
  rw [hsnapshots]
  refine List.flatMap_congr fun p hp ↦ ?_
  obtain ⟨hp, hq⟩ := List.mem_filter.mp hp
  have hsnapshot : d.SeesSnapshot actorId p.id :=
    ⟨p, hp, rfl, (of_decide_eq_true hq).1 ▸ hsession⟩
  have hruns := filter_runs_restrict (q := fun run ↦ decide (run.snapshotId = p.id ∧
    run.kind = kind ∧ run.state = .succeeded)) hsnapshot fun run hrun ↦ (of_decide_eq_true hrun).1
  change ((d.restrict actorId).generationRuns.filter _).flatMap _ =
    (d.generationRuns.filter _).flatMap _
  rw [hruns]
  refine List.flatMap_congr fun run hrun ↦ ?_
  obtain ⟨hrun, hq⟩ := List.mem_filter.mp hrun
  have hsees : d.SeesRun actorId run.id := ⟨run, hrun, rfl, (of_decide_eq_true hq).1 ▸ hsnapshot⟩
  rw [filter_documents_restrict hsees]

theorem memberDocument_restrict (sessionId : UUID) (kind : GenerationKind) :
    memberDocument (d.restrict actorId).database sessionId actorId kind =
      memberDocument d.database sessionId actorId kind := by
  rw [memberDocument, memberDocument, memberDocuments_restrict]

/-- Where a document that a member reads comes from. -/
theorem exists_of_memberDocument {sessionId : UUID} {kind : GenerationKind}
    {found : MemberGenerationDocument}
    (h : memberDocument d.database sessionId actorId kind = .ok found) :
    d.SeesSession actorId sessionId ∧ ∃ p ∈ d.generationSnapshots, p.sessionId = sessionId ∧
      ∃ run ∈ d.generationRuns, run.snapshotId = p.id ∧
        ∃ document ∈ d.generatedDocuments, document.row.runId = run.id ∧
          found.documentId = document.row.id := by
  rw [memberDocument] at h
  split at h
  · next document hhead =>
    cases h
    have hmem := List.mem_of_mem_head? hhead
    rw [memberDocuments] at hmem
    obtain ⟨s, hs, hmem⟩ := List.mem_flatMap.mp hmem
    obtain ⟨p, hp, hmem⟩ := List.mem_flatMap.mp hmem
    obtain ⟨run, hrun, hmem⟩ := List.mem_flatMap.mp hmem
    obtain ⟨row, hrow, rfl⟩ := List.mem_map.mp hmem
    obtain ⟨hsession, hsq⟩ := List.mem_filter.mp hs
    obtain ⟨hsnapshot, hpq⟩ := List.mem_filter.mp hp
    obtain ⟨hofRun, hrunq⟩ := List.mem_filter.mp hrun
    obtain ⟨hofDocument, hrowq⟩ := List.mem_filter.mp hrow
    obtain ⟨document, hdocument, rfl⟩ := List.mem_map.mp hofDocument
    obtain ⟨rfl, hmember⟩ := of_decide_eq_true hsq
    exact ⟨⟨s, hsession, rfl, hmember⟩, p, hsnapshot, (of_decide_eq_true hpq).1, run, hofRun,
      (of_decide_eq_true hrunq).1, document, hdocument, of_decide_eq_true hrowq, rfl⟩
  · cases h

/-! ## Contents -/

theorem find_content (documentId : UUID) :
    d.contents.documents.find? (·.id = documentId) =
      (d.generatedDocuments.find? (·.row.id = documentId)).map fun document ↦
        ⟨document.row.id, document.content⟩ :=
  List.find?_map

/-- A document that is seen is found by its key among those that are seen. -/
theorem find_content_restrict (h : d.Schema) {document : DocumentRow}
    (hmem : document ∈ d.generatedDocuments) (hsees : d.SeesRun actorId document.row.runId) :
    (d.restrict actorId).contents.documents.find? (·.id = document.row.id) =
      d.contents.documents.find? (·.id = document.row.id) := by
  rw [find_content, find_content]
  refine congrArg (Option.map _) (Lists.find?_filter_of_imp fun other hother heq ↦ decide_eq_true ?_)
  have hsame : other = document := eq_of_key_eq h.documentIds hother hmem (of_decide_eq_true heq)
  exact hsame ▸ hsees

theorem sourceCitations_restrict {documentId : UUID} (hsees : d.SeesDocument actorId documentId) :
    sourceCitations (d.restrict actorId).contents documentId =
      sourceCitations d.contents documentId := by
  rw [sourceCitations, sourceCitations]
  have hsegments : ((d.restrict actorId).generatedSegments.filter fun segment ↦
      decide (segment.documentId = documentId)) =
        d.generatedSegments.filter fun segment ↦ decide (segment.documentId = documentId) :=
    Lists.filter_filter_of_imp fun segment _ hq ↦ decide_eq_true (of_decide_eq_true hq ▸ hsees)
  change ((d.restrict actorId).generatedSegments.filter _).flatMap _ =
    (d.generatedSegments.filter _).flatMap _
  rw [hsegments]
  refine List.flatMap_congr fun segment hsegment ↦ ?_
  obtain ⟨hmem, hq⟩ := List.mem_filter.mp hsegment
  have hseen : d.SeesSegment actorId segment.id :=
    ⟨segment, hmem, rfl, (of_decide_eq_true hq : segment.documentId = documentId) ▸ hsees⟩
  refine Lists.filterMap_filter_of_none fun c _ hnot ↦ ?_
  have hne : c.segmentId ≠ segment.id := fun heq ↦ hnot (decide_eq_true (heq ▸ hseen))
  rw [citationEntry]
  split
  · exact if_neg hne
  · rfl

theorem summaryContentWithCitationIds_restrict {documentId : UUID}
    (hsees : d.SeesDocument actorId documentId) (stored : Fields) :
    summaryContentWithCitationIds (d.restrict actorId).contents documentId stored =
      summaryContentWithCitationIds d.contents documentId stored := by
  rw [summaryContentWithCitationIds, summaryContentWithCitationIds, sourceCitations_restrict hsees]

theorem citedContent_restrict (h : d.Schema) {document : DocumentRow}
    (hmem : document ∈ d.generatedDocuments) (hsees : d.SeesRun actorId document.row.runId) :
    (d.restrict actorId).citedContent document.row.id = d.citedContent document.row.id := by
  rw [citedContent, citedContent, find_content_restrict h hmem hsees]
  split
  · next row hrow =>
    have hid : row.id = document.row.id := by
      simpa only [decide_eq_true_eq] using List.find?_some hrow
    have hdocument : d.SeesDocument actorId row.id := ⟨document, hmem, hid.symm, hsees⟩
    simp only [summaryContentWithCitationIds_restrict hdocument]
  · rfl

theorem getSummaryForMember_restrict (h : d.Schema) (sessionId : UUID) :
    getSummaryForMember (d.restrict actorId).database (d.restrict actorId).contents sessionId actorId =
      getSummaryForMember d.database d.contents sessionId actorId := by
  rw [getSummaryForMember, getSummaryForMember, memberDocument_restrict]
  cases hfound : memberDocument d.database sessionId actorId .summary with
  | error e => rfl
  | ok found =>
    obtain ⟨hsession, p, hp, hof, run, hrun, hsnapshot, document, hdocument, hrunId, hid⟩ :=
      exists_of_memberDocument hfound
    have hsees : d.SeesRun actorId document.row.runId :=
      ⟨run, hrun, hrunId.symm, p, hp, hsnapshot.symm, hof ▸ hsession⟩
    rw [ok_bind, ok_bind, hid, find_content_restrict h hdocument hsees]
    split
    · rfl
    · next row hrow =>
      have hkey : row.id = document.row.id := by
        simpa only [decide_eq_true_eq] using List.find?_some hrow
      have hseen : d.SeesDocument actorId row.id := ⟨document, hdocument, hkey.symm, hsees⟩
      simp only [summaryContentWithCitationIds_restrict hseen]

/-! ## Anchors and their documents -/

theorem find_submission_restrict (h : d.Schema) {submissionId : UUID}
    (hsees : d.SeesSubmission actorId submissionId) :
    (d.restrict actorId).submissions.find? (·.id = submissionId) =
      d.submissions.find? (·.id = submissionId) := by
  obtain ⟨row, hrow, hid, hsession⟩ := hsees
  refine Lists.find?_filter_of_imp fun other hother heq ↦ decide_eq_true ?_
  have hsame : other = row :=
    eq_of_key_eq h.submissionIds hother hrow ((of_decide_eq_true heq).trans hid.symm)
  exact hsame ▸ hsession

theorem revisionSubmission_restrict (h : d.Schema) {revisionId : UUID}
    (hsees : d.SeesRevision actorId revisionId) :
    (d.restrict actorId).revisionSubmission revisionId = d.revisionSubmission revisionId := by
  obtain ⟨row, hrow, hid, hsubmission⟩ := hsees
  rw [revisionSubmission, revisionSubmission]
  have hsame : ∀ revision ∈ (d.restrict actorId).sourceRevisions,
      (if revision.id = revisionId then
        ((d.restrict actorId).submissions.find? (·.id = revision.submissionId)).map (revision, ·)
      else none) =
      if revision.id = revisionId then
        (d.submissions.find? (·.id = revision.submissionId)).map (revision, ·)
      else none := by
    intro revision hrevision
    rw [find_submission_restrict h (of_decide_eq_true (List.mem_filter.mp hrevision).2)]
  rw [Lists.findSome?_congr_of_mem hsame]
  refine Lists.findSome?_filter_of_none fun revision hrevision hnot ↦ if_neg fun heq ↦ hnot ?_
  have heq : revision = row := eq_of_key_eq h.revisionIds hrevision hrow (heq.trans hid.symm)
  exact decide_eq_true (heq ▸ hsubmission)

theorem resolveAnchorTitles_restrict (h : d.Schema) {anchorIds : List String}
    (hown : ∀ anchorId ∈ anchorIds, ∀ a ∈ d.sourceAnchors, a.id.str = anchorId →
      d.SeesRevision actorId a.sourceRevisionId) :
    (d.restrict actorId).resolveAnchorTitles anchorIds = d.resolveAnchorTitles anchorIds := by
  have htitle : ∀ anchorId ∈ anchorIds,
      (d.restrict actorId).anchorTitle anchorId = d.anchorTitle anchorId := by
    intro anchorId hmem
    rw [anchorTitle, anchorTitle]
    have hsame : ∀ a ∈ (d.restrict actorId).sourceAnchors,
        (if a.id.str = anchorId then
          ((d.restrict actorId).revisionSubmission a.sourceRevisionId).map (·.2.title) else none) =
        if a.id.str = anchorId then (d.revisionSubmission a.sourceRevisionId).map (·.2.title)
        else none := by
      intro a ha
      rw [revisionSubmission_restrict h (of_decide_eq_true (List.mem_filter.mp ha).2)]
    rw [Lists.findSome?_congr_of_mem hsame]
    refine Lists.findSome?_filter_of_none fun a ha hnot ↦ if_neg fun heq ↦ hnot ?_
    exact decide_eq_true (hown anchorId hmem a ha heq)
  rw [resolveAnchorTitles, resolveAnchorTitles]
  exact List.filterMap_congr fun anchorId hmem ↦ by rw [htitle anchorId hmem]

theorem pinnedAnchors_restrict {pin : SnapshotRevision}
    (hsees : d.SeesRevision actorId pin.sourceRevisionId) :
    (d.restrict actorId).pinnedAnchors pin = d.pinnedAnchors pin := by
  have hfilter : ((d.restrict actorId).sourceAnchors.filter fun a ↦
      a.sourceRevisionId = pin.sourceRevisionId ∧ a.extractionRunId = pin.extractionRunId ∧
        a.ragEligible = true) =
      d.sourceAnchors.filter fun a ↦ a.sourceRevisionId = pin.sourceRevisionId ∧
        a.extractionRunId = pin.extractionRunId ∧ a.ragEligible = true :=
    Lists.filter_filter_of_imp fun a _ ha ↦ decide_eq_true ((of_decide_eq_true ha).1 ▸ hsees)
  rw [pinnedAnchors, pinnedAnchors, hfilter]

theorem loadSnapshotDocuments_restrict (h : d.Schema) {p : GenerationSnapshot}
    (hp : p ∈ d.generationSnapshots) (hsees : d.SeesSession actorId p.sessionId) :
    (d.restrict actorId).loadSnapshotDocuments p.id = d.loadSnapshotDocuments p.id := by
  have hpins : (d.restrict actorId).snapshotRevisions.filter (fun pin ↦ decide (pin.snapshotId = p.id)) =
      d.snapshotRevisions.filter fun pin ↦ decide (pin.snapshotId = p.id) :=
    Lists.filter_filter_of_imp fun pin _ hq ↦
      decide_eq_true ⟨p, hp, (of_decide_eq_true hq : pin.snapshotId = p.id).symm, hsees⟩
  rw [loadSnapshotDocuments, loadSnapshotDocuments, hpins]
  refine List.filterMap_congr fun pin hpin ↦ ?_
  obtain ⟨hmem, hq⟩ := List.mem_filter.mp ((List.mem_insertionSort _).mp hpin)
  have hrevision : d.SeesRevision actorId pin.sourceRevisionId :=
    (h.pinned pin hmem p hp (of_decide_eq_true hq).symm).seesRevision hsees
  rw [pinnedDocument, pinnedDocument, revisionSubmission_restrict h hrevision,
    pinnedAnchors_restrict hrevision]

/-! ## Reading the document -/

section Sections

variable {sections : Fields → Except Error (List SummarySection)}

theorem readBaseline_restrict (h : d.Schema) (hlists : d.ListsOwnAnchors sections) (sessionId : UUID) :
    readBaseline ((d.restrict actorId).mergedDocumentReads sections) (d.restrict actorId).database
        sessionId actorId =
      readBaseline (d.mergedDocumentReads sections) d.database sessionId actorId := by
  rw [readBaseline, readBaseline, memberDocument_restrict]
  cases hfound : memberDocument d.database sessionId actorId .summary with
  | error e => rw [error_bind, error_bind]
  | ok found =>
    obtain ⟨hsession, p, hp, hof, run, hrun, hsnapshot, document, hdocument, hrunId, hid⟩ :=
      exists_of_memberDocument hfound
    have hsees : d.SeesRun actorId document.row.runId :=
      ⟨run, hrun, hrunId.symm, p, hp, hsnapshot.symm, hof ▸ hsession⟩
    have hsections : ((d.restrict actorId).mergedDocumentReads sections).sections found =
        (d.mergedDocumentReads sections).sections found := by
      have hcontent : (d.restrict actorId).citedContent found.documentId =
          d.citedContent found.documentId := by
        rw [hid, citedContent_restrict h hdocument hsees]
      exact congrArg (· >>= sections) hcontent
    rw [ok_bind, ok_bind, hsections]
    cases hparts : (d.mergedDocumentReads sections).sections found with
    | error e => rw [error_bind, error_bind]
    | ok parts =>
      obtain ⟨content, hcited, hof'⟩ := bind_eq_ok.mp hparts
      rw [hid] at hcited
      have hown : ∀ anchorId ∈ anchorIdsIn parts, ∀ a ∈ d.sourceAnchors, a.id.str = anchorId →
          d.SeesRevision actorId a.sourceRevisionId := fun anchorId hmem a ha heq ↦
        (hlists p hp run hrun hsnapshot document hdocument hrunId content parts hcited hof' anchorId
          hmem a ha heq).seesRevision (hof ▸ hsession)
      rw [ok_bind, ok_bind]
      exact congrArg (baselineBlocks parts) (resolveAnchorTitles_restrict h hown)

/-- The blocks of a row as a member reads them depend on the documents of the snapshot. -/
theorem readBlocks_congr {reads reads' : MergedDocumentReads} {snapshotId : UUID}
    (h : reads.snapshotDocuments snapshotId = reads'.snapshotDocuments snapshotId)
    (row : MergedDocumentState) : readBlocks reads snapshotId row = readBlocks reads' snapshotId row := by
  rw [readBlocks, readBlocks, h]

theorem getMerged_restrict (h : d.Schema) (hlists : d.ListsOwnAnchors sections) (sessionId : UUID) :
    (d.restrict actorId).getMerged actorId sections sessionId = d.getMerged actorId sections sessionId := by
  rw [getMerged, getMerged, getMergedDocument, getMergedDocument, requireDocumentMember_restrict]
  cases hmember : requireDocumentMember d.database sessionId actorId with
  | error e => rw [error_bind, error_bind]
  | ok roomId =>
    have hsees := seesSession_of_requireDocumentMember hmember
    rw [ok_bind, ok_bind, requireReport_restrict hsees]
    cases hreport : requireReport d.database sessionId with
    | error e => rw [error_bind, error_bind]
    | ok identity =>
      have hidentity : loadReportIdentity d.database sessionId = some identity := by
        rw [requireReport] at hreport
        split at hreport
        · next found hfound =>
          cases hreport
          exact hfound
        · cases hreport
      obtain ⟨p, hp, hid, hof, hsnapshot⟩ := seesSnapshot_of_identity hsees hidentity
      have hdocuments :
          ((d.restrict actorId).mergedDocumentReads sections).snapshotDocuments identity.snapshotId =
            (d.mergedDocumentReads sections).snapshotDocuments identity.snapshotId := by
        rw [← hid]
        exact loadSnapshotDocuments_restrict h hp (hof ▸ hsees)
      rw [ok_bind, ok_bind, documentRow_restrict hsees, readBaseline_restrict h hlists]
      cases documentRow d.database sessionId identity.snapshotId with
      | some row =>
        dsimp only
        rw [readBlocks_congr hdocuments row]
      | none => rfl

end Sections

theorem listVersions_restrict (sessionId : UUID) :
    (d.restrict actorId).listVersions actorId sessionId = d.listVersions actorId sessionId := by
  rw [listVersions, listVersions, requireDocumentMember_restrict]
  cases hmember : requireDocumentMember d.database sessionId actorId with
  | error e => rw [error_bind, error_bind]
  | ok roomId =>
    have hsees := seesSession_of_requireDocumentMember hmember
    rw [ok_bind, ok_bind, loadReportIdentity_restrict hsees]
    split
    · rfl
    · next identity _ =>
      have hrows : ((d.restrict actorId).versions.filter fun row ↦
          row.sessionId = sessionId ∧ row.snapshotId = identity.snapshotId) =
          d.versions.filter fun row ↦
            row.sessionId = sessionId ∧ row.snapshotId = identity.snapshotId :=
        Lists.filter_filter_of_imp fun row _ hq ↦ decide_eq_true ((of_decide_eq_true hq).1 ▸ hsees)
      rw [hrows]

theorem getVersion_restrict (sessionId versionId : UUID) :
    (d.restrict actorId).getVersion actorId sessionId versionId =
      d.getVersion actorId sessionId versionId := by
  rw [getVersion, getVersion, requireDocumentMember_restrict]
  cases hmember : requireDocumentMember d.database sessionId actorId with
  | error e => rw [error_bind, error_bind]
  | ok roomId =>
    have hsees := seesSession_of_requireDocumentMember hmember
    rw [ok_bind, ok_bind, requireReport_restrict hsees]
    cases requireReport d.database sessionId with
    | error e => rw [error_bind, error_bind]
    | ok identity =>
      have hfind : ((d.restrict actorId).versions.find? fun row ↦ row.id = versionId ∧
          row.sessionId = sessionId ∧ row.snapshotId = identity.snapshotId) =
          d.versions.find? fun row ↦ row.id = versionId ∧ row.sessionId = sessionId ∧
            row.snapshotId = identity.snapshotId :=
        Lists.find?_filter_of_imp fun row _ hq ↦ decide_eq_true ((of_decide_eq_true hq).2.1 ▸ hsees)
      rw [ok_bind, ok_bind, hfind]

theorem listSuggestions_restrict (sessionId : UUID) :
    (d.restrict actorId).listSuggestions actorId sessionId = d.listSuggestions actorId sessionId := by
  rw [listSuggestions, listSuggestions]
  by_cases hsees : d.SeesSession actorId sessionId
  · have hrows : (d.restrict actorId).reportSuggestions.filter
        (fun row ↦ decide (row.sessionId = sessionId)) =
        d.reportSuggestions.filter fun row ↦ decide (row.sessionId = sessionId) :=
      Lists.filter_filter_of_imp fun row _ hq ↦
        decide_eq_true ((of_decide_eq_true hq : row.sessionId = sessionId) ▸ hsees)
    rw [require_of hsees, require_of (seesSession_restrict.mpr hsees), hrows]
  · rw [require_of_not hsees, require_of_not (mt seesSession_restrict.mp hsees), error_bind, error_bind]

/-! ## Isolation -/

/-- **A read sees only its rooms**: its outcome is that on the rows of the rooms of the actor. -/
theorem outcome_restrict {sections : Fields → Except Error (List SummarySection)} (h : d.Schema)
    (hlists : d.ListsOwnAnchors sections) (read : RoomRead) :
    read.outcome sections (d.restrict actorId) actorId = read.outcome sections d actorId := by
  cases read with
  | resolve citationId => exact congrArg (Except.map _) (resolve_restrict h citationId)
  | resolveSourceAnchorForViewer revisionId anchorId =>
    exact congrArg (Except.map _) (resolveSourceAnchorForViewer_restrict revisionId anchorId)
  | resolveSourceAnchorForMember anchorId =>
    exact congrArg (Except.map _) (resolveSourceAnchorForMember_restrict anchorId)
  | resolveWebEvidenceForMember evidenceId =>
    exact congrArg (Except.map _) (resolveWebEvidenceForMember_restrict evidenceId)
  | get sessionId =>
    exact congrArg (Except.map _ ∘ Except.mapError _) (getMerged_restrict h hlists sessionId)
  | listVersions sessionId =>
    exact congrArg (Except.map _ ∘ Except.mapError _) (listVersions_restrict sessionId)
  | getVersion sessionId versionId =>
    exact congrArg (Except.map _ ∘ Except.mapError _) (getVersion_restrict sessionId versionId)
  | listSuggestions sessionId => exact congrArg (Except.map _) (listSuggestions_restrict sessionId)
  | getSummaryForMember sessionId =>
    exact congrArg (Except.map _ ∘ Except.mapError _) (getSummaryForMember_restrict h sessionId)

end RoomRows

/-- **Rooms are isolated.** Two states whose rows of the rooms of an actor are the same give the actor
the same outcome of every read. -/
theorem rooms_isolated {sections : Fields → Except Error (List SummarySection)} {d d' : RoomRows}
    {actorId : UUID} (h : d.Schema) (h' : d'.Schema) (hlists : d.ListsOwnAnchors sections)
    (hlists' : d'.ListsOwnAnchors sections) (hsame : d.restrict actorId = d'.restrict actorId)
    (read : RoomRead) : read.outcome sections d actorId = read.outcome sections d' actorId := by
  calc read.outcome sections d actorId = read.outcome sections (d.restrict actorId) actorId :=
        (RoomRows.outcome_restrict h hlists read).symm
    _ = read.outcome sections (d'.restrict actorId) actorId := by rw [hsame]
    _ = read.outcome sections d' actorId := RoomRows.outcome_restrict h' hlists' read

/-! ## Listed anchors -/

/-- A text of scalar values. -/
def plainText : Json → Option String
  | .str s => some (String.ofList (s.map fun c ↦ Char.ofNat c.val))
  | _ => none

/-- The items of a section whose values have the types that the casts say. -/
def readItem : Json → Option SummaryItem
  | .object fields => do
    let text ← plainText (get fields "text")
    match get fields "source_anchor_ids" with
    | .array ids => do
      let ids ← ids.mapM plainText
      some ⟨text, ids⟩
    | _ => none
  | _ => none

def readSection : Json → Option SummarySection
  | .object fields => do
    let heading ← plainText (get fields "heading")
    match get fields "items" with
    | .array items => do
      let items ← items.mapM readItem
      some ⟨heading, items⟩
    | _ => none
  | _ => none

/-- The sections of a content whose values have the types that the casts say. -/
def readSections (content : Fields) : Except Error (List SummarySection) :=
  match get content "sections" with
  | .array parts =>
    match parts.mapM readSection with
    | some sections => .ok sections
    | none => .error (.generationRepository "not a summary")
  | _ => .error (.generationRepository "not a summary")

/-- Two rooms, of which user 1 is in the first. Its summary cites an anchor of its own and lists one of
the other room, of a submission with the given title. -/
def listingRows (title : String) : RoomRows where
  roomMemberships := [⟨10, 1, true, false⟩]
  talkSessions := [⟨20, 10, 1, "ours", .ready, 1, 1, 0⟩, ⟨21, 11, 2, "theirs", .open, 0, 1, 0⟩]
  submissions := [⟨30, 20, "ours"⟩, ⟨31, 21, title⟩]
  sourceRevisions := [⟨40, 30, none⟩, ⟨41, 31, none⟩]
  sourceAnchors := [⟨50, 40, 45, 0, "a", .object [], true⟩, ⟨51, 41, 46, 0, "b", .object [], true⟩]
  generationSnapshots := [⟨60, 20, 1, 1, "ours", "v1", "a1"⟩]
  snapshotRevisions := [⟨60, 40, 45⟩]
  generationRuns := [⟨70, 60, .summary, "p", "m", "1", "v1", .succeeded, none⟩,
    ⟨71, 60, .research, "p", "m", "1", "v1", .succeeded, none⟩]
  generatedDocuments := [⟨⟨80, 70, .summary, ""⟩, [(lit "sections", .array [.object
      [(lit "heading", .str (lit "h")), (lit "items", .array [.object [(lit "text", .str (lit "t")),
        (lit "source_anchor_ids", .array [.str (uuidText 51)]),
        (lit "supports", .array [.object [(lit "source_anchor_id", .str (uuidText 50))]])]])]])]⟩,
    ⟨⟨81, 71, .research, ""⟩, []⟩]
  generatedSegments := [⟨90, 80, 0, lit "t"⟩]
  citations := [⟨95, 90, .sourceAnchor 50⟩]
  webEvidence := []
  mergedDocumentStates := []
  versions := []
  reportSuggestions := []

theorem listingRows_schema (title : String) : (listingRows title).Schema := by
  refine ⟨?_, ?_, ?_, fun pin hpin p hp _ ↦ ?_⟩
  · change [(80 : UUID), 81].Nodup
    decide
  · change [(40 : UUID), 41].Nodup
    decide
  · change [(30 : UUID), 31].Nodup
    decide
  · cases List.mem_singleton.mp hpin
    cases List.mem_singleton.mp hp
    exact ⟨⟨40, 30, none⟩, List.mem_cons_self, rfl, ⟨30, 20, "ours"⟩, List.mem_cons_self, rfl, rfl⟩

theorem listingRows_restrict (title : String) :
    (listingRows title).restrict 1 = (listingRows "x").restrict 1 := rfl

/-- **A listed anchor leaks a title.** Two states that differ in the title of a submission of the other
room alone give different documents, since the titles of listed anchors are looked up without the
membership. -/
theorem rooms_not_isolated_listing :
    (listingRows "x").Schema ∧ (listingRows "y").Schema ∧
      (listingRows "x").restrict 1 = (listingRows "y").restrict 1 ∧
      (RoomRead.get 20).outcome readSections (listingRows "x") 1 ≠
        (RoomRead.get 20).outcome readSections (listingRows "y") 1 := by
  have hget : ∀ title ∈ ["x", "y"], (listingRows title).getMerged 1 readSections 20 =
      .ok ⟨20, 60, 0, [.heading "b-h-0" .one "h" none, .paragraph "b-p-0-0" "t" (some title)]⟩ := by
    decide +kernel
  have hmerged : ∀ title ∈ ["x", "y"], (RoomRead.get 20).outcome readSections (listingRows title) 1 =
      .ok (.merged ⟨20, 60, 0,
        [.heading "b-h-0" .one "h" none, .paragraph "b-p-0-0" "t" (some title)]⟩) := by
    intro title htitle
    rw [RoomRead.outcome, hget title htitle]
    rfl
  refine ⟨listingRows_schema "x", listingRows_schema "y", (listingRows_restrict "y").symm, ?_⟩
  rw [hmerged "x" (by decide), hmerged "y" (by decide)]
  intro heq
  have hblocks := congrArg MergedDocumentView.blocks (RoomReply.merged.inj (Except.ok.inj heq))
  revert hblocks
  decide

/-! ## A foreign anchor -/

/-- The rows of both rooms before there is a generation. -/
def gatheringRows : RoomRows :=
  { listingRows "x" with
    generationRuns := []
    generatedDocuments := []
    generatedSegments := []
    citations := [] }

/-- The rows of the first room alone. -/
def ownRows : RoomRows :=
  { gatheringRows with
    talkSessions := gatheringRows.talkSessions.take 1
    submissions := gatheringRows.submissions.take 1
    sourceRevisions := gatheringRows.sourceRevisions.take 1
    sourceAnchors := gatheringRows.sourceAnchors.take 1 }

/-- An anchor of the other room is as unavailable as one that is not there. -/
theorem rooms_isolated_missing :
    (RoomRead.resolveSourceAnchorForMember 51).outcome readSections gatheringRows 1 =
      (RoomRead.resolveSourceAnchorForMember 51).outcome readSections ownRows 1 := by
  have hlists : ∀ d : RoomRows, d.generationRuns = [] → d.ListsOwnAnchors readSections := by
    intro d hnone p _ run hrun
    rw [hnone] at hrun
    exact nomatch hrun
  have hschema : gatheringRows.Schema :=
    ⟨List.nodup_nil, (listingRows_schema "x").revisionIds, (listingRows_schema "x").submissionIds,
      (listingRows_schema "x").pinned⟩
  have hown : ownRows.Schema := by
    refine ⟨List.nodup_nil, List.nodup_singleton 40, List.nodup_singleton 30, fun pin hpin p hp _ ↦ ?_⟩
    cases List.mem_singleton.mp hpin
    cases List.mem_singleton.mp hp
    exact ⟨⟨40, 30, none⟩, List.mem_cons_self, rfl, ⟨30, 20, "ours"⟩, List.mem_cons_self, rfl, rfl⟩
  exact rooms_isolated hschema hown (hlists gatheringRows rfl) (hlists ownRows rfl) rfl _

end MeetingRag
