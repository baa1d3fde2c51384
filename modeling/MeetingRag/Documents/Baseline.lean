import MeetingRag.Documents.RoundTrip
import MeetingRag.System.Documents

/-!
# The baseline of a read

Where a document has no row yet, a read reports the snapshot of the latest report and derives its
blocks from the summary of the current generation. The two are found by two queries. They name the
same snapshot except between the second close of a session and the end of both its lanes: once the
new summary is there and the new research is not, the report is still that of the generation before.
-/

open Outcome Table Text

namespace MeetingRag

/-! ## What the two queries find -/

section Queries

variable {db : Database} {p : GenerationSnapshot}

/-- A succeeded run has one document, of its own kind. -/
theorem Documented.document_of_run (h : Documented db) {r : GenerationRun}
    (hr : r ∈ db.other.generationRuns) (hstate : r.state = .succeeded) :
    ∃ d ∈ db.other.generatedDocuments, d.runId = r.id ∧ d.kind = r.kind ∧
      db.other.generatedDocuments.filter (·.runId = r.id) = [d] := by
  obtain ⟨d, hd, hrun⟩ := h.present r hr hstate
  obtain ⟨r', hr', hid, -, hkind⟩ := h.succeeded d hd
  obtain rfl : r' = r := eq_of_key_eq h.runIds hr' hr (hid.trans hrun)
  have hfilter := filter_key_eq_singleton h.documentRuns hd
  rw [hrun] at hfilter
  exact ⟨d, hd, hrun, hkind.symm, hfilter⟩

/-- The documents of a list of succeeded runs have their kinds. -/
theorem Documented.kinds_of_runs (h : Documented db) {runs : List GenerationRun}
    (hruns : ∀ r ∈ runs, r ∈ db.other.generationRuns ∧ r.state = .succeeded) :
    (runs.flatMap fun run ↦ db.other.generatedDocuments.filter (·.runId = run.id)).map (·.kind) =
      runs.map (·.kind) := by
  induction runs with
  | nil => rfl
  | cons r runs ih =>
    obtain ⟨hr, hstate⟩ := hruns r List.mem_cons_self
    obtain ⟨d, -, -, hkind, hfilter⟩ := h.document_of_run hr hstate
    rw [List.flatMap_cons, List.map_append, hfilter, List.map_singleton, hkind, List.map_cons,
      ih fun x hx ↦ hruns x (List.mem_cons_of_mem r hx)]
    rfl

/-- **A snapshot has its report** exactly when both its lanes have succeeded. -/
theorem hasReport_iff (hlanes : Lanes db.other.generationRuns p) (h : Documented db) :
    HasReport db p ↔
      laneState db p.id .summary = .succeeded ∧ laneState db p.id .research = .succeeded := by
  obtain ⟨summary, research, hpair, hsummary, hresearch⟩ := hlanes.exists_pair
  have hskind : summary.kind = .summary := congrArg Prod.fst hsummary
  have hrkind : research.kind = .research := congrArg Prod.fst hresearch
  obtain ⟨hs, hr⟩ := laneState_pair hpair hskind hrkind
  have hspipe : summary.pipelineVersion = p.pipelineVersion := congrArg Prod.snd hsummary
  have hrpipe : research.pipelineVersion = p.pipelineVersion := congrArg Prod.snd hresearch
  -- the runs that the query groups
  have hruns : db.other.generationRuns.filter (fun run ↦ run.snapshotId = p.id ∧
      run.state = .succeeded ∧ run.pipelineVersion = p.pipelineVersion) =
        [summary, research].filter (·.state = .succeeded) := by
    rw [← hpair, runsOf, List.filter_filter]
    refine List.filter_congr fun r hr ↦ ?_
    have hpipe : r.snapshotId = p.id → r.pipelineVersion = p.pipelineVersion := by
      intro hid
      have hmem : r ∈ runsOf db p.id := List.mem_filter.mpr ⟨hr, decide_eq_true hid⟩
      rw [hpair] at hmem
      rcases List.mem_pair.mp hmem with rfl | rfl
      · exact hspipe
      · exact hrpipe
    rw [← Bool.decide_and, decide_eq_decide]
    constructor
    · rintro ⟨hid, hstate, -⟩
      exact ⟨hstate, hid⟩
    · rintro ⟨hstate, hid⟩
      exact ⟨hid, hstate, hpipe hid⟩
  have hkinds : (reportDocuments db p).map (·.kind) =
      ([summary, research].filter (·.state = .succeeded)).map (·.kind) := by
    rw [reportDocuments, hruns]
    refine h.kinds_of_runs fun r hr ↦ ?_
    obtain ⟨hr, hstate⟩ := List.mem_filter.mp hr
    rw [← hpair] at hr
    exact ⟨(List.mem_filter.mp hr).1, of_decide_eq_true hstate⟩
  have hlength : (reportDocuments db p).length =
      ([summary, research].filter (·.state = .succeeded)).length := by
    rw [← List.length_map (·.kind), hkinds, List.length_map]
  rw [HasReport, hlength, hkinds, hs, hr]
  by_cases h₁ : summary.state = .succeeded <;> by_cases h₂ : research.state = .succeeded <;>
    simp [h₁, h₂, hskind, hrkind]

theorem mem_memberDocuments {sessionId actorId : UUID} {kind : GenerationKind}
    {document : MemberGenerationDocument} :
    document ∈ memberDocuments db sessionId actorId kind ↔
      ∃ s ∈ db.other.talkSessions, (s.id = sessionId ∧ ActiveMember db s.roomId actorId) ∧
        ∃ p ∈ db.other.generationSnapshots,
          (p.sessionId = s.id ∧ p.generationEpoch = s.generationEpoch) ∧
          ∃ r ∈ db.other.generationRuns,
            (r.snapshotId = p.id ∧ r.kind = kind ∧ r.state = .succeeded) ∧
            ∃ d ∈ db.other.generatedDocuments, d.runId = r.id ∧
              document = ⟨s.id, p.id, d.id, d.kind, d.structuredContent⟩ := by
  simp only [memberDocuments, List.mem_flatMap, List.mem_map, List.mem_filter, decide_eq_true_eq,
    and_assoc, eq_comm (b := document)]

/-- The document that a member is given is one of those the query finds. -/
theorem memberDocument_mem {sessionId actorId : UUID} {kind : GenerationKind}
    {document : MemberGenerationDocument}
    (h : memberDocument db sessionId actorId kind = .ok document) :
    document ∈ memberDocuments db sessionId actorId kind := by
  rw [memberDocument] at h
  split at h
  · next d hd =>
    cases h
    exact List.mem_of_head? hd
  · exact nomatch h

/-- A member is given a document if there is one. -/
theorem exists_memberDocument {sessionId actorId : UUID} {kind : GenerationKind}
    {document : MemberGenerationDocument}
    (h : document ∈ memberDocuments db sessionId actorId kind) :
    ∃ document', memberDocument db sessionId actorId kind = .ok document' := by
  rw [memberDocument]
  cases hhead : (memberDocuments db sessionId actorId kind).head? with
  | some d => exact ⟨d, rfl⟩
  | none => exact absurd (List.head?_eq_none_iff.mp hhead ▸ h) List.not_mem_nil

end Queries

/-! ## Consistency -/

/-- A stored summary of a snapshot, as a member reads it. -/
def StoredSummary (db : Database) (sessionId snapshotId : UUID)
    (document : MemberGenerationDocument) : Prop :=
  ∃ r ∈ db.other.generationRuns, r.snapshotId = snapshotId ∧ r.kind = .summary ∧
    r.state = .succeeded ∧ ∃ d ∈ db.other.generatedDocuments, d.runId = r.id ∧
      document = ⟨sessionId, snapshotId, d.id, d.kind, d.structuredContent⟩

/-- The blocks drawn from a summary. -/
def Baseline (reads : MergedDocumentReads) (document : MemberGenerationDocument)
    (blocks : List MergedDocumentBlock) : Prop :=
  ∃ sections, reads.sections document = .ok sections ∧
    baselineBlocks sections (reads.anchorTitles (anchorIdsIn sections)) = .ok blocks

/-- Every read without a row is the baseline of a summary of the snapshot it reports. -/
def BaselineConsistent (db : Database) : Prop :=
  ∀ reads sessionId actorId view, getMergedDocument reads sessionId actorId db = .ok view →
    documentRow db sessionId view.snapshotId = none →
      ∃ document, StoredSummary db sessionId view.snapshotId document ∧
        Baseline reads document view.blocks

/-- Both lanes of a snapshot have succeeded. -/
def Reported (db : Database) (p : GenerationSnapshot) : Prop :=
  laneState db p.id .summary = .succeeded ∧ laneState db p.id .research = .succeeded

instance (db : Database) : DecidablePred (Reported db) := fun p ↦ inferInstanceAs (Decidable
  (laneState db p.id .summary = .succeeded ∧ laneState db p.id .research = .succeeded))

/-- The summary of the current snapshot `p` of a session is there before its research, while the
latest report is that of an earlier snapshot `q`, of which nothing has been saved. -/
structure OvertakenBy (db : Database) (s : TalkSession) (p q : GenerationSnapshot) : Prop where
  members : ∃ m ∈ db.other.sources.roomMemberships, m.roomId = s.roomId ∧ m.left = false
  current : p.sessionId = s.id ∧ p.generationEpoch = s.generationEpoch
  summary : laneState db p.id .summary = .succeeded
  research : laneState db p.id .research ≠ .succeeded
  earlier : q.sessionId = s.id
  reported : Reported db q
  latest : ∀ x ∈ db.other.generationSnapshots, x.sessionId = s.id → Reported db x →
    x.generationEpoch ≤ q.generationEpoch
  unsaved : documentRow db s.id q.id = none

def Overtaken (db : Database) : Prop :=
  ∃ s ∈ db.other.talkSessions, ∃ p ∈ db.other.generationSnapshots,
    ∃ q ∈ db.other.generationSnapshots, OvertakenBy db s p q

section Consistency

variable {db : Database}

/-- What a read without a row has gone through. -/
theorem getMergedDocument_baseline {reads : MergedDocumentReads} {sessionId actorId : UUID}
    {view : MergedDocumentView} (h : getMergedDocument reads sessionId actorId db = .ok view)
    (hnone : documentRow db sessionId view.snapshotId = none) :
    loadReportIdentity db sessionId = some ⟨view.snapshotId⟩ ∧
      ∃ document, memberDocument db sessionId actorId .summary = .ok document ∧
        Baseline reads document view.blocks := by
  obtain ⟨_, -, h⟩ := bind_eq_ok.mp h
  obtain ⟨⟨snapshotId⟩, hreport, h⟩ := bind_eq_ok.mp h
  have hid : view.snapshotId = snapshotId := by
    split at h
    all_goals
      obtain ⟨_, -, h⟩ := bind_eq_ok.mp h
      rw [← Except.ok.inj h]
  subst hid
  dsimp only at h
  rw [hnone] at h
  obtain ⟨blocks, hread, h⟩ := bind_eq_ok.mp h
  obtain ⟨document, hdocument, hread⟩ := bind_eq_ok.mp hread
  obtain ⟨sections, hsections, hread⟩ := bind_eq_ok.mp hread
  rw [← Except.ok.inj h]
  exact ⟨requireReport_eq_ok.mp hreport, document, hdocument, sections, hsections, hread⟩

/-- The report of a session is that of its latest reported snapshot. -/
theorem loadReportIdentity_eq_some (hw : Wellformed db) (hd : Documented db) {sessionId id : UUID} :
    loadReportIdentity db sessionId = some ⟨id⟩ ↔
      ∃ q ∈ db.other.generationSnapshots, q.id = id ∧ q.sessionId = sessionId ∧ Reported db q ∧
        ∀ x ∈ db.other.generationSnapshots, x.sessionId = sessionId → Reported db x →
          x.generationEpoch ≤ q.generationEpoch := by
  have hreported : ∀ x ∈ db.other.generationSnapshots, HasReport db x ↔ Reported db x :=
    fun x hx ↦ hasReport_iff (hw.lanes x hx) hd
  rw [loadReportIdentity, Option.map_eq_some_iff]
  constructor
  · rintro ⟨q, hq, hid⟩
    obtain ⟨hmem, hq'⟩ := selectLast_mem hq
    obtain ⟨hsession, hhas⟩ := of_decide_eq_true hq'
    refine ⟨q, hmem, congrArg IntegratedReportIdentity.snapshotId hid, hsession,
      (hreported q hmem).mp hhas, fun x hx hxs hxr ↦ ?_⟩
    exact selectLast_ge hq hx (decide_eq_true ⟨hxs, (hreported x hx).mpr hxr⟩)
  · rintro ⟨q, hq, rfl, hsession, hrep, hlatest⟩
    obtain ⟨q', hq'⟩ : ∃ q', selectLast GenerationSnapshot.generationEpoch
        (fun p ↦ decide (p.sessionId = sessionId ∧ HasReport db p)) db.other.generationSnapshots =
          some q' :=
      selectLast_isSome hq (decide_eq_true ⟨hsession, (hreported q hq).mpr hrep⟩)
    obtain ⟨hmem, hsel⟩ := selectLast_mem hq'
    obtain ⟨hsession', hhas⟩ := of_decide_eq_true hsel
    have hle : q'.generationEpoch ≤ q.generationEpoch :=
      hlatest q' hmem hsession' ((hreported q' hmem).mp hhas)
    have hge : q.generationEpoch ≤ q'.generationEpoch :=
      selectLast_ge hq' hq (decide_eq_true ⟨hsession, (hreported q hq).mpr hrep⟩)
    have hsame : q' = q := hw.epochs q' hmem q hq (hsession'.trans hsession.symm) (hle.antisymm hge)
    exact ⟨q', hq', by rw [hsame]⟩

/-- The summary of the current snapshot that a member is given. -/
theorem memberDocument_current (hw : Wellformed db) {sessionId actorId : UUID}
    {document : MemberGenerationDocument}
    (h : memberDocument db sessionId actorId .summary = .ok document) :
    ∃ s ∈ db.other.talkSessions, s.id = sessionId ∧ ActiveMember db s.roomId actorId ∧
      ∃ p ∈ db.other.generationSnapshots, p.sessionId = s.id ∧
        p.generationEpoch = s.generationEpoch ∧ laneState db p.id .summary = .succeeded ∧
        StoredSummary db sessionId p.id document := by
  obtain ⟨s, hs, ⟨hsid, hmember⟩, p, hp, ⟨hps, hepoch⟩, r, hr, ⟨hrp, hkind, hstate⟩, d, hd, hrun,
    hdocument⟩ := mem_memberDocuments.mp (memberDocument_mem h)
  obtain ⟨r', hr', hrp', hkind', -, hlane⟩ := (hw.lanes p hp).exists_run .summary
  have hsame : r' = r := (hw.lanes p hp).run_unique hr' hr hrp' hrp (hkind'.trans hkind.symm)
  rw [hsame, hstate] at hlane
  rw [hsid] at hdocument
  exact ⟨s, hs, hsid, hmember, p, hp, hps, hepoch, hlane.symm, r, hr, hrp, hkind, hstate, d, hd,
    hrun, hdocument⟩

/-- The summary of a succeeded lane of the current snapshot is there for a member. -/
theorem exists_currentSummary (hw : Wellformed db) (hd : Documented db) {s : TalkSession}
    {p : GenerationSnapshot} {actorId : UUID} (hs : s ∈ db.other.talkSessions)
    (hp : p ∈ db.other.generationSnapshots) (hmember : ActiveMember db s.roomId actorId)
    (hcurrent : p.sessionId = s.id ∧ p.generationEpoch = s.generationEpoch)
    (hsummary : laneState db p.id .summary = .succeeded) :
    ∃ document, memberDocument db s.id actorId .summary = .ok document ∧
      document.snapshotId = p.id := by
  obtain ⟨r, hr, hrp, hkind, -, hlane⟩ := (hw.lanes p hp).exists_run .summary
  have hstate : r.state = .succeeded := hlane.trans hsummary
  obtain ⟨d, hdmem, hrun, -⟩ := hd.document_of_run hr hstate
  obtain ⟨document, hdocument⟩ := exists_memberDocument (mem_memberDocuments.mpr
    ⟨s, hs, ⟨rfl, hmember⟩, p, hp, hcurrent, r, hr, ⟨hrp, hkind, hstate⟩, d, hdmem, hrun, rfl⟩)
  refine ⟨document, hdocument, ?_⟩
  -- whichever row comes first, it is of the current snapshot
  obtain ⟨s', hs', hsid, -, p', hp', hps', hepoch', -, hstored⟩ := memberDocument_current hw hdocument
  obtain rfl : s' = s := eq_of_key_eq hw.sessions hs' hs hsid
  obtain rfl : p' = p := hw.epochs p' hp' p hp (hps'.trans hcurrent.1.symm)
    (hepoch'.trans hcurrent.2.symm)
  obtain ⟨_, -, -, -, -, _, -, -, rfl⟩ := hstored
  rfl

/-- The tables of segments and citations where one summary has one item, and no other has any. -/
def readsOnly (snapshotId : UUID) : MergedDocumentReads where
  sections document :=
    if document.snapshotId = snapshotId then .ok [⟨"", [⟨"item", []⟩]⟩]
    else .error (.generationRepository "summary document sections are invalid")
  anchorTitles _ := []
  snapshotDocuments _ := []

/-- **Consistency** fails exactly where a session is overtaken. -/
theorem baselineConsistent_iff (hw : Wellformed db) (hd : Documented db) :
    BaselineConsistent db ↔ ¬Overtaken db := by
  constructor
  · rintro hconsistent ⟨s, hs, p, hp, q, hq, hover⟩
    obtain ⟨m, hm, hroom, hleft⟩ := hover.members
    have hmember : ActiveMember db s.roomId m.userId := ⟨m, hm, hroom, rfl, hleft⟩
    obtain ⟨document, hdocument, hid⟩ :=
      exists_currentSummary hw hd hs hp hmember hover.current hover.summary
    have hreport : loadReportIdentity db s.id = some ⟨q.id⟩ :=
      (loadReportIdentity_eq_some hw hd).mpr
        ⟨q, hq, rfl, hover.earlier, hover.reported, hover.latest⟩
    have hsession : ∃ roomId, requireDocumentMember db s.id m.userId = .ok roomId := by
      rw [requireDocumentMember]
      split
      · exact ⟨_, rfl⟩
      · next hnone =>
        exact absurd (decide_eq_true ⟨rfl, hmember⟩) (List.find?_eq_none.mp hnone s hs)
    obtain ⟨roomId, hsession⟩ := hsession
    have hget : getMergedDocument (readsOnly p.id) s.id m.userId db =
        .ok ⟨s.id, q.id, 0, [.paragraph "b-p-0-0" "item" none]⟩ := by
      rw [getMergedDocument, hsession, ok_bind, requireReport_eq_ok.mpr hreport, ok_bind]
      dsimp only
      rw [hover.unsaved]
      dsimp only
      rw [readBaseline, hdocument, ok_bind, readsOnly]
      dsimp only
      rw [if_pos hid]
      rfl
    obtain ⟨other, hstored, sections, hsections, -⟩ := hconsistent _ _ _ _ hget hover.unsaved
    obtain ⟨_, -, -, -, -, _, -, -, rfl⟩ := hstored
    by_cases hpq : q.id = p.id
    · obtain rfl : q = p := eq_of_key_eq hw.snapshots hq hp hpq
      exact hover.research hover.reported.2
    · rw [readsOnly] at hsections
      dsimp only at hsections
      rw [if_neg hpq] at hsections
      cases hsections
  · intro hnot reads sessionId actorId view hget hnone
    obtain ⟨hreport, document, hdocument, hbaseline⟩ := getMergedDocument_baseline hget hnone
    obtain ⟨s, hs, hsid, ⟨m, hm, hroom, -, hleft⟩, p, hp, hps, hepoch, hsummary, hstored⟩ :=
      memberDocument_current hw hdocument
    obtain ⟨q, hq, hqid, hqs, hrep, hlatest⟩ := (loadReportIdentity_eq_some hw hd).mp hreport
    suffices hpq : p = q by
      rw [← hqid, ← hpq]
      exact ⟨document, hstored, hbaseline⟩
    by_cases hresearch : laneState db p.id .research = .succeeded
    · -- the current snapshot has its report, and no snapshot is later
      have hge : p.generationEpoch ≤ q.generationEpoch :=
        hlatest p hp (hps.trans hsid) ⟨hsummary, hresearch⟩
      obtain ⟨s', hs', hsid', hle⟩ := hw.epoch q hq
      obtain rfl : s' = s := eq_of_key_eq hw.sessions hs' hs (hsid'.trans (hqs.trans hsid.symm))
      exact hw.epochs p hp q hq (hps.trans (hsid.trans hqs.symm)) (hge.antisymm (hepoch ▸ hle))
    · refine absurd ⟨s, hs, p, hp, q, hq, ⟨m, hm, hroom, hleft⟩, ⟨hps, hepoch⟩, hsummary, hresearch,
        hqs.trans hsid.symm, hrep, ?_, ?_⟩ hnot
      · rw [hsid]
        exact hlatest
      · rw [hsid, hqid]
        exact hnone

end Consistency

/-! ## A second generation -/

/-- The session is reopened and closed again, and its new summary comes first. -/
def secondSummary : List SystemInput :=
  comparisonPending ++
    [ callAt 10 (.reopen 3 1),
      callAt 11 (closeCall 200),
      callAt 12 (claimCall "summary" 91),
      callAt 13 (.completeLane (laneLease 200 .summary 1 91) (resultFor 63) 93 94) ]

/-- Summaries that name their snapshots. -/
def namedSummaries : MergedDocumentReads where
  sections document := .ok [⟨"", [⟨document.snapshotId.str, []⟩]⟩]
  anchorTitles _ := []
  snapshotDocuments _ := []

/-- **Consistency of the baseline.** In every reachable state, every read without a saved row is
built from the summary of the snapshot it reports exactly when no session is overtaken: none whose
new summary is there before its research, while the report before has no saved row. -/
theorem reads_are_consistent (now : Timestamp) (is : List SystemInput)
    (h : systemMachine.Legal (emptySystem now) is) :
    BaselineConsistent (systemMachine.exec (emptySystem now) is).db ↔
      ¬Overtaken (systemMachine.exec (emptySystem now) is).db := by
  have hreach : systemMachine.Reachable (emptySystem now) (systemMachine.exec (emptySystem now) is) :=
    ⟨is, h, rfl⟩
  exact baselineConsistent_iff (reachable_sound hreach).db (reachable_documented hreach)

/-- After the second summary, a read shows its content under the id of the first snapshot. -/
theorem second_summary_is_reported_as_first :
    ¬∀ now is, systemMachine.Legal (emptySystem now) is →
      BaselineConsistent (systemMachine.exec (emptySystem now) is).db := by
  intro h
  have hconsistent := h 0 secondSummary (by decide +kernel) namedSummaries 3 1
    ⟨3, 100, 0, [.paragraph "b-p-0-0" (UUID.str 200) none]⟩ (by decide +kernel) (by decide +kernel)
  obtain ⟨document, ⟨_, -, -, -, -, _, -, -, rfl⟩, sections, hsections, hblocks⟩ := hconsistent
  rw [← Except.ok.inj hsections] at hblocks
  dsimp only at hblocks
  exact absurd hblocks (by decide +kernel)

theorem reads_are_consistent_comparisonPending :
    BaselineConsistent (systemMachine.exec (emptySystem 0) comparisonPending).db ↔
      ¬Overtaken (systemMachine.exec (emptySystem 0) comparisonPending).db :=
  reads_are_consistent 0 comparisonPending (by decide +kernel)

end MeetingRag
