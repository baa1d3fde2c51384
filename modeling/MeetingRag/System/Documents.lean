import MeetingRag.System.Wellformed

/-!
# The documents of the runs

A generated document belongs to the run that made it. In every reachable state the runs that have
succeeded and the documents correspond one to one, and a document has the kind of its run: a
completion writes both in one transaction, and nothing ever takes a succeeded run back.
-/

open Outcome Table Text

namespace MeetingRag

/-- The documents are those of the succeeded runs. -/
structure Documented (db : Database) : Prop where
  runIds : (db.other.generationRuns.map (·.id)).Nodup
  documentRuns : (db.other.generatedDocuments.map (·.runId)).Nodup
  succeeded : ∀ d ∈ db.other.generatedDocuments, ∃ r ∈ db.other.generationRuns,
    r.id = d.runId ∧ r.state = .succeeded ∧ r.kind = d.kind
  present : ∀ r ∈ db.other.generationRuns, r.state = .succeeded →
    ∃ d ∈ db.other.generatedDocuments, d.runId = r.id

theorem documented_empty : Documented (emptyStore emptyTables) where
  runIds := List.nodup_nil
  documentRuns := List.nodup_nil
  succeeded := List.forall_mem_nil _
  present := List.forall_mem_nil _

section Steps

variable {db db' : Database}

theorem Documented.congr (h : Documented db)
    (hruns : db'.other.generationRuns = db.other.generationRuns)
    (hdocuments : db'.other.generatedDocuments = db.other.generatedDocuments) : Documented db' := by
  refine ⟨?_, ?_, ?_, ?_⟩
  · rw [hruns]
    exact h.runIds
  · rw [hdocuments]
    exact h.documentRuns
  · rw [hruns, hdocuments]
    exact h.succeeded
  · rw [hruns, hdocuments]
    exact h.present

/-- An update of runs that are not succeeded and do not become so. -/
theorem Documented.update (h : Documented db) {q : GenerationRun → Prop} [DecidablePred q]
    {f : GenerationRun → GenerationRun} (hid : ∀ r, (f r).id = r.id)
    (hbefore : ∀ r, q r → r.state ≠ .succeeded) (hafter : ∀ r, (f r).state ≠ .succeeded)
    (hruns : db'.other.generationRuns = updateWhere q f db.other.generationRuns)
    (hdocuments : db'.other.generatedDocuments = db.other.generatedDocuments) : Documented db' := by
  refine ⟨?_, ?_, fun d hd ↦ ?_, fun r hr hstate ↦ ?_⟩
  · rw [hruns, map_updateWhere_of_forall hid]
    exact h.runIds
  · rw [hdocuments]
    exact h.documentRuns
  · rw [hdocuments] at hd
    obtain ⟨r, hr, hrun, hstate, hkind⟩ := h.succeeded d hd
    rw [hruns]
    exact ⟨r, mem_updateWhere_of_not hr fun hq ↦ hbefore r hq hstate, hrun, hstate, hkind⟩
  · rw [hruns] at hr
    rw [hdocuments]
    rcases mem_updateWhere.mp hr with ⟨r₀, -, -, rfl⟩ | ⟨hr, -⟩
    · exact absurd hstate (hafter r₀)
    · exact h.present r hr hstate

/-- The runs of one lane of a snapshot are one run. -/
theorem Lanes.run_unique {runs : List GenerationRun} {p : GenerationSnapshot} (h : Lanes runs p)
    {r r' : GenerationRun} (hr : r ∈ runs) (hr' : r' ∈ runs) (hp : r.snapshotId = p.id)
    (hp' : r'.snapshotId = p.id) (hkind : r.kind = r'.kind) : r = r' := by
  obtain ⟨summary, rest, hruns, hsummary, hrest⟩ := List.map_eq_cons_iff.mp h
  obtain ⟨research, none, rfl, hresearch, hnil⟩ := List.map_eq_cons_iff.mp hrest
  rw [List.map_eq_nil_iff.mp hnil] at hruns
  have hne : summary.kind ≠ research.kind := by
    rw [show summary.kind = .summary from congrArg Prod.fst hsummary,
      show research.kind = .research from congrArg Prod.fst hresearch]
    decide
  have hmem : ∀ x ∈ runs, x.snapshotId = p.id → x = summary ∨ x = research := by
    intro x hx hxp
    have hfilter : x ∈ runs.filter (·.snapshotId = p.id) :=
      List.mem_filter.mpr ⟨hx, decide_eq_true hxp⟩
    rw [hruns] at hfilter
    exact List.mem_pair.mp hfilter
  rcases hmem r hr hp with rfl | rfl <;> rcases hmem r' hr' hp' with rfl | rfl
  · rfl
  · exact absurd hkind hne
  · exact absurd hkind.symm hne
  · rfl

/-- A success adds the document of its run. -/
theorem Documented.success (h : Documented db) {p : GenerationSnapshot} {kind : GenerationKind}
    {pipelineVersion : String} {f : GenerationRun → GenerationRun} {run : GenerationRun}
    {document : GeneratedDocument} (hlanes : Lanes db.other.generationRuns p)
    (hf : RunOutcome .succeeded f) (hmem : run ∈ db.other.generationRuns)
    (hwritable : WritableRun p.id kind pipelineVersion run) (hrun : document.runId = run.id)
    (hkind : document.kind = kind)
    (hfresh : ∀ d ∈ db.other.generatedDocuments, ¬documentsClash d document)
    (hruns : db'.other.generationRuns =
      writtenRuns p.id kind pipelineVersion f db.other.generationRuns)
    (hdocuments : db'.other.generatedDocuments = db.other.generatedDocuments ++ [document]) :
    Documented db' := by
  refine ⟨?_, ?_, fun d hd ↦ ?_, fun r hr hstate ↦ ?_⟩
  · rw [hruns, writtenRuns, map_updateWhere_of_forall hf.id]
    exact h.runIds
  · rw [hdocuments]
    exact nodup_map_append_singleton h.documentRuns fun d hd heq ↦ hfresh d hd (Or.inr heq)
  · rw [hruns]
    rw [hdocuments] at hd
    rcases List.mem_append.mp hd with hd | hd
    · obtain ⟨r, hr, hid, hstate, hdkind⟩ := h.succeeded d hd
      refine ⟨r, mem_updateWhere_of_not hr fun hw ↦ ?_, hid, hstate, hdkind⟩
      have hopen := hw.2.2.2
      rw [hstate] at hopen
      exact absurd hopen (by decide)
    · rw [List.mem_singleton.mp hd]
      exact ⟨f run, mem_updateWhere_of_mem hmem hwritable, (hf.id run).trans hrun.symm,
        hf.state_eq run, (hf.kind run).trans (hwritable.2.1.trans hkind.symm)⟩
  · rw [hruns] at hr
    rw [hdocuments]
    rcases mem_updateWhere.mp hr with ⟨r₀, hr₀, hw, rfl⟩ | ⟨hr, -⟩
    · -- the lane has one run, and its document is the new one
      have hsame : r₀ = run := hlanes.run_unique hr₀ hmem hw.1 hwritable.1
        (hw.2.1.trans hwritable.2.1.symm)
      exact ⟨document, List.mem_append_right _ (List.mem_singleton_self _), by
        rw [hrun, hf.id, hsame]⟩
    · obtain ⟨d, hd, hid⟩ := h.present r hr hstate
      exact ⟨d, List.mem_append_left _ hd, hid⟩

/-- The runs of a close are new, and queued. -/
theorem Documented.closed (h : Documented db) {session : TalkSession} {request : CloseRequest}
    {draws : CloseDraws} {included : List CurrentRevision} {schema : String} {createdAt : Timestamp}
    (hc : Closed session request draws included schema createdAt db db') : Documented db' := by
  have hfree := hc.free.runs
  have hresult := hc.result
  set snapshot := closeSnapshot session request draws schema
  set rows := laneRuns draws snapshot canonicalGenerationKinds with hrows
  have hruns : db'.other.generationRuns = db.other.generationRuns ++ rows := by
    rw [hresult]
    rfl
  have hdocuments : db'.other.generatedDocuments = db.other.generatedDocuments := by
    rw [hresult]
    rfl
  have hqueued : ∀ r ∈ rows, r.state ≠ .succeeded := by
    intro r hr
    obtain ⟨kind, -, rfl⟩ := List.mem_map.mp hr
    exact fun heq ↦ nomatch heq
  have hnodup : (rows.map (·.id)).Nodup :=
    List.pairwise_map.mpr (hfree.2.imp fun hne heq ↦ hne (Or.inl heq))
  refine ⟨?_, ?_, fun d hd ↦ ?_, fun r hr hstate ↦ ?_⟩
  · rw [hruns, List.map_append]
    refine h.runIds.append hnodup fun id hid hid' ↦ ?_
    obtain ⟨r, hr, rfl⟩ := List.mem_map.mp hid
    obtain ⟨r', hr', heq⟩ := List.mem_map.mp hid'
    exact hfree.1 r hr r' hr' (Or.inl heq.symm)
  · rw [hdocuments]
    exact h.documentRuns
  · rw [hdocuments] at hd
    obtain ⟨r, hr, hrun⟩ := h.succeeded d hd
    rw [hruns]
    exact ⟨r, List.mem_append_left _ hr, hrun⟩
  · rw [hruns] at hr
    rw [hdocuments]
    rcases List.mem_append.mp hr with hr | hr
    · exact h.present r hr hstate
    · exact absurd hstate (hqueued r hr)

theorem Documented.laneCompleted (h : Documented db) (hw : Wellformed db)
    {claimed : ClaimedJob JobDocument} {e : GenerationExecution} {snapshot : GenerationSnapshot}
    {session : TalkSession} {aggregate : GenerationAggregate} {clock : StatementClock}
    (hl : LaneCompleted claimed e snapshot session aggregate clock db db') : Documented db' := by
  obtain ⟨f, hf, hruns⟩ := hl.runs
  have hwritten := hl.documents
  have hid := hl.snapshot_id
  generalize e.runState = state at hf hwritten
  cases hwritten with
  | success run document mem writable runId same fresh added =>
    rw [← hid] at hruns writable
    exact h.success (hw.lanes snapshot hl.snapshot_mem) hf mem writable runId same fresh hruns added
  | failure failed kept =>
    refine h.update hf.id (fun r hr hstate ↦ ?_) (fun r ↦ hf.state_eq r ▸ failed) hruns kept
    have hopen := hr.2.2.2
    rw [hstate] at hopen
    exact absurd hopen (by decide)

/-- **The step lemma.** -/
theorem Documented.step (h : Documented db) (hw : Wellformed db) {clock : StatementClock}
    {call : SystemCall} (hstep : SystemStep clock call db db') : Documented db' := by
  cases hstep with
  | background hb => exact h.congr hb.writes.same.generationRuns hb.writes.same.generatedDocuments
  | created session actorId roomId topic hcall hc =>
    obtain ⟨-, -, -, activity, e, rfl, -⟩ := hc
    exact h.congr rfl rfl
  | closed session request draws included schema hcall hc => exact h.closed hc
  | reopened session actorId hcall hr =>
    have hresult := hr.result
    exact h.congr (by rw [hresult]; rfl) (by rw [hresult]; rfl)
  | retried session snapshot actorId hcall hr =>
    have hresult := hr.result
    refine h.update (q := RetryableRuns snapshot.id (retryableKinds (runsOf db snapshot.id)))
      (f := requeuedRun) (fun _ ↦ rfl) ?_ (fun _ heq ↦ nomatch heq) (by rw [hresult]; rfl)
      (by rw [hresult]; rfl)
    rintro r ⟨kind, -, -, -, hstate⟩ hsucceeded
    exact nomatch hstate.symm.trans hsucceeded
  | laneCompleted claimed outcome resultId reportJobId e snapshot session aggregate hcall hexec hl =>
    exact h.laneCompleted hw hl
  | comparisonFailed claimed outcome resultId snapshotId hcall hterminal hc =>
    exact h.congr hc.runs hc.documents

end Steps

/-- In every reachable state the documents are those of the succeeded runs. -/
theorem reachable_documented {now : Timestamp} {s : SystemState}
    (h : systemMachine.Reachable (emptySystem now) s) : Documented s.db :=
  (h.invariant (P := fun s ↦ s.Sound ∧ Documented s.db) ⟨sound_empty now, documented_empty⟩
    fun _ i ⟨hs, hd⟩ _ ↦ ⟨hs.step i, hd.step hs.db (systemMachine_step hs i)⟩).2

/-! ## The documents of a snapshot -/

section Snapshot

variable {db : Database} {p : GenerationSnapshot}

/-- The run of a lane and its state. -/
theorem Lanes.exists_run (h : Lanes db.other.generationRuns p) (kind : GenerationKind) :
    ∃ r ∈ db.other.generationRuns, r.snapshotId = p.id ∧ r.kind = kind ∧
      r.pipelineVersion = p.pipelineVersion ∧ r.state = laneState db p.id kind := by
  obtain ⟨summary, research, hpair, hsummary, hresearch⟩ := h.exists_pair
  obtain ⟨hs, hr⟩ := laneState_pair hpair (congrArg Prod.fst hsummary) (congrArg Prod.fst hresearch)
  have hmem : ∀ x ∈ [summary, research], x ∈ db.other.generationRuns ∧ x.snapshotId = p.id := by
    intro x hx
    rw [← hpair] at hx
    obtain ⟨hx, hid⟩ := List.mem_filter.mp hx
    exact ⟨hx, of_decide_eq_true hid⟩
  cases kind with
  | summary =>
    obtain ⟨hmem, hid⟩ := hmem summary (by simp)
    exact ⟨summary, hmem, hid, congrArg Prod.fst hsummary, congrArg Prod.snd hsummary, hs.symm⟩
  | research =>
    obtain ⟨hmem, hid⟩ := hmem research (by simp)
    exact ⟨research, hmem, hid, congrArg Prod.fst hresearch, congrArg Prod.snd hresearch, hr.symm⟩

end Snapshot

end MeetingRag
