import MeetingRag.Generation.Repository

/-!
# The two lanes of a snapshot

A snapshot that has one summary run and one research run is projected from two run states and
nothing else. `laneState` reads one of them, `projectRuns_eq` says what the projection makes of the
two, and `laneState_written` what writing the outcome of one lane does to them.
-/

open Outcome Table Text

namespace MeetingRag

/-- The lane a run belongs to. -/
def laneOf (r : GenerationRun) : GenerationKind × String := (r.kind, r.pipelineVersion)

/-- A snapshot has one summary run and one research run of its pipeline. -/
def Lanes (runs : List GenerationRun) (p : GenerationSnapshot) : Prop :=
  (runs.filter (·.snapshotId = p.id)).map laneOf =
    [(.summary, p.pipelineVersion), (.research, p.pipelineVersion)]

/-- The error code of a run can be projected. -/
def Coded (r : GenerationRun) : Prop := ∀ code ∈ r.errorCode, ¬Blank code

/-- The state of one lane of a snapshot. -/
def laneState (db : Database) (snapshotId : UUID) (kind : GenerationKind) : GenerationRunState :=
  (((runsOf db snapshotId).find? (·.kind = kind)).map (·.state)).getD .queued

/-- What a snapshot would show with the outcome of one lane written. -/
def laneProjection (db : Database) (snapshotId : UUID) (kind : GenerationKind)
    (state : GenerationRunState) : TalkSessionState :=
  let after (k : GenerationKind) := if k = kind then state else laneState db snapshotId k
  projectedState (after .summary) (after .research)

variable {db db' : Database} {p : GenerationSnapshot}

theorem Lanes.exists_pair (h : Lanes db.other.generationRuns p) :
    ∃ summary research, runsOf db p.id = [summary, research] ∧
      laneOf summary = (.summary, p.pipelineVersion) ∧
      laneOf research = (.research, p.pipelineVersion) := by
  rw [Lanes] at h
  obtain ⟨summary, rest, hruns, hsummary, hrest⟩ := List.map_eq_cons_iff.mp h
  obtain ⟨research, none, rfl, hresearch, hnil⟩ := List.map_eq_cons_iff.mp hrest
  rw [List.map_eq_nil_iff.mp hnil] at hruns
  exact ⟨summary, research, hruns, hsummary, hresearch⟩

/-- The lane states of a pair of runs. -/
theorem laneState_pair {summary research : GenerationRun}
    (hruns : runsOf db p.id = [summary, research]) (hsummary : summary.kind = .summary)
    (hresearch : research.kind = .research) :
    laneState db p.id .summary = summary.state ∧ laneState db p.id .research = research.state := by
  rw [laneState, laneState, hruns]
  simp [hsummary, hresearch]

theorem runView_of_coded {r : GenerationRun} (h : Coded r) :
    runView r = .ok ⟨r.kind, r.state, r.errorCode, h⟩ := by
  have hcoded : ∀ code ∈ r.errorCode, ¬Blank code := h
  rw [runView, require_of hcoded, GenerationRunView.new, dif_pos hcoded]
  rfl

/-- **The projection of a snapshot** is the two-kind table at its two lane states. -/
theorem projectRuns_eq (hlanes : Lanes db.other.generationRuns p)
    (hcoded : ∀ r ∈ db.other.generationRuns, Coded r) :
    ∃ aggregate, projectRuns db p.id = .ok aggregate ∧
      aggregate.state =
        projectedState (laneState db p.id .summary) (laneState db p.id .research) := by
  obtain ⟨summary, research, hruns, hsummary, hresearch⟩ := hlanes.exists_pair
  have hskind : summary.kind = .summary := congrArg Prod.fst hsummary
  have hrkind : research.kind = .research := congrArg Prod.fst hresearch
  have hmem : ∀ r ∈ [summary, research], Coded r := by
    intro r hr
    rw [← hruns] at hr
    exact hcoded r (List.mem_filter.mp hr).1
  have hs := hmem summary (by simp)
  have hr := hmem research (by simp)
  let s : GenerationRunView := ⟨summary.kind, summary.state, summary.errorCode, hs⟩
  let r : GenerationRunView := ⟨research.kind, research.state, research.errorCode, hr⟩
  have hviews : (runsOf db p.id).mapM runView = .ok [s, r] := by
    rw [hruns, List.mapM_cons, List.mapM_cons, List.mapM_nil, runView_of_coded hs,
      runView_of_coded hr]
    rfl
  have hsviews : runsByKind [s, r] .summary = [s] := by simp [runsByKind, s, r, hskind, hrkind]
  have hrviews : runsByKind [s, r] .research = [r] := by simp [runsByKind, s, r, hskind, hrkind]
  obtain ⟨aggregate, hagg, hstate, -⟩ := projectGenerationAggregate_pair hsviews hrviews
  obtain ⟨hls, hlr⟩ := laneState_pair hruns hskind hrkind
  refine ⟨aggregate, ?_, by rw [hstate, hls, hlr]⟩
  rw [projectRuns, hviews]
  exact hagg

/-- The projection never shows an open session. -/
theorem projectedState_mem (summary research : GenerationRunState) :
    projectedState summary research ∈ [TalkSessionState.processing, .ready, .needsAttention] := by
  rw [projectedState]
  split
  · simp
  · split <;> simp

theorem projectedState_ready {summary research : GenerationRunState}
    (h : projectedState summary research = .ready) :
    summary = .succeeded ∧ research = .succeeded := by
  rw [projectedState] at h
  split at h
  · assumption
  · split at h <;> cases h

/-- Only the runs of a snapshot decide its lane states. -/
theorem laneState_congr {snapshotId : UUID} {kind : GenerationKind}
    (h : runsOf db' snapshotId = runsOf db snapshotId) :
    laneState db' snapshotId kind = laneState db snapshotId kind := by
  rw [laneState, laneState, h]

section Written

variable {snapshotId : UUID} {kind : GenerationKind} {pipelineVersion : String}
  {state : GenerationRunState} {f : GenerationRun → GenerationRun}

/-- The outcome of a lane leaves the other snapshots alone. -/
theorem runsOf_written_of_ne (hf : RunOutcome state f)
    (hruns : db'.other.generationRuns =
      writtenRuns snapshotId kind pipelineVersion f db.other.generationRuns)
    {id : UUID} (hne : id ≠ snapshotId) : runsOf db' id = runsOf db id := by
  rw [runsOf, hruns, writtenRuns]
  refine filter_updateWhere_of_disjoint (fun r ↦ by rw [hf.snapshotId]) fun r hr ↦ ?_
  rw [hr.1]
  exact decide_eq_false hne.symm

/-- **The outcome of a lane** is the state of that lane, and the other lane keeps its own. -/
theorem laneState_written (hf : RunOutcome state f) (hlanes : Lanes db.other.generationRuns p)
    (hwritable : ∃ run ∈ db.other.generationRuns, WritableRun p.id kind pipelineVersion run)
    (hruns : db'.other.generationRuns =
      writtenRuns p.id kind pipelineVersion f db.other.generationRuns) (k : GenerationKind) :
    laneState db' p.id k = if k = kind then state else laneState db p.id k := by
  obtain ⟨summary, research, hpair, hsummary, hresearch⟩ := hlanes.exists_pair
  have hskind : summary.kind = .summary := congrArg Prod.fst hsummary
  have hrkind : research.kind = .research := congrArg Prod.fst hresearch
  have hpair' : runsOf db' p.id =
      updateWhere (WritableRun p.id kind pipelineVersion) f [summary, research] := by
    rw [← hpair, runsOf, runsOf, hruns, writtenRuns]
    exact filter_updateWhere_of_forall fun r ↦ by rw [hf.snapshotId]
  obtain ⟨run, hrun, hw⟩ := hwritable
  have hmem : run ∈ [summary, research] := by
    rw [← hpair]
    exact List.mem_filter.mpr ⟨hrun, decide_eq_true hw.1⟩
  -- The writable run is the one of its kind, so the update writes one of the two rows.
  rcases List.mem_pair.mp hmem with rfl | rfl
  · have hkind : kind = .summary := hw.2.1.symm.trans hskind
    have hother : ¬WritableRun p.id kind pipelineVersion research := fun h ↦ by
      have := h.2.1.symm.trans hrkind
      rw [hkind] at this
      cases this
    have hruns' : runsOf db' p.id = [f run, research] := by
      rw [hpair', updateWhere, List.map_cons, List.map_cons, List.map_nil, if_pos hw,
        if_neg hother]
    obtain ⟨hs', hr'⟩ := laneState_pair hruns' ((hf.kind run).trans hskind) hrkind
    obtain ⟨-, hr⟩ := laneState_pair hpair hskind hrkind
    cases k with
    | summary => rw [hs', hf.state_eq, hkind, if_pos rfl]
    | research => rw [hr', hr, hkind, if_neg (by decide)]
  · have hkind : kind = .research := hw.2.1.symm.trans hrkind
    have hother : ¬WritableRun p.id kind pipelineVersion summary := fun h ↦ by
      have := h.2.1.symm.trans hskind
      rw [hkind] at this
      cases this
    have hruns' : runsOf db' p.id = [summary, f run] := by
      rw [hpair', updateWhere, List.map_cons, List.map_cons, List.map_nil, if_neg hother,
        if_pos hw]
    obtain ⟨hs', hr'⟩ := laneState_pair hruns' hskind ((hf.kind run).trans hrkind)
    obtain ⟨hs, -⟩ := laneState_pair hpair hskind hrkind
    cases k with
    | summary => rw [hs', hs, hkind, if_neg (by decide)]
    | research => rw [hr', hf.state_eq, hkind, if_pos rfl]

/-- A writable run is not finished. -/
theorem laneState_of_writable (hlanes : Lanes db.other.generationRuns p)
    (hwritable : ∃ run ∈ db.other.generationRuns, WritableRun p.id kind pipelineVersion run) :
    laneState db p.id kind ∈ [GenerationRunState.queued, .running, .failedRetryable] := by
  obtain ⟨summary, research, hpair, hsummary, hresearch⟩ := hlanes.exists_pair
  have hskind : summary.kind = .summary := congrArg Prod.fst hsummary
  have hrkind : research.kind = .research := congrArg Prod.fst hresearch
  obtain ⟨hs, hr⟩ := laneState_pair hpair hskind hrkind
  obtain ⟨run, hrun, hw⟩ := hwritable
  have hmem : run ∈ [summary, research] := by
    rw [← hpair]
    exact List.mem_filter.mpr ⟨hrun, decide_eq_true hw.1⟩
  rcases List.mem_pair.mp hmem with rfl | rfl
  · rw [← hw.2.1, hskind, hs]
    exact hw.2.2.2
  · rw [← hw.2.1, hrkind, hr]
    exact hw.2.2.2

end Written

/-! ## Putting lanes back -/

/-- The state of a run after a retry. -/
def requeuedState (state : GenerationRunState) : GenerationRunState :=
  if state = .failedRetryable then .queued else state

/-- A retry puts the failed lanes of a snapshot back and leaves its other lanes. -/
theorem laneState_requeued (hlanes : Lanes db.other.generationRuns p) (k : GenerationKind) :
    laneState (requeuedLanes p.id (retryableKinds (runsOf db p.id)) db) p.id k =
      requeuedState (laneState db p.id k) := by
  obtain ⟨summary, research, hpair, hsummary, hresearch⟩ := hlanes.exists_pair
  have hskind : summary.kind = .summary := congrArg Prod.fst hsummary
  have hrkind : research.kind = .research := congrArg Prod.fst hresearch
  set requeue : GenerationRun → GenerationRun :=
    fun r ↦ if r.state = .failedRetryable then requeuedRun r else r with hrequeue
  have hstate : ∀ r, (requeue r).state = requeuedState r.state := by
    intro r
    rw [hrequeue, requeuedState]
    by_cases h : r.state = .failedRetryable <;> simp [h, requeuedRun]
  have hkind : ∀ r, (requeue r).kind = r.kind := by
    intro r
    rw [hrequeue]
    by_cases h : r.state = .failedRetryable <;> simp [h, requeuedRun]
  have hpair' : runsOf (requeuedLanes p.id (retryableKinds (runsOf db p.id)) db) p.id =
      [requeue summary, requeue research] := by
    have hrun : ∀ r ∈ runsOf db p.id,
        RetryableRuns p.id (retryableKinds (runsOf db p.id)) r ↔ r.state = .failedRetryable := by
      intro r hr
      obtain ⟨hmem, hid⟩ := List.mem_filter.mp hr
      rw [retryableRuns_iff hmem]
      exact and_iff_right (of_decide_eq_true hid)
    have hview : runsOf (requeuedLanes p.id (retryableKinds (runsOf db p.id)) db) p.id =
        updateWhere (RetryableRuns p.id (retryableKinds (runsOf db p.id))) requeuedRun
          (runsOf db p.id) := filter_updateWhere_of_forall fun _ ↦ rfl
    rw [hview, updateWhere_congr hrun, hpair]
    rfl
  obtain ⟨hs, hr⟩ := laneState_pair hpair hskind hrkind
  obtain ⟨hs', hr'⟩ := laneState_pair hpair' ((hkind summary).trans hskind)
    ((hkind research).trans hrkind)
  cases k with
  | summary => rw [hs', hs, hstate]
  | research => rw [hr', hr, hstate]

/-- A retry of another snapshot does not show. -/
theorem runsOf_requeued_of_ne {snapshotId id : UUID} {kinds : List GenerationKind}
    (hne : id ≠ snapshotId) : runsOf (requeuedLanes snapshotId kinds db) id = runsOf db id := by
  refine filter_updateWhere_of_disjoint (fun _ ↦ rfl) fun r hr ↦ ?_
  obtain ⟨kind, -, hid, -⟩ := hr
  exact decide_eq_false (hid.trans_ne hne.symm)

/-- A failed lane of a snapshot is one of its two. -/
theorem exists_failed_lane (hlanes : Lanes db.other.generationRuns p)
    (hkinds : retryableKinds (runsOf db p.id) ≠ []) :
    laneState db p.id .summary = .failedRetryable ∨
      laneState db p.id .research = .failedRetryable := by
  obtain ⟨summary, research, hpair, hsummary, hresearch⟩ := hlanes.exists_pair
  obtain ⟨hs, hr⟩ := laneState_pair hpair (congrArg Prod.fst hsummary) (congrArg Prod.fst hresearch)
  obtain ⟨kind, hkind⟩ := List.exists_mem_of_ne_nil _ hkinds
  obtain ⟨r, hmem, hstate, -⟩ := mem_retryableKinds.mp hkind
  rw [hpair] at hmem
  rcases List.mem_pair.mp hmem with rfl | rfl
  · exact Or.inl (hs.trans hstate)
  · exact Or.inr (hr.trans hstate)

/-- Once a failed lane is put back, the snapshot is processing. -/
theorem projectedState_requeued {summary research : GenerationRunState}
    (h : summary = .failedRetryable ∨ research = .failedRetryable) :
    projectedState (requeuedState summary) (requeuedState research) = .processing := by
  rcases h with rfl | rfl
  · cases research <;> rfl
  · cases summary <;> rfl

end MeetingRag
