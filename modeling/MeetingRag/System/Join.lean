import MeetingRag.System.Ledger
import MeetingRag.System.Snapshots

/-!
# The join of the two lanes

Either lane of a snapshot may finish last, after any number of failures, requeues and late leases.
The transaction that completes a lane projects the runs of the snapshot, and the one that finds both
succeeded enqueues the report of the snapshot and tells the members. A run that has succeeded is
never written again, so that there is one such transaction; the key of the report job and the key of
a notification keep their rows unique.

What the queue holds for a snapshot is read off its two lane states (`Joined`), and what the members
were told is read off the keys of their notifications (`Notified`). Both are kept by every step.
-/

open Outcome Table Text

namespace MeetingRag

/-! ## The report of a snapshot -/

/-- The report jobs of a snapshot. -/
def reportJobs (db : Database) (p : GenerationSnapshot) : List (Job JobDocument) :=
  db.jobs.filter fun j ↦ j.kind = .reportSuggestions ∧ j.snapshotId = some p.id

/-- The summary run and the research run of the snapshot have both succeeded. -/
def LanesSucceeded (db : Database) (p : GenerationSnapshot) : Prop :=
  ∀ kind ∈ canonicalGenerationKinds, ∃ r ∈ db.other.generationRuns,
    r.snapshotId = p.id ∧ r.kind = kind ∧ r.state = .succeeded

instance (db : Database) : DecidablePred (LanesSucceeded db) := fun p ↦
  inferInstanceAs (Decidable (∀ kind ∈ canonicalGenerationKinds, ∃ r ∈ db.other.generationRuns,
    r.snapshotId = p.id ∧ r.kind = kind ∧ r.state = .succeeded))

/-- The lane states of the snapshot project to `ready`. -/
def LanesReady (db : Database) (p : GenerationSnapshot) : Prop :=
  projectedState (laneState db p.id .summary) (laneState db p.id .research) = .ready

/-- The join has happened for exactly the snapshots whose lanes have succeeded. -/
def Joined (db : Database) : Prop :=
  ∀ p ∈ db.other.generationSnapshots, (∃ j, j ∈ reportJobs db p) ↔ LanesReady db p

theorem joined_empty : Joined (emptyStore emptyTables) := List.forall_mem_nil _

section Lanes

variable {db db' : Database} {p : GenerationSnapshot} {rows : List (Job JobDocument)}

theorem mem_reportJobs {j : Job JobDocument} :
    j ∈ reportJobs db p ↔ j ∈ db.jobs ∧ j.kind = .reportSuggestions ∧ j.snapshotId = some p.id := by
  rw [reportJobs, List.mem_filter, decide_eq_true_iff]

theorem lanesSucceeded_iff (hlanes : Lanes db.other.generationRuns p) :
    LanesSucceeded db p ↔ LanesReady db p := by
  obtain ⟨summary, research, hpair, hsummary, hresearch⟩ := hlanes.exists_pair
  have hskind : summary.kind = .summary := congrArg Prod.fst hsummary
  have hrkind : research.kind = .research := congrArg Prod.fst hresearch
  obtain ⟨hs, hr⟩ := laneState_pair hpair hskind hrkind
  have hmem : ∀ r, r ∈ db.other.generationRuns ∧ r.snapshotId = p.id ↔
      r = summary ∨ r = research := by
    intro r
    rw [← List.mem_pair, ← hpair, runsOf, List.mem_filter, decide_eq_true_iff]
  rw [LanesReady, hs, hr]
  constructor
  · intro h
    obtain ⟨s, hsmem, hsid, hskind', hsstate⟩ := h .summary (by decide)
    obtain ⟨r, hrmem, hrid, hrkind', hrstate⟩ := h .research (by decide)
    -- A run of the snapshot is one of the two, and its kind says which.
    have hsame : s = summary := ((hmem s).mp ⟨hsmem, hsid⟩).resolve_right fun heq ↦ by
      rw [heq, hrkind] at hskind'
      cases hskind'
    have hsame' : r = research := ((hmem r).mp ⟨hrmem, hrid⟩).resolve_left fun heq ↦ by
      rw [heq, hskind] at hrkind'
      cases hrkind'
    rw [← hsame, ← hsame', hsstate, hrstate]
    rfl
  · intro h kind _
    obtain ⟨hsstate, hrstate⟩ := projectedState_ready h
    cases kind with
    | summary =>
      obtain ⟨hin, hid⟩ := (hmem summary).mpr (Or.inl rfl)
      exact ⟨summary, hin, hid, hskind, hsstate⟩
    | research =>
      obtain ⟨hin, hid⟩ := (hmem research).mpr (Or.inr rfl)
      exact ⟨research, hin, hid, hrkind, hrstate⟩

theorem lanesReady_congr (h : runsOf db' p.id = runsOf db p.id) :
    LanesReady db' p ↔ LanesReady db p := by
  rw [LanesReady, LanesReady, laneState_congr h, laneState_congr h]

/-- A queue that moved without a new report of the snapshot has the reports it had. -/
theorem exists_report_of_grows (hgrows : Grows rows db.jobs db'.jobs)
    (hrows : ∀ row ∈ rows, row.kind = .reportSuggestions → row.snapshotId ≠ some p.id) :
    (∃ j, j ∈ reportJobs db' p) ↔ ∃ j, j ∈ reportJobs db p := by
  constructor
  · rintro ⟨j, hj⟩
    obtain ⟨hj, hkind, hid⟩ := mem_reportJobs.mp hj
    obtain ⟨j₀, hj₀, hident⟩ := hgrows.origin j hj
    have hkind₀ : j₀.kind = .reportSuggestions :=
      (congrArg JobIdentity.kind hident).symm.trans hkind
    have hid₀ : j₀.snapshotId = some p.id := (congrArg JobIdentity.snapshotId hident).symm.trans hid
    rcases List.mem_append.mp hj₀ with hj₀ | hj₀
    · exact ⟨j₀, mem_reportJobs.mpr ⟨hj₀, hkind₀, hid₀⟩⟩
    · exact absurd hid₀ (hrows j₀ hj₀ hkind₀)
  · rintro ⟨j, hj⟩
    obtain ⟨hj, hkind, hid⟩ := mem_reportJobs.mp hj
    obtain ⟨j', hj', hident, -⟩ := hgrows.kept j hj
    exact ⟨j', mem_reportJobs.mpr ⟨hj', (congrArg JobIdentity.kind hident).trans hkind,
      (congrArg JobIdentity.snapshotId hident).trans hid⟩⟩

/-- The job under the key of a report is a report job of its snapshot. -/
theorem Wellformed.report_of_key (h : Wellformed db) {j : Job JobDocument} (hj : j ∈ db.jobs)
    (hkey : j.logicalKey = reportKey p.id p.pipelineVersion) : j ∈ reportJobs db p := by
  have hshape := h.jobs j hj
  cases hshape with
  | extraction revisionId key => exact absurd (key.symm.trans hkey) extractionKey_ne_reportKey
  | lane q mem kind key => exact absurd (key.symm.trans hkey) generationKey_ne_reportKey
  | report q mem key jobKind snapshotId =>
    have hid : q.id = p.id := reportKey_injective (key.symm.trans hkey)
    exact mem_reportJobs.mpr ⟨hj, jobKind, snapshotId.trans (congrArg some hid)⟩

/-- A report job is one of a snapshot that exists, under the key of that snapshot. -/
theorem Wellformed.key_of_report (h : Wellformed db) {j : Job JobDocument} (hj : j ∈ reportJobs db p) :
    ∃ q ∈ db.other.generationSnapshots, q.id = p.id ∧
      j.logicalKey = reportKey q.id q.pipelineVersion := by
  obtain ⟨hj, hkind, hid⟩ := mem_reportJobs.mp hj
  have hshape := h.jobs j hj
  cases hshape with
  | extraction revisionId key kind => exact nomatch hkind.symm.trans kind
  | lane q mem kind key jobKind => exact absurd (hkind.symm.trans jobKind) (by cases kind <;> nofun)
  | report q mem key jobKind snapshotId =>
    exact ⟨q, mem, Option.some.inj (snapshotId.symm.trans hid), key⟩

/-- **A snapshot has one report job or none.** -/
theorem Wellformed.length_reportJobs (h : Wellformed db) (hp : p ∈ db.other.generationSnapshots) :
    (reportJobs db p).length ≤ 1 := by
  have hkeys : ((reportJobs db p).map (·.logicalKey)).Nodup :=
    (List.filter_sublist.map _).nodup h.queue.keys
  have hall : ∀ k ∈ (reportJobs db p).map (·.logicalKey), k = reportKey p.id p.pipelineVersion := by
    intro k hk
    obtain ⟨j, hj, rfl⟩ := List.mem_map.mp hk
    obtain ⟨q, hq, hid, hkey⟩ := h.key_of_report hj
    have hsame : q = p := eq_of_key_eq h.snapshots hq hp hid
    exact hsame ▸ hkey
  rw [List.eq_replicate_of_mem hall, List.nodup_replicate, List.length_map] at hkeys
  exact hkeys

end Lanes

/-! ## What the members are told -/

/-- A notification that the analysis of one generation of a session is complete. -/
structure AnalysisNotice (userId sessionId : UUID) (generationEpoch : ℕ) (n : Notification) :
    Prop where
  recipient : n.recipientId = userId
  kind : n.kind = "analysis_completed"
  resource : n.resourceId = sessionId
  key : n.dedupeKey = channelDedupeKey
    ("analysis:" ++ sessionId.str ++ ":" ++ decimal generationEpoch) userId .inApp

instance (userId sessionId : UUID) (generationEpoch : ℕ) :
    DecidablePred (AnalysisNotice userId sessionId generationEpoch) := fun n ↦ decidable_of_iff
  (n.recipientId = userId ∧ n.kind = "analysis_completed" ∧ n.resourceId = sessionId ∧
    n.dedupeKey = channelDedupeKey
      ("analysis:" ++ sessionId.str ++ ":" ++ decimal generationEpoch) userId .inApp)
  ⟨fun h ↦ ⟨h.1, h.2.1, h.2.2.1, h.2.2.2⟩, fun h ↦ ⟨h.1, h.2, h.3, h.4⟩⟩

/-- The notifications have distinct keys, and one about an analysis names a generation that its
session has reached. -/
structure Notified (db : Database) : Prop where
  keys : ((notices db).map noticeKey).Nodup
  named : ∀ n ∈ notices db, n.kind = "analysis_completed" →
    ∃ t ∈ db.other.talkSessions, ∃ epoch ≤ t.generationEpoch,
      AnalysisNotice n.recipientId t.id epoch n

theorem notified_empty : Notified (emptyStore emptyTables) := ⟨List.nodup_nil, List.forall_mem_nil _⟩

/-- What a step adds to the notifications: one about an analysis names the generation that its
session is at. -/
structure Tells (db db' : Database) : Prop where
  kept : notices db <+: notices db'
  unique : ((notices db).map noticeKey).Nodup → ((notices db').map noticeKey).Nodup
  named : ∀ n ∈ notices db', n ∈ notices db ∨ (n.kind = "analysis_completed" →
    ∃ t ∈ db.other.talkSessions, AnalysisNotice n.recipientId t.id t.generationEpoch n)

section Tells

variable {db db' : Database} {clock : StatementClock} {call : SystemCall}

theorem Tells.of_eq (h : notices db' = notices db) : Tells db db' := by
  refine ⟨h ▸ List.prefix_rfl, fun hkeys ↦ h ▸ hkeys, fun n hn ↦ ?_⟩
  rw [h] at hn
  exact Or.inl hn

/-- **Only a lane completion tells of an analysis**, under the epoch of the session it writes. -/
theorem SystemStep.tells (hstep : SystemStep clock call db db') : Tells db db' := by
  cases hstep with
  | background hb =>
    have hnotices := hb.writes.notices
    exact ⟨hnotices.kept, hnotices.unique,
      fun n hn ↦ (hnotices.added n hn).imp_right fun hother hkind ↦ absurd hkind hother⟩
  | created session actorId roomId topic hcall hc =>
    obtain ⟨-, -, -, activity, e, rfl, -, -, hnotices⟩ := hc
    exact Tells.of_eq hnotices
  | closed session request draws included schema hcall hc =>
    rw [hc.result]
    exact Tells.of_eq rfl
  | reopened session actorId hcall hr =>
    rw [hr.result]
    exact Tells.of_eq rfl
  | retried session snapshot actorId hcall hr =>
    rw [hr.result]
    exact Tells.of_eq rfl
  | laneCompleted claimed outcome resultId reportJobId e snapshot session aggregate hcall hexec hl =>
    obtain ⟨key, recipients, hdelivered⟩ := hl.delivered
    refine ⟨hdelivered.kept, hdelivered.unique, fun n hn ↦ ?_⟩
    refine (hdelivered.added n hn).imp_right ?_
    rintro ⟨effect, heffect, hnotice⟩ hkind
    rw [effectsOfProjection] at heffect
    split at heffect
    · obtain rfl := List.mem_singleton.mp heffect
      exact ⟨session, hl.session_mem, rfl, hkind, hnotice.resourceId, hnotice.dedupeKey⟩
    · exact absurd heffect List.not_mem_nil
  | comparisonFailed claimed outcome resultId snapshotId hcall hterminal hc =>
    exact Tells.of_eq hc.notices

theorem Notified.step (h : Notified db) (hw : Wellformed db)
    (hstep : SystemStep clock call db db') : Notified db' := by
  have htells := hstep.tells
  have hcounts := hstep.countsOn hw
  refine ⟨htells.unique h.keys, fun n hn hkind ↦ ?_⟩
  have hnamed : ∃ t ∈ db.other.talkSessions, ∃ epoch ≤ t.generationEpoch,
      AnalysisNotice n.recipientId t.id epoch n := by
    rcases htells.named n hn with hold | hnew
    · exact h.named n hold hkind
    · obtain ⟨t, ht, hnotice⟩ := hnew hkind
      exact ⟨t, ht, _, le_rfl, hnotice⟩
  -- The session of the notification has not gone back to an earlier epoch.
  obtain ⟨t, ht, epoch, hle, hnotice⟩ := hnamed
  obtain ⟨t', ht', hid, -, hepoch⟩ := hcounts t ht
  refine ⟨t', ht', epoch, by omega, ?_⟩
  rw [hid]
  exact hnotice

/-- A member has one notification of each generation, or none. -/
theorem Notified.length_le_one (h : Notified db) (userId sessionId : UUID) (generationEpoch : ℕ) :
    ((notices db).filter (AnalysisNotice userId sessionId generationEpoch)).length ≤ 1 := by
  set told := (notices db).filter (AnalysisNotice userId sessionId generationEpoch)
  have hkeys : (told.map noticeKey).Nodup := (List.filter_sublist.map _).nodup h.keys
  have hall : ∀ k ∈ told.map noticeKey, k = (userId, channelDedupeKey
      ("analysis:" ++ sessionId.str ++ ":" ++ decimal generationEpoch) userId .inApp) := by
    intro k hk
    obtain ⟨n, hn, rfl⟩ := List.mem_map.mp hk
    have hnotice := of_decide_eq_true (List.mem_filter.mp hn).2
    exact Prod.ext hnotice.recipient hnotice.key
  rw [List.eq_replicate_of_mem hall, List.nodup_replicate, List.length_map] at hkeys
  exact hkeys

end Tells

/-! ## The steps of the join -/

section Steps

variable {db db' : Database} {clock : StatementClock} {call : SystemCall}

/-- A step that leaves the runs of a snapshot alone and adds no report of it. -/
theorem Joined.of_runs (h : Joined db) {p : GenerationSnapshot}
    (hp : p ∈ db.other.generationSnapshots) {rows : List (Job JobDocument)}
    (hruns : runsOf db' p.id = runsOf db p.id) (hgrows : Grows rows db.jobs db'.jobs)
    (hrows : ∀ row ∈ rows, row.kind = .reportSuggestions → row.snapshotId ≠ some p.id) :
    (∃ j, j ∈ reportJobs db' p) ↔ LanesReady db' p := by
  rw [exists_report_of_grows hgrows hrows, lanesReady_congr hruns]
  exact h p hp

theorem Joined.closed (hw : Wellformed db) (h : Joined db) {session : TalkSession}
    {request : CloseRequest} {draws : CloseDraws} {included : List CurrentRevision} {schema : String}
    {createdAt : Timestamp} (hc : Closed session request draws included schema createdAt db db') :
    Joined db' := by
  have hadded := hc.added hw
  have hgrows := (QueueMoves.inserted hc.inserted hw.queue).2
  have hlane : ∀ row ∈ laneJobs draws (closeSnapshot session request draws schema) createdAt
      canonicalGenerationKinds, row.kind ≠ .reportSuggestions := by
    intro row hrow hkind
    obtain ⟨kind, -, rfl⟩ := List.mem_map.mp hrow
    cases kind <;> exact nomatch hkind
  intro p hp
  rw [hadded.snapshots] at hp
  rcases List.mem_append.mp hp with hp | hp
  · exact h.of_runs hp (hc.runsOf_old hp) hgrows fun row hrow hkind ↦ absurd hkind (hlane row hrow)
  · -- The new snapshot has two queued runs, and no job has named it before.
    obtain rfl := List.mem_singleton.mp hp
    obtain ⟨hsummary, hresearch⟩ := laneState_pair (hc.runsOf_new hw) rfl rfl
    have hnotReady : ¬LanesReady db' (closeSnapshot session request draws schema) := by
      rw [LanesReady, hsummary, hresearch]
      exact fun heq ↦ nomatch heq
    refine iff_of_false ?_ hnotReady
    rw [exists_report_of_grows hgrows fun row hrow hkind ↦ absurd hkind (hlane row hrow)]
    rintro ⟨j, hj⟩
    obtain ⟨q, hq, hid, -⟩ := hw.key_of_report hj
    exact hc.free.newSnapshot q hq (Or.inl hid)

theorem Joined.retried (hw : Wellformed db) (h : Joined db) {session : TalkSession}
    {snapshot : GenerationSnapshot} {actorId : UUID} (hr : Retried session snapshot actorId db db') :
    Joined db' := by
  have hgrows := (QueueMoves.trans (requeuedLanes_moves hr.nodup hr.lanes)
    (QueueMoves.of_other db'.other) hw.queue).2
  have hsnapshot := (selectLast_mem hr.latest).1
  have hruns : ∀ id, runsOf db' id =
      runsOf (requeuedLanes snapshot.id (retryableKinds (runsOf db snapshot.id)) db) id := by
    intro id
    rw [hr.result]
    rfl
  have hjobs : db'.jobs =
      (requeuedLanes snapshot.id (retryableKinds (runsOf db snapshot.id)) db).jobs := by
    rw [hr.result]
    rfl
  rw [← hjobs] at hgrows
  have hnone : ∀ row ∈ ([] ++ [] : List (Job JobDocument)), row.kind = .reportSuggestions →
      ∀ id : UUID, row.snapshotId ≠ some id := List.forall_mem_nil _
  intro p hp
  rw [hr.result] at hp
  by_cases hid : p.id = snapshot.id
  · -- A lane of the retried snapshot had failed, so its join has not happened and does not.
    have hsame : p = snapshot := eq_of_key_eq hw.snapshots hp hsnapshot hid
    subst hsame
    have hlanes := hw.lanes p hp
    have hfailed := exists_failed_lane hlanes hr.nonempty
    have hbefore : ¬LanesReady db p := by
      intro hready
      obtain ⟨hs, hr⟩ := projectedState_ready hready
      rw [hs, hr] at hfailed
      exact hfailed.elim nofun nofun
    have hafter : ¬LanesReady db' p := by
      rw [LanesReady, laneState_congr (hruns p.id), laneState_congr (hruns p.id),
        laneState_requeued hlanes, laneState_requeued hlanes, projectedState_requeued hfailed]
      exact nofun
    rw [exists_report_of_grows hgrows fun row hrow hkind ↦ hnone row hrow hkind p.id, h p hp]
    exact iff_of_false hbefore hafter
  · refine h.of_runs hp ?_ hgrows fun row hrow hkind ↦ hnone row hrow hkind p.id
    rw [hruns, runsOf_requeued_of_ne hid]

/-- **The completion of a lane** enqueues the report of its snapshot exactly when it finds the other
lane succeeded as well. -/
theorem Joined.laneCompleted (hw : Wellformed db) (h : Joined db)
    {claimed : ClaimedJob JobDocument} {e : GenerationExecution} {snapshot : GenerationSnapshot}
    {session : TalkSession} {aggregate : GenerationAggregate}
    (hl : LaneCompleted claimed e snapshot session aggregate clock db db') : Joined db' := by
  have hw' := hw.laneCompleted hl
  have hstate := hl.state_eq hw
  obtain ⟨rows, hmoves, hrows⟩ := hl.queue
  have hgrows := (hmoves hw.queue).2
  obtain ⟨f, hf, hruns⟩ := hl.runs
  intro p hp
  rw [hl.snapshots] at hp
  by_cases hid : p.id = snapshot.id
  · have hsame : p = snapshot := eq_of_key_eq hw.snapshots hp hl.snapshot_mem hid
    subst hsame
    have hready : LanesReady db' p ↔ aggregate.state = .ready := by rw [LanesReady, hstate]
    rw [hready]
    constructor
    · rintro ⟨j, hj⟩
      by_contra hne
      -- Without a new row, the report was there before, when the lane was still writable.
      have hnone : rows = [] :=
        List.eq_nil_iff_forall_not_mem.mpr fun row hrow ↦ hne (hrows row hrow).1
      rw [hnone] at hgrows
      have hold : ∃ j, j ∈ reportJobs db p :=
        (exists_report_of_grows hgrows (List.forall_mem_nil _)).mp ⟨j, hj⟩
      obtain ⟨hs, hr⟩ := projectedState_ready ((h p hp).mp hold)
      have hwritable := hl.writable
      rw [← hl.snapshot_id] at hwritable
      have hlane := laneState_of_writable (hw.lanes p hp) hwritable
      have hsucceeded : laneState db p.id e.kind = .succeeded := by
        cases hkind : e.kind
        · exact hs
        · exact hr
      rw [hsucceeded] at hlane
      simp at hlane
    · intro haggregate
      obtain ⟨j, hj, hkey⟩ := hl.reported haggregate
      exact ⟨j, hw'.report_of_key hj hkey⟩
  · refine h.of_runs hp ?_ hgrows fun row hrow hkind heq ↦ ?_
    · exact runsOf_written_of_ne hf hruns fun heq ↦ hid (heq.trans hl.snapshot_id.symm)
    · obtain ⟨-, id, createdAt, rfl⟩ := hrows row hrow
      exact hid (Option.some.inj heq).symm

/-- **The step lemma.** -/
theorem Joined.step (h : Joined db) (hw : Wellformed db) (hstep : SystemStep clock call db db') :
    Joined db' := by
  cases hstep with
  | background hb =>
    obtain ⟨rows, hmoves, hrows⟩ := hb.queue
    have hsame := hb.writes.same
    intro p hp
    rw [hsame.generationSnapshots] at hp
    refine h.of_runs hp (runsOf_congr hsame.generationRuns) (hmoves hw.queue).2 ?_
    intro row hrow hkind
    obtain ⟨revisionId, -, hextraction, -⟩ := hrows row hrow
    exact nomatch hkind.symm.trans hextraction
  | created session actorId roomId topic hcall hc =>
    obtain ⟨-, -, -, activity, e, rfl, -⟩ := hc
    exact fun p hp ↦ h p hp
  | closed session request draws included schema hcall hc => exact Joined.closed hw h hc
  | reopened session actorId hcall hr =>
    rw [hr.result]
    exact fun p hp ↦ h p hp
  | retried session snapshot actorId hcall hr => exact Joined.retried hw h hr
  | laneCompleted claimed outcome resultId reportJobId e snapshot session aggregate hcall hexec hl =>
    exact Joined.laneCompleted hw h hl
  | comparisonFailed claimed outcome resultId snapshotId hcall hterminal hc =>
    intro p hp
    rw [hc.snapshots] at hp
    exact h.of_runs hp (runsOf_congr hc.runs) (hc.queue hw.queue).2 (List.forall_mem_nil _)

end Steps

/-! ## Runs -/

/-- The joins of a database: a snapshot has one report job when both its lanes have succeeded and none
otherwise, and a member has at most one notification for each generation of a session. -/
structure JoinsOnce (db : Database) : Prop where
  reports : ∀ p ∈ db.other.generationSnapshots,
    (reportJobs db p).length = if LanesSucceeded db p then 1 else 0
  members : ∀ userId sessionId generationEpoch,
    ((notices db).filter (AnalysisNotice userId sessionId generationEpoch)).length ≤ 1
  named : ∀ n ∈ notices db, n.kind = "analysis_completed" →
    ∃ t ∈ db.other.talkSessions, ∃ epoch ≤ t.generationEpoch,
      AnalysisNotice n.recipientId t.id epoch n

/-- A step neither withdraws a report nor a notification, and tells of the generation at hand. -/
structure JoinStep (db db' : Database) : Prop where
  reports : ∀ p, ∀ j ∈ reportJobs db p, ∃ j' ∈ reportJobs db' p, j'.identity = j.identity
  notices : notices db <+: notices db'
  named : ∀ n ∈ MeetingRag.notices db', n ∉ MeetingRag.notices db → n.kind = "analysis_completed" →
    ∃ t ∈ db.other.talkSessions, AnalysisNotice n.recipientId t.id t.generationEpoch n

theorem Joined.once {db : Database} (h : Joined db) (hw : Wellformed db) (hn : Notified db) :
    JoinsOnce db := by
  refine ⟨fun p hp ↦ ?_, hn.length_le_one, hn.named⟩
  have hone := hw.length_reportJobs hp
  have hiff := (h p hp).trans (lanesSucceeded_iff (hw.lanes p hp)).symm
  split
  · next hsucceeded =>
    obtain ⟨j, hj⟩ := hiff.mpr hsucceeded
    have hpos := List.length_pos_of_mem hj
    omega
  · next hnot =>
    rw [List.length_eq_zero_iff, List.eq_nil_iff_forall_not_mem]
    exact fun j hj ↦ hnot (hiff.mp ⟨j, hj⟩)

theorem joinStep_step {s : SystemState} (hs : s.Sound) (i : SystemInput) :
    JoinStep s.db (systemMachine.step s i).2.db := by
  have hstep := systemMachine_step hs i
  have htells := hstep.tells
  obtain ⟨rows, hmoves⟩ := hstep.moves
  have hgrows := (hmoves hs.db.queue).2
  refine ⟨fun p j hj ↦ ?_, htells.kept, fun n hn hnew ↦ (htells.named n hn).resolve_left hnew⟩
  obtain ⟨hj, hkind, hid⟩ := mem_reportJobs.mp hj
  obtain ⟨j', hj', hident, -⟩ := hgrows.kept j hj
  exact ⟨j', mem_reportJobs.mpr ⟨hj', (congrArg JobIdentity.kind hident).trans hkind,
    (congrArg JobIdentity.snapshotId hident).trans hid⟩, hident⟩

/-- **The lanes join once.** In every state that a legal run reaches, a snapshot has one report job
exactly when both its runs have succeeded, and no member was told twice of one generation of a
session; along the run no report and no notification is taken back, and a member is told under the
epoch that the session is at. -/
theorem lanes_join_once (now : Timestamp) (is : List SystemInput)
    (h : systemMachine.Legal (emptySystem now) is) :
    systemMachine.Along (fun s i ↦ JoinStep s.db (systemMachine.step s i).2.db) (emptySystem now) is ∧
      JoinsOnce (systemMachine.exec (emptySystem now) is).db := by
  refine ⟨(legal_sound h).mono fun s i hs ↦ joinStep_step hs.1 i, ?_⟩
  have hinvariant : (systemMachine.exec (emptySystem now) is).Sound ∧
      Joined (systemMachine.exec (emptySystem now) is).db ∧
      Notified (systemMachine.exec (emptySystem now) is).db := by
    refine h.invariant (P := fun s ↦ s.Sound ∧ Joined s.db ∧ Notified s.db)
      ⟨sound_empty now, joined_empty, notified_empty⟩ ?_
    rintro s i ⟨hs, hjoined, hnotified⟩ -
    have hstep := systemMachine_step hs i
    exact ⟨hs.step i, hjoined.step hs.db hstep, hnotified.step hs.db hstep⟩
  exact hinvariant.2.1.once hinvariant.1.db hinvariant.2.2

/-- The member asks to be told before the second attempt at the research succeeds. -/
def lateJoin : List SystemInput :=
  researchPutBack ++
    [ callAt 9 (.elsewhere { oneReadyRevision with
        notificationPreferences := [⟨1, "analysis_completed", .inApp, true⟩] }),
      callAt 10 (.completeLane (laneLease 100 .research 2 55) (resultFor 62) 75 76) ]

theorem lanes_join_once_lateJoin :
    systemMachine.Along (fun s i ↦ JoinStep s.db (systemMachine.step s i).2.db) (emptySystem 0)
        lateJoin ∧
      JoinsOnce (systemMachine.exec (emptySystem 0) lateJoin).db :=
  lanes_join_once 0 lateJoin (by decide +kernel)

end MeetingRag
