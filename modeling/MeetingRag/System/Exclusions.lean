import MeetingRag.System.Snapshots
import Mathlib.Data.List.Dedup

/-!
# Excluding revisions from a generation

A host closes a session with a list of revisions to leave out. The policy looks at the current
revisions only. The table of exclusions takes one row for each revision of a session, for good, and
bounds the length of a reason. So a close that the policy accepts goes through exactly when something
is included, every reason fits, and no earlier close of the session has excluded one of the same
revisions.
-/

open Outcome Table Text

namespace MeetingRag

/-! ## A generation that is free -/

/-- The identifiers that a close draws are new, and not drawn twice. -/
structure CloseDraws.Fresh (draws : CloseDraws) (db : Database) : Prop where
  snapshot : ∀ p ∈ db.other.generationSnapshots, p.id ≠ draws.snapshotId
  runs : ∀ r ∈ db.other.generationRuns, ∀ kind ∈ canonicalGenerationKinds, r.id ≠ draws.runId kind
  jobs : ∀ j ∈ db.jobs, ∀ kind ∈ canonicalGenerationKinds, j.id ≠ draws.jobId kind
  runIds : draws.runId .summary ≠ draws.runId .research
  jobIds : draws.jobId .summary ≠ draws.jobId .research

section Free

variable {db : Database} {t : TalkSession} {request : CloseRequest} {draws : CloseDraws}
  {schema : String}

/-- The ids of the included revisions are among those of the decision. -/
theorem includedRevisions_sublist (rows : List CurrentRevision) (decision : CloseEligibility) :
    ((includedRevisions rows decision).map (·.revision.id.str)).Sublist
      decision.includedRevisionIds := by
  rw [includedRevisions]
  induction decision.includedRevisionIds with
  | nil => exact List.Sublist.refl _
  | cons id ids ih =>
    rw [List.filterMap_cons]
    split
    · exact ih.cons id
    · next row hrow =>
      have hid : row.revision.id.str = id := by simpa using List.find?_some hrow
      rw [List.map_cons, hid]
      exact ih.cons_cons id

/-- Different revisions are included. -/
theorem includedRevisions_pairwise {statuses : List RevisionStatus}
    {exclusions : List CloseExclusion} (hnodup : (statuses.map (·.revisionId)).Nodup)
    (rows : List CurrentRevision) :
    (includedRevisions rows (closeDecision statuses exclusions)).Pairwise
      fun a b ↦ a.revision.id ≠ b.revision.id := by
  have hids : (closeDecision statuses exclusions).includedRevisionIds.Nodup :=
    ((sorted_perm _).nodup_iff.mpr hnodup).filter _
  have hmap := (includedRevisions_sublist rows (closeDecision statuses exclusions)).nodup hids
  rw [List.Nodup, List.pairwise_map] at hmap
  exact hmap.imp fun hne heq ↦ hne (congrArg UUID.str heq)

/-- **Fresh identifiers leave room for a generation** in every well-formed database. -/
theorem generationFree_of_fresh (hw : Wellformed db) (ht : t ∈ db.other.talkSessions)
    (hfresh : draws.Fresh db) {included : List CurrentRevision}
    (hincluded : included.Pairwise fun a b ↦ a.revision.id ≠ b.revision.id)
    (createdAt : Timestamp) :
    GenerationFree draws (closeSnapshot t request draws schema) included createdAt db := by
  set snapshot := closeSnapshot t request draws schema with hsnapshot
  have hid : ∀ p ∈ db.other.generationSnapshots, p.id ≠ snapshot.id := hfresh.snapshot
  refine ⟨fun p hp ↦ ?_, ⟨fun r hr row hrow ↦ ?_, ?_⟩, ⟨fun r hr run hrun ↦ ?_, ?_⟩,
    ⟨fun j hj row hrow ↦ ?_, ?_⟩⟩
  · -- The epochs of the session end at the one it shows.
    rintro (h | ⟨hsession, hepoch⟩)
    · exact hid p hp h
    · obtain ⟨s, hs, hsid, hle⟩ := hw.epoch p hp
      rw [eq_of_key_eq hw.sessions hs ht (hsid.trans hsession), hepoch] at hle
      exact absurd hle (Nat.not_succ_le_self _)
  · obtain ⟨p, hp, hpid⟩ := hw.pins r hr
    obtain ⟨row', -, hrow'⟩ := List.mem_filterMap.mp hrow
    obtain ⟨run, -, rfl⟩ := Option.map_eq_some_iff.mp hrow'
    exact fun h ↦ hid p hp (hpid.trans h.1)
  · refine List.pairwise_filterMap.mpr (hincluded.imp ?_)
    intro a b hne x hx y hy hclash
    obtain ⟨_, -, rfl⟩ := Option.map_eq_some_iff.mp hx
    obtain ⟨_, -, rfl⟩ := Option.map_eq_some_iff.mp hy
    exact hne hclash.2
  · obtain ⟨kind, hkind, rfl⟩ := List.mem_map.mp hrun
    obtain ⟨p, hp, hpid⟩ := hw.runs r hr
    rintro (h | ⟨h, -⟩)
    · exact hfresh.runs r hr kind hkind h
    · exact hid p hp (hpid.trans h)
  · have hruns := hfresh.runIds
    simp [laneRuns, canonicalGenerationKinds, runsClash, queuedRun, hruns]
  · obtain ⟨kind, hkind, rfl⟩ := List.mem_map.mp hrow
    rintro (h | h)
    · exact hfresh.jobs j hj kind hkind h
    · -- The key of a new lane is the key of no job.
      cases hw.jobs j hj with
      | extraction revisionId key jobKind =>
        exact generationKey_ne_extractionKey (h.symm.trans key)
      | lane p mem k key jobKind snapshotId payload =>
        exact hid p mem (generationKey_injective (key.symm.trans h)).1
      | report p mem key jobKind snapshotId payload =>
        exact generationKey_ne_reportKey (h.symm.trans key)
  · have hjobs := hfresh.jobIds
    have hkeys : ∀ v, generationKey snapshot.id .summary v ≠ generationKey snapshot.id .research v :=
      (by intro v h; cases (generationKey_injective h).2)
    simp [laneJobs, canonicalGenerationKinds, jobsClash, generationJob, newJob, hjobs, hkeys]

end Free

/-! ## What the policy accepts -/

/-- A close request that passes its own checks and the policy: the exclusions are accepted for the
current revisions of the session, and the included ones have approved runs of one schema. -/
structure Acceptable (db : Database) (t : TalkSession) (request : CloseRequest)
    (exclusions : List CloseExclusion) (statuses : List RevisionStatus)
    (decision : CloseEligibility) (schema : String) : Prop where
  valid : requireCloseArguments request = .ok exclusions
  current : revisionStatuses (currentRevisions db t.id) = .ok statuses
  accepted : evaluateCloseEligibility statuses exclusions = .ok decision
  eligible : decision.eligible = true
  approved : ∀ row ∈ includedRevisions (currentRevisions db t.id) decision,
    ∃ run ∈ pinnedRun row, run.anchorSchemaVersion = schema
  requested : ∀ version ∈ request.anchorSchemaVersion, version = schema

/-- The close returns a new snapshot, and has stored the exclusions of the request. -/
def StoresExclusions (db : Database) (t : TalkSession) (request : CloseRequest)
    (draws : CloseDraws) (createdAt : Timestamp) : Prop :=
  match close request draws createdAt db with
  | .error _ => False
  | .ok (snapshot, db') =>
    snapshot = ⟨draws.snapshotId, t.generationEpoch + 1, .processing, false⟩ ∧
      db'.other.snapshotExclusions = db.other.snapshotExclusions ++
        request.exclusions.map (exclusionRow t.id request.actorId)

instance (db : Database) (t : TalkSession) (request : CloseRequest) (draws : CloseDraws)
    (createdAt : Timestamp) : Decidable (StoresExclusions db t request draws createdAt) := by
  unfold StoresExclusions
  split <;> infer_instance

theorem closeExclusion_new_eq_ok {revisionId reason : String} {x : CloseExclusion} :
    CloseExclusion.new revisionId reason = .ok x ↔
      x.revisionId = revisionId ∧ x.reason = reason ∧ ¬Blank revisionId ∧ ¬Blank reason := by
  obtain ⟨_, _, hidentified, hexplained⟩ := x
  rw [CloseExclusion.new]
  split
  · next hid => simp [hid]
  · next hid =>
    split
    · next hreason => simp [hreason]
    · next hreason => simp [hid, hreason, eq_comm]

section Accepted

variable {db : Database} {t : TalkSession} {request : CloseRequest}
  {exclusions : List CloseExclusion} {statuses : List RevisionStatus}
  {decision : CloseEligibility} {schema : String}

/-- What the policy gets to see of the requested exclusions. -/
theorem domainExclusions_eq_ok {requested : List CloseExclusionRequest} {xs : List CloseExclusion}
    (h : domainExclusions requested = .ok xs) :
    xs.map (·.revisionId) = requested.map (·.revisionId.str) ∧
      ∀ x ∈ requested, ¬Blank x.reason := by
  have hpairs := mapM_eq_ok.mp h
  clear h
  induction hpairs with
  | nil => exact ⟨rfl, List.forall_mem_nil _⟩
  | cons hxy _ ih =>
    obtain ⟨hid, -, -, hreason⟩ := closeExclusion_new_eq_ok.mp hxy
    exact ⟨by rw [List.map_cons, List.map_cons, ih.1, hid],
      List.forall_mem_cons.mpr ⟨hreason, ih.2⟩⟩

theorem Acceptable.exclusions_eq (h : Acceptable db t request exclusions statuses decision schema) :
    exclusions.map (·.revisionId) = request.exclusions.map (·.revisionId.str) ∧
      ∀ x ∈ request.exclusions, ¬Blank x.reason := by
  have hvalid := h.valid
  simp only [requireCloseArguments, bind_eq_ok] at hvalid
  obtain ⟨-, -, -, -, hmap⟩ := hvalid
  exact domainExclusions_eq_ok hmap

/-- An accepted request excludes no revision twice. -/
theorem Acceptable.pairwise (h : Acceptable db t request exclusions statuses decision schema) :
    (request.exclusions.map (exclusionRow t.id request.actorId)).Pairwise
      fun a b ↦ ¬exclusionsClash a b := by
  obtain ⟨-, hnodup, -⟩ := evaluateCloseEligibility_eq_ok.mp h.accepted
  rw [h.exclusions_eq.1, List.Nodup, List.pairwise_map] at hnodup
  rw [List.pairwise_map]
  exact hnodup.imp fun hne hclash ↦ hne (congrArg UUID.str hclash.2)

/-- An accepted request gives every exclusion a reason. -/
theorem Acceptable.reasons (h : Acceptable db t request exclusions statuses decision schema)
    {x : CloseExclusionRequest} (hx : x ∈ request.exclusions) : 1 ≤ x.reason.length := by
  have hne := ne_empty_of_not_blank (h.exclusions_eq.2 x hx)
  rw [Nat.one_le_iff_ne_zero]
  exact fun hlength ↦ hne (String.length_eq_zero_iff.mp hlength)

/-- Every run that could be pinned names its schema. -/
theorem requireAnchorSchemas_of_valid (hsources : SourcesValid db.other.sources) (sessionId : UUID) :
    requireAnchorSchemas (currentRevisions db sessionId) = .ok ⟨⟩ := by
  refine require_eq_ok.mpr fun row hrow run hrun ↦ ?_
  obtain ⟨r, -, rfl⟩ := List.mem_map.mp hrow
  obtain ⟨happroved, -⟩ := Option.filter_eq_some_iff.mp hrun
  obtain ⟨id, -, hfind⟩ := Option.bind_eq_some_iff.mp happroved
  exact hsources.anchorSchemas run (List.mem_of_find?_eq_some hfind)

/-- Approved runs of one schema are pinned as soon as something is included. -/
theorem pinnedAnchorSchema_eq_ok {included : List CurrentRevision} {version : Option String}
    (happroved : ∀ row ∈ included, ∃ run ∈ pinnedRun row, run.anchorSchemaVersion = schema)
    (hrequested : ∀ v ∈ version, v = schema) {schema' : String} :
    pinnedAnchorSchema included version = .ok schema' ↔ included ≠ [] ∧ schema' = schema := by
  have hmissing : included.filter (fun row ↦ pinnedRun row = none) = [] := by
    rw [List.filter_eq_nil_iff]
    intro row hrow hnone
    obtain ⟨run, hrun, -⟩ := happroved row hrow
    rw [of_decide_eq_true hnone] at hrun
    exact nomatch hrun
  have hschemas : included.filterMap (fun row ↦ (pinnedRun row).map (·.anchorSchemaVersion)) =
      List.replicate included.length schema := by
    clear hmissing
    induction included with
    | nil => rfl
    | cons row included ih =>
      rw [List.forall_mem_cons] at happroved
      obtain ⟨⟨run, hrun, hschema⟩, hrest⟩ := happroved
      have hrow : (pinnedRun row).map (·.anchorSchemaVersion) = some schema := by
        rw [Option.mem_def.mp hrun, Option.map_some, hschema]
      simp only [List.filterMap_cons, hrow, ih hrest]
      rfl
  have hsorted : sorted (([] : List CurrentRevision).map (·.revision.id.str)) = [] := rfl
  rw [pinnedAnchorSchema, hmissing, hschemas, hsorted, require_of rfl, ok_bind]
  cases included with
  | nil =>
    have hnone : (List.replicate ([] : List CurrentRevision).length schema).dedup = [] := rfl
    rw [hnone]
    exact ⟨nofun, fun h ↦ absurd rfl h.1⟩
  | cons row included =>
    have hone : (List.replicate (row :: included).length schema).dedup = [schema] :=
      List.replicate_dedup (Nat.succ_ne_zero _)
    rw [hone, require_bind_eq_ok, Except.ok.injEq]
    exact ⟨fun h ↦ ⟨List.cons_ne_nil _ _, h.2.symm⟩, fun h ↦ ⟨hrequested, h.2.symm⟩⟩

end Accepted

/-! ## When exclusions are stored -/

/-- **When a close stores its exclusions.** In every reachable state, for an open session, a request
of its host that the policy accepts and identifiers that are new, the close stores the exclusions if
and only if the host is an active member of the room, something is included, every reason has at most
1000 characters, and no earlier close of the session has excluded one of the same revisions. -/
theorem storesExclusions_iff (now : Timestamp) (s : SystemState)
    (hs : systemMachine.Reachable (emptySystem now) s) (t : TalkSession)
    (ht : t ∈ s.db.other.talkSessions) (hopen : t.state = .open) (request : CloseRequest)
    (hsession : request.sessionId = t.id) (hhost : request.actorId = t.hostId)
    (exclusions : List CloseExclusion) (statuses : List RevisionStatus)
    (decision : CloseEligibility) (schema : String)
    (haccepted : Acceptable s.db t request exclusions statuses decision schema)
    (draws : CloseDraws) (hfresh : draws.Fresh s.db) (createdAt : Timestamp) :
    StoresExclusions s.db t request draws createdAt ↔
      ActiveMember s.db t.roomId t.hostId ∧
        includedRevisions (currentRevisions s.db t.id) decision ≠ [] ∧
        (∀ x ∈ request.exclusions, x.reason.length ≤ 1000) ∧
        ∀ x ∈ request.exclusions, ∀ r ∈ s.db.other.snapshotExclusions,
          r.sessionId = t.id → r.sourceRevisionId ≠ x.revisionId := by
  have hw := (reachable_sound hs).db
  have hpinned := fun schema' ↦
    @pinnedAnchorSchema_eq_ok _ _ _ haccepted.approved haccepted.requested schema'
  constructor
  · intro h
    unfold StoresExclusions at h
    split at h
    · exact h.elim
    · next snapshot db' hclose =>
      simp only [close, bind_eq_ok, requireHostedSession_eq_ok, lockSession_eq_some hw.sessions]
        at hclose
      obtain ⟨xs, hxs, t', ⟨⟨ht', hid, hmember⟩, -⟩, hbody⟩ := hclose
      obtain rfl : t' = t := eq_of_key_eq hw.sessions ht' ht (hid.trans hsession)
      obtain rfl : xs = exclusions := Except.ok.inj (hxs.symm.trans haccepted.valid)
      rw [if_pos hopen, closeOpen_eq_ok hw.sessions ht hopen] at hbody
      obtain ⟨statuses', decision', schema', hplan, -, -⟩ := hbody
      obtain rfl : statuses' = statuses :=
        Except.ok.inj (hplan.current.symm.trans haccepted.current)
      obtain rfl : decision' = decision := Except.ok.inj
        ((requireCloseEligibility_eq_ok.mp hplan.eligible).1.symm.trans haccepted.accepted)
      refine ⟨hhost ▸ hmember, ((hpinned schema').mp hplan.pinned).1,
        fun x hx ↦ (hplan.reasons x hx).2, fun x hx r hr hrs hrx ↦ ?_⟩
      exact hplan.excluded.1 r hr _ (List.mem_map_of_mem hx) ⟨hrs, hrx⟩
  · rintro ⟨hmember, hincluded, hreasons, hnew⟩
    obtain ⟨hnodup, -, -, hdecision⟩ := evaluateCloseEligibility_eq_ok.mp haccepted.accepted
    have hpairwise : (includedRevisions (currentRevisions s.db t.id) decision).Pairwise
        fun a b ↦ a.revision.id ≠ b.revision.id := by
      rw [hdecision]
      exact includedRevisions_pairwise hnodup _
    have hplan : ClosePlan t request exclusions statuses decision schema draws createdAt s.db := by
      refine ⟨haccepted.current, ?_, fun x hx ↦ ⟨haccepted.reasons hx, hreasons x hx⟩,
        ⟨fun r hr row hrow ↦ ?_, haccepted.pairwise⟩, requireAnchorSchemas_of_valid hw.sources t.id,
        (hpinned schema).mpr ⟨hincluded, rfl⟩, generationFree_of_fresh hw ht hfresh hpairwise _⟩
      · exact requireCloseEligibility_eq_ok.mpr ⟨haccepted.accepted, haccepted.eligible⟩
      · obtain ⟨x, hx, rfl⟩ := List.mem_map.mp hrow
        exact fun hclash ↦ hnew x hx r hr hclash.1 hclash.2
    have hlocked : requireHostedSession (.sessionAccess "session is unavailable")
        (.sessionHostRequired "only the session host may close") s.db request.sessionId
        request.actorId = .ok t :=
      requireHostedSession_eq_ok.mpr
        ⟨(lockSession_eq_some hw.sessions).mpr ⟨ht, hsession.symm, hhost ▸ hmember⟩, hhost.symm⟩
    have hclose : close request draws createdAt s.db =
        .ok (⟨draws.snapshotId, t.generationEpoch + 1, .processing, false⟩,
          closedDatabase t request draws
            (includedRevisions (currentRevisions s.db t.id) decision) schema createdAt s.db) := by
      simp only [close, bind_eq_ok]
      refine ⟨exclusions, haccepted.valid, t, hlocked, ?_⟩
      rw [if_pos hopen]
      exact (closeOpen_eq_ok hw.sessions ht hopen).mpr
        ⟨statuses, decision, schema, hplan, rfl, rfl⟩
    rw [StoresExclusions, hclose]
    exact ⟨rfl, rfl⟩

/-! ## Excluding the same revision twice -/

/-- One member, who is the host of the room, and two revisions that are ready. -/
def twoReadyRevisions : OutsideWrites where
  sources :=
    { roomMemberships := [⟨2, 1, true, false⟩]
      submissions := [⟨4, 3, false⟩, ⟨5, 3, false⟩]
      sourceRevisions := [⟨6, 4, .ready, some 8, true⟩, ⟨7, 5, .ready, some 9, true⟩]
      extractionRuns := [⟨8, 6, "1", .succeeded⟩, ⟨9, 7, "1", .succeeded⟩] }
  notificationPreferences := []
  mergedDocumentStates := []
  events := []
  notifications := []
  valid := by decide +kernel
  other := List.forall_mem_nil _
  others := List.forall_mem_nil _

/-- The host leaves the second revision out. -/
def excludingClose : CloseRequest := ⟨3, 1, [⟨7, "off topic"⟩], "p1", none⟩

/-- The session before its first close. -/
def beforeExclusion : List SystemInput :=
  [callAt 0 (.elsewhere twoReadyRevisions), callAt 1 (.createTalkSession 3 1 2 "topic")]

/-- The session is closed without the second revision, analyzed and reopened. -/
def afterExclusion : List SystemInput :=
  beforeExclusion ++
    [ callAt 2 (.close excludingClose (drawsFrom 100)),
      callAt 3 (claimCall "summary" 51),
      callAt 4 (.completeLane (laneLease 100 .summary 1 51) (resultFor 61) 71 72),
      callAt 5 (claimCall "research" 53),
      callAt 6 (.completeLane (laneLease 100 .research 1 53) (resultFor 62) 73 74),
      callAt 7 (.reopen 3 1) ]

/-- What the policy sees of the request. -/
def offTopic : List CloseExclusion :=
  [⟨UUID.str 7, "off topic", UUID.str_not_blank 7, by decide⟩]

/-- What the policy sees of the two revisions. -/
def bothReady : List RevisionStatus :=
  [⟨UUID.str 6, .ready, UUID.str_not_blank 6⟩, ⟨UUID.str 7, .ready, UUID.str_not_blank 7⟩]

/-- After a reopening, the same accepted exclusions make the close fail. -/
theorem repeated_exclusion_fails :
    ¬∀ now s, systemMachine.Reachable (emptySystem now) s → ∀ t ∈ s.db.other.talkSessions,
      t.state = .open → ∀ request : CloseRequest, request.sessionId = t.id →
        request.actorId = t.hostId → ∀ exclusions statuses decision schema,
          Acceptable s.db t request exclusions statuses decision schema →
            ∀ draws : CloseDraws, draws.Fresh s.db → ∀ createdAt,
              StoresExclusions s.db t request draws createdAt := by
  intro h
  -- One statement about the state after the run, so that the run is computed once.
  have hstate : systemMachine.Legal (emptySystem 0) afterExclusion ∧
      (⟨3, 2, 1, "topic", .open, 1, 4, 0⟩ : TalkSession) ∈
        (systemMachine.exec (emptySystem 0) afterExclusion).db.other.talkSessions ∧
      revisionStatuses (currentRevisions (systemMachine.exec (emptySystem 0) afterExclusion).db 3) =
        .ok bothReady ∧
      (∀ row ∈ includedRevisions
          (currentRevisions (systemMachine.exec (emptySystem 0) afterExclusion).db 3)
          (closeDecision bothReady offTopic),
        ∃ run ∈ pinnedRun row, run.anchorSchemaVersion = "1") ∧
      (∀ p ∈ (systemMachine.exec (emptySystem 0) afterExclusion).db.other.generationSnapshots,
        p.id ≠ (drawsFrom 200).snapshotId) ∧
      (∀ r ∈ (systemMachine.exec (emptySystem 0) afterExclusion).db.other.generationRuns,
        ∀ kind ∈ canonicalGenerationKinds, r.id ≠ (drawsFrom 200).runId kind) ∧
      (∀ j ∈ (systemMachine.exec (emptySystem 0) afterExclusion).db.jobs,
        ∀ kind ∈ canonicalGenerationKinds, j.id ≠ (drawsFrom 200).jobId kind) ∧
      ¬StoresExclusions (systemMachine.exec (emptySystem 0) afterExclusion).db
        ⟨3, 2, 1, "topic", .open, 1, 4, 0⟩ excludingClose (drawsFrom 200) 8 := by
    decide +kernel
  obtain ⟨hlegal, hsession, hcurrent, happroved, hsnapshot, hruns, hjobs, hnot⟩ := hstate
  have haccepted : Acceptable (systemMachine.exec (emptySystem 0) afterExclusion).db
      ⟨3, 2, 1, "topic", .open, 1, 4, 0⟩ excludingClose offTopic bothReady
      (closeDecision bothReady offTopic) "1" :=
    ⟨by decide +kernel, hcurrent, by decide +kernel, by decide +kernel, happroved, nofun⟩
  have hfresh : (drawsFrom 200).Fresh (systemMachine.exec (emptySystem 0) afterExclusion).db :=
    ⟨hsnapshot, hruns, hjobs, by decide +kernel, by decide +kernel⟩
  have hreachable : systemMachine.Reachable (emptySystem 0)
      (systemMachine.exec (emptySystem 0) afterExclusion) := ⟨afterExclusion, hlegal, rfl⟩
  exact hnot (h 0 _ hreachable _ hsession rfl excludingClose rfl rfl offTopic bothReady
    (closeDecision bothReady offTopic) "1" haccepted (drawsFrom 200) hfresh 8)

/-- Before the first close, nothing is in the way. -/
theorem storesExclusions_iff_beforeExclusion :
    StoresExclusions (systemMachine.exec (emptySystem 0) beforeExclusion).db
        ⟨3, 2, 1, "topic", .open, 0, 0, 0⟩ excludingClose (drawsFrom 100) 2 ↔
      ActiveMember (systemMachine.exec (emptySystem 0) beforeExclusion).db 2 1 ∧
        includedRevisions
          (currentRevisions (systemMachine.exec (emptySystem 0) beforeExclusion).db 3)
          (closeDecision bothReady offTopic) ≠ [] ∧
        (∀ x ∈ excludingClose.exclusions, x.reason.length ≤ 1000) ∧
        ∀ x ∈ excludingClose.exclusions,
          ∀ r ∈ (systemMachine.exec (emptySystem 0) beforeExclusion).db.other.snapshotExclusions,
            r.sessionId = 3 → r.sourceRevisionId ≠ x.revisionId :=
  storesExclusions_iff 0 _ ⟨beforeExclusion, by decide +kernel, rfl⟩
    ⟨3, 2, 1, "topic", .open, 0, 0, 0⟩ (by decide +kernel) rfl excludingClose rfl rfl offTopic
    bothReady (closeDecision bothReady offTopic) "1"
    ⟨by decide +kernel, by decide +kernel, by decide +kernel, by decide +kernel,
      by decide +kernel, nofun⟩
    (drawsFrom 100)
    ⟨by decide +kernel, by decide +kernel, by decide +kernel, by decide +kernel,
      by decide +kernel⟩ 2

end MeetingRag
