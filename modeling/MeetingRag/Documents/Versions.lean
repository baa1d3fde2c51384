import MeetingRag.Documents.Concurrency
import MeetingRag.Documents.RoomReads

/-!
# Named versions

A member keeps the document under a name. `create_version` reads what the editor shows, in several
statements, and copies it into a row of its own in a transaction that comes later, while everybody
else goes on saving.

A document only moves to higher numbers, so the number that a version carries says which state of
the document it is a copy of (`versions_agree`). What was read is what anybody reads of the version
from then on (`version_read_back`).
-/

open Outcome Table Text

namespace MeetingRag

namespace Versions

/-! ## Creating a version -/

/-- The arguments of `create_version`. -/
structure VersionRequest where
  sessionId : UUID
  actorId : UUID
  label : String
deriving DecidableEq, Repr

/-- A call of `create_version` between its reads and its transaction. -/
structure VersionDraft where
  request : VersionRequest
  label : String
  current : MergedDocumentView
deriving DecidableEq, Repr

/-- `MergedDocumentService.get`, one statement after the other: the member and the report are looked
for in `seen`, the row of the document in `db`, and the summary that stands in for it in `later`. -/
def getAmong (reads : MergedDocumentReads) (sessionId actorId : UUID) (seen db later : Database) :
    Except Error MergedDocumentView := do
  let _ ← requireDocumentMember seen sessionId actorId
  let identity ← requireReport seen sessionId
  match documentRow db sessionId identity.snapshotId with
  | some row => do
    let blocks ← readBlocks reads identity.snapshotId row
    .ok ⟨sessionId, identity.snapshotId, row.version, blocks⟩
  | none => do
    let blocks ← readBaseline reads later sessionId actorId
    .ok ⟨sessionId, identity.snapshotId, 0, blocks⟩

/-- With nobody in between it is the read of a member. -/
theorem getAmong_self (reads : MergedDocumentReads) (sessionId actorId : UUID) (db : Database) :
    getAmong reads sessionId actorId db db db = getMergedDocument reads sessionId actorId db := rfl

/-- `MergedDocumentService.create_version`, up to its transaction. -/
def prepareVersion (reads : MergedDocumentReads) (request : VersionRequest)
    (seen db later : Database) : Except Error VersionDraft := do
  let label := strip request.label
  require (1 ≤ label.length ∧ label.length ≤ 200) (.valueError "version label is invalid")
  let current ← getAmong reads request.sessionId request.actorId seen db later
  .ok ⟨request, label, current⟩

/-- The row of `merged_document_version_snapshots`. -/
def VersionDraft.row (draft : VersionDraft) (versionId : UUID) (now : Timestamp) : VersionRow where
  id := versionId
  sessionId := draft.request.sessionId
  snapshotId := draft.current.snapshotId
  label := draft.label
  blocks := blocksToJson draft.current.blocks
  documentVersion := draft.current.version
  createdBy := draft.request.actorId
  createdAt := now

/-- The transaction of `create_version`. -/
def insertVersion (draft : VersionDraft) (versionId : UUID) (now : Timestamp)
    (s : Database × List VersionRow) : Except Error (VersionRow × Database × List VersionRow) := do
  let (db, rows) := s
  let roomId ← requireDocumentMember db draft.request.sessionId draft.request.actorId
  -- the driver refuses the label
  require (Char.ofNat 0 ∉ draft.label.toList)
    (.database "PostgreSQL text fields cannot contain NUL (0x00) bytes")
  let rows ← insertUnique (fun a b : VersionRow ↦ a.id = b.id)
    (fun _ ↦ .database "merged_document_version_snapshots_pkey") (draft.row versionId now) rows
  let activity ← record ⟨.mergedDocumentVersionCreated versionId, some draft.request.actorId,
    some roomId, some draft.request.sessionId⟩ [] db.other.activity
  .ok (draft.row versionId now, { db with other := { db.other with activity := activity } }, rows)

/-! ## The editors and the versions -/

structure VersionsState where
  editor : EditorState
  versions : List VersionRow
  /-- The calls that have read the document. -/
  drafts : List VersionDraft

inductive VersionsInput
  /-- A step of the editors, or of anybody else. -/
  | editor (input : EditorInput)
  /-- The reads of a call, with the databases that the statements before and after the row see. -/
  | read (request : VersionRequest) (seen later : Database)
  /-- The transaction of a call, under the id and the time drawn for it. -/
  | insert (draft : VersionDraft) (versionId : UUID) (now : Timestamp)

/-- How a call ends. -/
abbrev VersionsReply := Option (Except Error VersionRow)

variable (reads : MergedDocumentReads)

def readStep (request : VersionRequest) (seen later : Database) (s : VersionsState) :
    VersionsReply × VersionsState :=
  match prepareVersion reads request seen s.editor.db later with
  | .ok draft => (none, { s with drafts := draft :: s.drafts })
  | .error e => (some (.error e), s)

def insertStep (draft : VersionDraft) (versionId : UUID) (now : Timestamp) (s : VersionsState) :
    VersionsReply × VersionsState :=
  let r := transaction (s.editor.db, s.versions)
    (insertVersion draft versionId now (s.editor.db, s.versions))
  (some r.1, ⟨{ s.editor with db := r.2.1 }, r.2.2, s.drafts.erase draft⟩)

/-- Any number of editors and of calls of `create_version`. -/
def versionsMachine : Machine VersionsState VersionsInput VersionsReply where
  enabled s
    | .insert draft _ _ => draft ∈ s.drafts
    | _ => True
  step s
    | .editor input => (none, { s with editor := (editorMachine.step s.editor input).2 })
    | .read request seen later => readStep reads request seen later s
    | .insert draft versionId now => insertStep draft versionId now s

variable {reads}

instance (s : VersionsState) (i : VersionsInput) :
    Decidable ((versionsMachine reads).enabled s i) :=
  match i with
  | .insert draft _ _ => inferInstanceAs (Decidable (draft ∈ s.drafts))
  | .editor _ | .read _ _ _ => .isTrue trivial

/-! ## What a step does -/

theorem insertVersion_eq_ok {draft : VersionDraft} {versionId : UUID} {now : Timestamp}
    {db db' : Database} {rows rows' : List VersionRow} {row : VersionRow}
    (h : insertVersion draft versionId now (db, rows) = .ok (row, db', rows')) :
    row = draft.row versionId now ∧ rows' = rows ++ [row] ∧ (∀ r ∈ rows, r.id ≠ versionId) ∧
      db'.other.mergedDocumentStates = db.other.mergedDocumentStates ∧
      ∃ roomId, requireDocumentMember db draft.request.sessionId draft.request.actorId
        = .ok roomId := by
  obtain ⟨roomId, hmember, h⟩ := bind_eq_ok.mp h
  obtain ⟨-, h⟩ := require_bind_eq_ok.mp h
  obtain ⟨rows₁, hinsert, h⟩ := bind_eq_ok.mp h
  obtain ⟨hfresh, rfl⟩ := insertUnique_eq_ok.mp hinsert
  rw [record_nil, ok_bind] at h
  cases h
  exact ⟨rfl, rfl, hfresh, rfl, roomId, hmember⟩

/-- What one step does to the versions and to those on their way. -/
inductive VersionsMove (reads : MergedDocumentReads) (s : VersionsState) :
    VersionsInput → VersionsState → Prop
  | editor (input : EditorInput) :
      VersionsMove reads s (.editor input)
        { s with editor := (editorMachine.step s.editor input).2 }
  | drafted (request : VersionRequest) (seen later : Database) (draft : VersionDraft)
      (hread : prepareVersion reads request seen s.editor.db later = .ok draft) :
      VersionsMove reads s (.read request seen later) { s with drafts := draft :: s.drafts }
  | refused (request : VersionRequest) (seen later : Database) :
      VersionsMove reads s (.read request seen later) s
  | inserted (draft : VersionDraft) (versionId : UUID) (now : Timestamp) (db : Database)
      (hdraft : draft ∈ s.drafts) (hfresh : ∀ r ∈ s.versions, r.id ≠ versionId)
      (hdocuments : db.other.mergedDocumentStates = s.editor.db.other.mergedDocumentStates)
      (hmember : ∃ roomId, requireDocumentMember s.editor.db draft.request.sessionId
        draft.request.actorId = .ok roomId) :
      VersionsMove reads s (.insert draft versionId now)
        ⟨{ s.editor with db := db }, s.versions ++ [draft.row versionId now], s.drafts.erase draft⟩
  | failed (draft : VersionDraft) (versionId : UUID) (now : Timestamp) :
      VersionsMove reads s (.insert draft versionId now) { s with drafts := s.drafts.erase draft }

/-- **The spec of a step.** -/
theorem move_of_enabled {s : VersionsState} {i : VersionsInput}
    (h : (versionsMachine reads).enabled s i) :
    VersionsMove reads s i ((versionsMachine reads).step s i).2 := by
  cases i with
  | editor input => exact .editor input
  | read request seen later =>
    change VersionsMove reads s _ (readStep reads request seen later s).2
    rw [readStep]
    split
    · next draft hread => exact .drafted request seen later draft hread
    · exact .refused request seen later
  | insert draft versionId now =>
    change VersionsMove reads s _ (insertStep draft versionId now s).2
    rw [insertStep]
    cases hinsert : insertVersion draft versionId now (s.editor.db, s.versions) with
    | error e =>
      rw [transaction_error]
      exact .failed draft versionId now
    | ok r =>
      obtain ⟨row, db, rows⟩ := r
      obtain ⟨rfl, rfl, hfresh, hdocuments, hmember⟩ := insertVersion_eq_ok hinsert
      rw [transaction_ok]
      exact .inserted draft versionId now db h hfresh hdocuments hmember

/-! ## What a run does -/

/-- A document stays as it is or gets a higher number. -/
def Advances (key : DocumentKey) (s s' : VersionsState) : Prop :=
  s'.editor.row key = s.editor.row key ∨
    rowVersion (s.editor.row key) < rowVersion (s'.editor.row key)

theorem Advances.trans {key : DocumentKey} {a b c : VersionsState} (h : Advances key a b)
    (h' : Advances key b c) : Advances key a c := by
  rcases h' with hsame | hlt
  · rw [Advances, hsame]
    exact h
  -- the second part advances, wherever the first has come to
  · rcases h with hsame | hlt'
    · rw [hsame] at hlt
      exact Or.inr hlt
    · exact Or.inr (hlt'.trans hlt)

theorem VersionsMove.advances {s s' : VersionsState} {i : VersionsInput}
    (h : VersionsMove reads s i s') (key : DocumentKey) : Advances key s s' := by
  cases h with
  | editor input => exact (editor_step s.editor input key).version_le
  | drafted | refused | failed => exact Or.inl rfl
  -- an insertion writes a version and no document
  | inserted draft versionId now db hdraft hfresh hdocuments =>
    exact Or.inl (documentRow_congr hdocuments key.1 key.2)

theorem advances_of_run {s : VersionsState} {is : List VersionsInput}
    (h : (versionsMachine reads).Legal s is) (key : DocumentKey) :
    Advances key s ((versionsMachine reads).exec s is) :=
  h.relates (fun _ ↦ Or.inl rfl) (fun h h' ↦ h.trans h')
    fun _ _ hi ↦ (move_of_enabled hi).advances key

/-- The versions are only ever appended to, under new ids. -/
structure Extends (s s' : VersionsState) : Prop where
  kept : s.versions <+: s'.versions
  ids : (s.versions.map (·.id)).Nodup → (s'.versions.map (·.id)).Nodup

theorem Extends.refl (s : VersionsState) : Extends s s := ⟨List.prefix_rfl, id⟩

theorem Extends.trans {a b c : VersionsState} (h : Extends a b) (h' : Extends b c) : Extends a c :=
  ⟨h.kept.trans h'.kept, h'.ids ∘ h.ids⟩

theorem VersionsMove.extends {s s' : VersionsState} {i : VersionsInput}
    (h : VersionsMove reads s i s') : Extends s s' := by
  cases h with
  | editor | drafted | refused | failed => exact ⟨List.prefix_rfl, id⟩
  | inserted draft versionId now db hdraft hfresh =>
    refine ⟨List.prefix_append _ _, fun hnodup ↦ ?_⟩
    rw [List.map_append, List.map_singleton]
    refine hnodup.append (List.nodup_singleton _) ?_
    rintro x hx hnew
    obtain ⟨r, hr, rfl⟩ := List.mem_map.mp hx
    exact hfresh r hr (List.mem_singleton.mp hnew)

theorem extends_of_run {s : VersionsState} {is : List VersionsInput}
    (h : (versionsMachine reads).Legal s is) :
    Extends s ((versionsMachine reads).exec s is) :=
  h.relates Extends.refl (fun h h' ↦ h.trans h') fun _ _ hi ↦ (move_of_enabled hi).extends

/-! ## Where a version comes from -/

/-- A step of the run has read the document for the draft. -/
structure ReadFor (reads : MergedDocumentReads) (s : VersionsState) (is : List VersionsInput)
    (draft : VersionDraft) (before : List VersionsInput) : Prop where
  step : ∃ seen later after, is = before ++ .read draft.request seen later :: after ∧
    prepareVersion reads draft.request seen ((versionsMachine reads).exec s before).editor.db later
      = .ok draft

theorem ReadFor.concat {s : VersionsState} {is before : List VersionsInput} {draft : VersionDraft}
    (h : ReadFor reads s is draft before) (i : VersionsInput) :
    ReadFor reads s (is ++ [i]) draft before := by
  obtain ⟨seen, later, after, rfl, hread⟩ := h.step
  exact ⟨seen, later, after ++ [i], by simp, hread⟩

theorem prepareVersion_eq_ok {request : VersionRequest} {seen db later : Database}
    {draft : VersionDraft} (h : prepareVersion reads request seen db later = .ok draft) :
    draft.request = request ∧ draft.label = strip request.label ∧
      (1 ≤ draft.label.length ∧ draft.label.length ≤ 200) ∧
      getAmong reads request.sessionId request.actorId seen db later = .ok draft.current := by
  obtain ⟨hlabel, h⟩ := require_bind_eq_ok.mp h
  obtain ⟨current, hcurrent, h⟩ := bind_eq_ok.mp h
  cases h
  exact ⟨rfl, rfl, hlabel, hcurrent⟩

/-- Where the drafts and the new versions have come from that a run has led to. -/
structure Traced (reads : MergedDocumentReads) (s : VersionsState) (is : List VersionsInput)
    (t : VersionsState) : Prop where
  drafts : ∀ draft ∈ t.drafts, ∃ before, ReadFor reads s is draft before
  versions : ∀ v ∈ t.versions, v ∈ s.versions ∨ ∃ draft versionId now before,
    v = draft.row versionId now ∧ ReadFor reads s is draft before

/-- The run goes on, and the state keeps its drafts and versions. -/
theorem Traced.concat {s t t' : VersionsState} {is : List VersionsInput}
    (h : Traced reads s is t) (i : VersionsInput) (hdrafts : t'.drafts ⊆ t.drafts)
    (hversions : t'.versions = t.versions) : Traced reads s (is ++ [i]) t' := by
  constructor
  · intro draft hdraft
    obtain ⟨before, hread⟩ := h.drafts draft (hdrafts hdraft)
    exact ⟨before, hread.concat i⟩
  · intro v hv
    rw [hversions] at hv
    rcases h.versions v hv with hold | ⟨draft, versionId, now, before, heq, hread⟩
    · exact Or.inl hold
    · exact Or.inr ⟨draft, versionId, now, before, heq, hread.concat i⟩

theorem VersionsMove.traced {s t t' : VersionsState} {is : List VersionsInput} {i : VersionsInput}
    (h : VersionsMove reads t i t') (ht : t = (versionsMachine reads).exec s is)
    (hs : Traced reads s is t) : Traced reads s (is ++ [i]) t' := by
  cases h with
  | editor input => exact hs.concat _ (List.Subset.refl _) rfl
  | refused => exact hs.concat _ (List.Subset.refl _) rfl
  | failed draft => exact hs.concat _ (List.erase_subset) rfl
  | drafted request seen later draft hread =>
    have hkept : Traced reads s (is ++ [.read request seen later]) t :=
      hs.concat _ (List.Subset.refl _) rfl
    refine ⟨fun d hd ↦ ?_, hkept.versions⟩
    rcases List.mem_cons.mp hd with rfl | hd
    · -- the draft of this very step
      obtain ⟨hrequest, -⟩ := prepareVersion_eq_ok hread
      rw [ht] at hread
      refine ⟨is, ⟨seen, later, [], by rw [hrequest], ?_⟩⟩
      rw [hrequest]
      exact hread
    · exact hkept.drafts d hd
  | inserted draft versionId now db hdraft =>
    have hkept : Traced reads s (is ++ [.insert draft versionId now]) t :=
      hs.concat _ (List.Subset.refl _) rfl
    refine ⟨fun d hd ↦ hkept.drafts d (List.mem_of_mem_erase hd), fun v hv ↦ ?_⟩
    rcases List.mem_append.mp hv with hv | hv
    · exact hkept.versions v hv
    · obtain ⟨before, hread⟩ := hkept.drafts draft hdraft
      exact Or.inr ⟨draft, versionId, now, before, List.mem_singleton.mp hv, hread⟩

/-- By induction on the run, its last step first. -/
theorem traced_of_run {s : VersionsState} {is : List VersionsInput} (hdrafts : s.drafts = [])
    (h : (versionsMachine reads).Legal s is) :
    Traced reads s is ((versionsMachine reads).exec s is) := by
  induction is using List.reverseRecOn with
  | nil =>
    refine ⟨fun draft hdraft ↦ ?_, fun v hv ↦ Or.inl hv⟩
    rw [Machine.exec_nil, hdrafts] at hdraft
    exact nomatch hdraft
  | append_singleton is i ih =>
    obtain ⟨hbefore, hi, -⟩ := Machine.along_append.mp h
    rw [Machine.exec_concat]
    exact (move_of_enabled hi).traced rfl (ih hbefore)

/-! ## What is read of a version -/

/-- The blocks that a member sees of a document, given its row. -/
theorem getAmong_eq_ok {sessionId actorId : UUID} {seen db later : Database}
    {view : MergedDocumentView} (h : getAmong reads sessionId actorId seen db later = .ok view) :
    view.sessionId = sessionId ∧
      (∃ roomId, requireDocumentMember seen sessionId actorId = .ok roomId) ∧
      ((documentRow db sessionId view.snapshotId = none ∧ view.version = 0) ∨
        ∃ row, documentRow db sessionId view.snapshotId = some row ∧ view.version = row.version ∧
          readBlocks reads view.snapshotId row = .ok view.blocks) := by
  obtain ⟨roomId, hmember, h⟩ := bind_eq_ok.mp h
  obtain ⟨identity, -, h⟩ := bind_eq_ok.mp h
  split at h
  · next row hrow =>
    obtain ⟨blocks, hblocks, h⟩ := bind_eq_ok.mp h
    cases h
    exact ⟨rfl, ⟨roomId, hmember⟩, Or.inr ⟨row, hrow, rfl, hblocks⟩⟩
  · next hrow =>
    obtain ⟨blocks, -, h⟩ := bind_eq_ok.mp h
    cases h
    exact ⟨rfl, ⟨roomId, hmember⟩, Or.inl ⟨hrow, rfl⟩⟩

/-- A member to whom the report is the one of the version reads the blocks that were kept. -/
theorem getVersion_of_mem {d : RoomRows} {actorId roomId : UUID} {v : VersionRow}
    {blocks : List MergedDocumentBlock} (hids : (d.versions.map (·.id)).Nodup)
    (hv : v ∈ d.versions) (hblocks : v.blocks = blocksToJson blocks)
    (hmember : requireDocumentMember d.database v.sessionId actorId = .ok roomId)
    (hreport : requireReport d.database v.sessionId = .ok ⟨v.snapshotId⟩) :
    d.getVersion actorId v.sessionId v.id = .ok (v, blocks) := by
  have hfind : d.versions.find? (fun row ↦ row.id = v.id ∧ row.sessionId = v.sessionId ∧
      row.snapshotId = v.snapshotId) = some v := by
    refine (find?_eq_some_of_key hids (k := v.id) fun r hr ↦ ?_).mpr ⟨hv, ?_⟩
    · exact (of_decide_eq_true hr).1
    · exact decide_eq_true ⟨rfl, rfl, rfl⟩
  rw [RoomRows.getVersion, hmember, ok_bind, hreport, ok_bind, hfind]
  dsimp only
  rw [RoomRows.readVersion, hblocks, blocksFromJson_blocksToJson, ok_bind]

/-! ### Two versions of one document -/

/-- The room of the member 3, with a session whose document has been saved once. -/
def namedRooms (versions : List VersionRow) : RoomRows where
  roomMemberships := [⟨10, 3, true, false⟩]
  talkSessions := [⟨20, 10, 3, "topic", .ready, 1, 1, 0⟩]
  submissions := []
  sourceRevisions := []
  sourceAnchors := []
  generationSnapshots := [⟨60, 20, 1, 3, "topic", "v1", "a1"⟩]
  snapshotRevisions := []
  generationRuns := [⟨70, 60, .summary, "p", "m", "1", "v1", .succeeded, none⟩,
    ⟨71, 60, .research, "p", "m", "1", "v1", .succeeded, none⟩]
  generatedDocuments := [⟨⟨80, 70, .summary, ""⟩, []⟩, ⟨⟨81, 71, .research, ""⟩, []⟩]
  generatedSegments := []
  citations := []
  webEvidence := []
  mergedDocumentStates := [⟨20, 60, 1, blocksToJson [.paragraph "b-1" "text" none], 3⟩]
  versions := versions
  reportSuggestions := []

def namedStart : VersionsState := ⟨⟨(namedRooms []).database, []⟩, [], []⟩

def noReads : MergedDocumentReads := ⟨fun _ ↦ .ok [], fun _ ↦ [], fun _ ↦ []⟩

def namedDraft (label : String) : VersionDraft :=
  ⟨⟨20, 3, " " ++ label⟩, label, ⟨20, 60, 1, [.paragraph "b-1" "text" none]⟩⟩

/-- Two calls read the document before either of them inserts its version. -/
def namedSteps : List VersionsInput :=
  [.read ⟨20, 3, " first"⟩ (namedRooms []).database (namedRooms []).database,
    .read ⟨20, 3, " second"⟩ (namedRooms []).database (namedRooms []).database,
    .insert (namedDraft "first") 7 100, .insert (namedDraft "second") 8 101]

def namedVersions : List VersionRow :=
  [(namedDraft "first").row 7 100, (namedDraft "second").row 8 101]

theorem namedSteps_run : (versionsMachine noReads).Legal namedStart namedSteps ∧
    ((versionsMachine noReads).exec namedStart namedSteps).versions = namedVersions := by
  constructor
  · decide +kernel
  · decide +kernel

/-- **A version is what was read.** Every version that a run has made is the copy of what its
creator saw at one step of the run, under the label without the space around it. It is there for
good: at any later time, whoever is a member and has the same report reads exactly those blocks of
it. -/
theorem version_read_back {s : VersionsState} {is : List VersionsInput} {v : VersionRow}
    (hdrafts : s.drafts = []) (hids : (s.versions.map (·.id)).Nodup)
    (h : (versionsMachine reads).Legal s is)
    (hv : v ∈ ((versionsMachine reads).exec s is).versions) (hnew : v ∉ s.versions) :
    ∃ before request seen later after current,
      is = before ++ .read request seen later :: after ∧
      getAmong reads request.sessionId request.actorId seen
        ((versionsMachine reads).exec s before).editor.db later = .ok current ∧
      v.sessionId = request.sessionId ∧ v.createdBy = request.actorId ∧
      v.label = strip request.label ∧ (1 ≤ v.label.length ∧ v.label.length ≤ 200) ∧
      v.snapshotId = current.snapshotId ∧ v.documentVersion = current.version ∧
      ∀ more, (versionsMachine reads).Legal ((versionsMachine reads).exec s is) more →
        ∀ (d : RoomRows) (actorId roomId : UUID),
          d.versions = ((versionsMachine reads).exec s (is ++ more)).versions →
          requireDocumentMember d.database v.sessionId actorId = .ok roomId →
          requireReport d.database v.sessionId = .ok ⟨v.snapshotId⟩ →
          d.getVersion actorId v.sessionId v.id = .ok (v, current.blocks) := by
  rcases (traced_of_run hdrafts h).versions v hv with
    hold | ⟨draft, versionId, now, before, rfl, hread⟩
  · exact absurd hold hnew
  obtain ⟨seen, later, after, hsplit, hprepared⟩ := hread.step
  obtain ⟨-, hlabel, hbounds, hcurrent⟩ := prepareVersion_eq_ok hprepared
  refine ⟨before, draft.request, seen, later, after, draft.current, hsplit, hcurrent, rfl, rfl,
    hlabel, hbounds, rfl, rfl, ?_⟩
  intro more hmore d actorId roomId hversions hmember hreport
  have hlater := (extends_of_run h).trans (extends_of_run hmore)
  rw [← Machine.exec_append] at hlater
  have hkept := (extends_of_run hmore).kept
  rw [← Machine.exec_append] at hkept
  refine getVersion_of_mem ?_ ?_ rfl hmember hreport
  · rw [hversions]
    exact hlater.ids hids
  · rw [hversions]
    exact hkept.subset hv

theorem version_read_back_first : ∃ blocks, (namedRooms namedVersions).getVersion 3 20 7 =
    .ok ((namedDraft "first").row 7 100, blocks) := by
  obtain ⟨hlegal, hversions⟩ := namedSteps_run
  have hv : (namedDraft "first").row 7 100 ∈
      ((versionsMachine noReads).exec namedStart namedSteps).versions := by
    rw [hversions]
    exact List.mem_cons_self
  obtain ⟨_, _, _, _, _, current, -, -, -, -, -, -, -, -, hread⟩ :=
    version_read_back rfl (show (namedStart.versions.map (·.id)).Nodup from List.nodup_nil) hlegal hv
      List.not_mem_nil
  have hmember : requireDocumentMember (namedRooms namedVersions).database 20 3 = .ok 10 := by
    decide +kernel
  have hreport : requireReport (namedRooms namedVersions).database 20 = .ok ⟨60⟩ := by
    decide +kernel
  exact ⟨current.blocks, hread [] trivial (namedRooms namedVersions) 3 10 hversions.symm hmember
    hreport⟩

/-! ## Versions of one number -/

/-- Two reads of one document that find one number find one row. -/
theorem blocks_eq_of_earlier {s : VersionsState} {is before before' : List VersionsInput}
    {draft draft' : VersionDraft} (h : (versionsMachine reads).Legal s is)
    (hread : ReadFor reads s is draft before) (hread' : ReadFor reads s is draft' before')
    (hinitial : before <+: before')
    (hdocument : draft'.request.sessionId = draft.request.sessionId ∧
      draft'.current.snapshotId = draft.current.snapshotId)
    (hnumber : draft'.current.version = draft.current.version) (hpos : 0 < draft.current.version) :
    draft'.current.blocks = draft.current.blocks := by
  obtain ⟨seen, later, after, -, hprepared⟩ := hread.step
  obtain ⟨seen', later', after', hsplit', hprepared'⟩ := hread'.step
  obtain ⟨-, -, -, hcurrent⟩ := prepareVersion_eq_ok hprepared
  obtain ⟨-, -, -, hcurrent'⟩ := prepareVersion_eq_ok hprepared'
  obtain ⟨-, -, ⟨-, hzero⟩ | ⟨row, hrow, hversion, hblocks⟩⟩ := getAmong_eq_ok hcurrent
  · exact absurd hzero hpos.ne'
  obtain ⟨-, -, ⟨-, hzero⟩ | ⟨row', hrow', hversion', hblocks'⟩⟩ := getAmong_eq_ok hcurrent'
  · exact absurd hzero (hnumber ▸ hpos.ne')
  rw [hdocument.1, hdocument.2] at hrow'
  rw [hdocument.2] at hblocks'
  obtain ⟨between, rfl⟩ := hinitial
  -- the steps between the two reads
  have hbetween :
      (versionsMachine reads).Legal ((versionsMachine reads).exec s before) between := by
    rw [hsplit'] at h
    exact (Machine.along_append.mp (Machine.along_append.mp h).1).2
  have hsame : row' = row := by
    have hadvances := advances_of_run hbetween (draft.request.sessionId, draft.current.snapshotId)
    rw [← Machine.exec_append] at hadvances
    have hrow₁ : ((versionsMachine reads).exec s before).editor.row
        (draft.request.sessionId, draft.current.snapshotId) = some row := hrow
    have hrow₂ : ((versionsMachine reads).exec s (before ++ between)).editor.row
        (draft.request.sessionId, draft.current.snapshotId) = some row' := hrow'
    rw [Advances, hrow₁, hrow₂] at hadvances
    rcases hadvances with heq | hlt
    · exact Option.some.inj heq
    · have hle : row'.version = row.version := hversion'.symm.trans (hnumber.trans hversion)
      exact absurd hle hlt.ne'
  rw [hsame] at hblocks'
  exact Except.ok.inj (hblocks'.symm.trans hblocks)

/-- **A number names one content.** However saves, reads and inserts interleave, two versions of one
document that carry the same number, from the first save on, hold the same blocks. -/
theorem versions_agree {s : VersionsState} {is : List VersionsInput} {v w : VersionRow}
    (hdrafts : s.drafts = []) (hversions : s.versions = [])
    (h : (versionsMachine reads).Legal s is)
    (hv : v ∈ ((versionsMachine reads).exec s is).versions)
    (hw : w ∈ ((versionsMachine reads).exec s is).versions)
    (hdocument : v.sessionId = w.sessionId ∧ v.snapshotId = w.snapshotId)
    (hnumber : v.documentVersion = w.documentVersion) (hpos : 0 < v.documentVersion) :
    v.blocks = w.blocks := by
  have htraced := traced_of_run hdrafts h
  have hmade : ∀ x ∈ ((versionsMachine reads).exec s is).versions, ∃ draft versionId now before,
      x = draft.row versionId now ∧ ReadFor reads s is draft before := by
    intro x hx
    rcases htraced.versions x hx with hold | hmade
    · rw [hversions] at hold
      exact nomatch hold
    · exact hmade
  obtain ⟨draft, versionId, now, before, rfl, hread⟩ := hmade v hv
  obtain ⟨draft', versionId', now', before', rfl, hread'⟩ := hmade w hw
  have hinitial : before <+: is := by
    obtain ⟨seen, later, after, hsplit, -⟩ := hread.step
    exact ⟨_, hsplit.symm⟩
  have hinitial' : before' <+: is := by
    obtain ⟨seen, later, after, hsplit, -⟩ := hread'.step
    exact ⟨_, hsplit.symm⟩
  have hblocks : draft.current.blocks = draft'.current.blocks := by
    rcases List.prefix_or_prefix_of_prefix hinitial hinitial' with hle | hle
    · exact (blocks_eq_of_earlier h hread hread' hle ⟨hdocument.1.symm, hdocument.2.symm⟩
        hnumber.symm hpos).symm
    · exact blocks_eq_of_earlier h hread' hread hle hdocument hnumber (hpos.trans_eq hnumber)
  exact congrArg blocksToJson hblocks

theorem versions_agree_second :
    ((namedDraft "first").row 7 100).blocks = ((namedDraft "second").row 8 101).blocks := by
  obtain ⟨hlegal, hversions⟩ := namedSteps_run
  refine versions_agree rfl rfl hlegal ?_ ?_ ⟨rfl, rfl⟩ rfl (by decide)
  · rw [hversions]
    exact List.mem_cons_self
  · rw [hversions]
    exact List.mem_cons_of_mem _ List.mem_cons_self

end Versions

end MeetingRag
