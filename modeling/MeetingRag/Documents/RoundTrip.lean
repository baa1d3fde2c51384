import MeetingRag.Documents.Service
import MeetingRag.System.SuggestionPoll

/-!
# Saving and reading back

A save leaves one row, and the row spells the blocks that were saved. Reading it back gives the same
blocks unless the read adds to them: a document with a block of the provider and without the heading
of the source section gets that section appended, also when its author has removed the heading.
-/

open Outcome Table Text

namespace MeetingRag

/-! ## What a save leaves -/

/-- A save that has committed: it replaced the row it had locked, or it had found none at `start` and
inserted the first one. -/
inductive CommittedSave (request : SaveRequest) (view : MergedDocumentView) (db db' : Database) :
    Prop
  | updated (h : beginSave request db = .ok (.saved view, db'))
  | inserted (pending : PendingInsert) (start : Database)
      (hbegin : beginSave request start = .ok (.inserting pending, start))
      (h : insertSave pending db = .ok (view, db'))

section Committed

variable {request : SaveRequest} {view : MergedDocumentView} {db db' : Database}

theorem recordSaved_documents {roomId snapshotId : UUID} {version : ℕ}
    (h : recordSaved request roomId snapshotId version db = .ok db') :
    db'.other.mergedDocumentStates = db.other.mergedDocumentStates := by
  rw [recordSaved, record_nil, ok_bind] at h
  cases h
  rfl

/-- The event has no effects, so recording it never fails. -/
theorem exists_recordSaved (request : SaveRequest) (roomId snapshotId : UUID) (version : ℕ)
    (db : Database) : ∃ db', recordSaved request roomId snapshotId version db = .ok db' := by
  rw [recordSaved, record_nil, ok_bind]
  exact ⟨_, rfl⟩

theorem documentRow_key {sessionId snapshotId : UUID} {row : MergedDocumentState}
    (h : documentRow db sessionId snapshotId = some row) :
    row.sessionId = sessionId ∧ row.snapshotId = snapshotId := by
  have hkey := List.find?_some h
  simpa using hkey

theorem documentRow_withDocuments (rows : List MergedDocumentState) (sessionId snapshotId : UUID) :
    documentRow (withDocuments rows db) sessionId snapshotId =
      rows.find? fun row ↦ row.sessionId = sessionId ∧ row.snapshotId = snapshotId := rfl

theorem documentRow_congr (h : db'.other.mergedDocumentStates = db.other.mergedDocumentStates)
    (sessionId snapshotId : UUID) :
    documentRow db' sessionId snapshotId = documentRow db sessionId snapshotId := by
  rw [documentRow, documentRow, h]

/-- What is left of a document that a save has written. -/
structure Leaves (request : SaveRequest) (view : MergedDocumentView) (db : Database) : Prop where
  sessionId : view.sessionId = request.sessionId
  blocks : view.blocks = request.blocks
  row : ∃ row, documentRow db view.sessionId view.snapshotId = some row ∧
    row.version = view.version ∧ row.blocks = blocksToJson request.blocks

/-- A save that replaces a row leaves its blocks in it. -/
theorem updateSave_leaves {roomId snapshotId : UUID} {row : MergedDocumentState}
    (hrow : documentRow db request.sessionId snapshotId = some row)
    (h : updateSave request roomId row db = .ok (view, db')) : Leaves request view db' := by
  obtain ⟨-, hsnapshot⟩ := documentRow_key hrow
  obtain ⟨-, h⟩ := require_bind_eq_ok.mp h
  obtain ⟨db₁, hrecord, h⟩ := bind_eq_ok.mp h
  cases h
  refine ⟨rfl, rfl, savedRow request row, ?_, rfl, rfl⟩
  rw [documentRow_congr (recordSaved_documents hrecord), documentRow_withDocuments]
  refine find?_updateWhere (fun r hr ↦ hr) ?_
  rw [hsnapshot]
  exact hrow

/-- A save that inserts the first row leaves its blocks in it. -/
theorem insertSave_leaves {pending : PendingInsert}
    (h : insertSave pending db = .ok (view, db')) : Leaves pending.request view db' := by
  obtain ⟨rows, hinsert, h⟩ := bind_eq_ok.mp h
  obtain ⟨hfresh, rfl⟩ := insertUnique_eq_ok.mp hinsert
  obtain ⟨db₁, hrecord, h⟩ := bind_eq_ok.mp h
  cases h
  refine ⟨rfl, rfl, pending.row, ?_, rfl, rfl⟩
  rw [documentRow_congr (recordSaved_documents hrecord), documentRow_withDocuments]
  have hnone : db.other.mergedDocumentStates.find?
      (fun row ↦ row.sessionId = pending.request.sessionId ∧ row.snapshotId = pending.snapshotId) =
        none := by
    rw [List.find?_eq_none]
    intro r hr hkey
    exact hfresh r hr (of_decide_eq_true hkey)
  rw [List.find?_append, hnone, Option.none_or]
  exact List.find?_cons_of_pos (decide_eq_true ⟨rfl, rfl⟩)

/-- What a save does with the row it looks for: it replaces it, or finds none and leaves the database
alone. -/
theorem lockSave_eq_ok {roomId snapshotId : UUID} {progress : SaveProgress}
    (h : lockSave request roomId snapshotId db = .ok (progress, db')) :
    (documentRow db request.sessionId snapshotId = none ∧
        (∃ first, progress = .inserting ⟨request, roomId, snapshotId, first⟩) ∧ db' = db) ∨
      ∃ row view, documentRow db request.sessionId snapshotId = some row ∧
        updateSave request roomId row db = .ok (view, db') ∧ progress = .saved view := by
  rw [lockSave] at h
  split at h
  · next hnone =>
    split at h
    · next first =>
      cases h
      exact Or.inl ⟨hnone, ⟨first, rfl⟩, rfl⟩
    · exact nomatch h
  · next row hrow =>
    obtain ⟨⟨view, db₁⟩, hupdate, h⟩ := bind_eq_ok.mp h
    cases h
    exact Or.inr ⟨row, view, hrow, hupdate, rfl⟩

/-- **A save leaves its blocks**, under the version it returns. -/
theorem CommittedSave.leaves (h : CommittedSave request view db db') : Leaves request view db' := by
  cases h with
  | updated h =>
    obtain ⟨⟨roomId, snapshotId⟩, -, h⟩ := bind_eq_ok.mp h
    rcases lockSave_eq_ok h with ⟨-, ⟨first, heq⟩, -⟩ | ⟨row, view', hrow, hupdate, heq⟩
    · exact nomatch heq
    · cases heq
      exact updateSave_leaves hrow hupdate
  | inserted pending start hbegin h =>
    obtain ⟨⟨roomId, snapshotId⟩, -, hbegin⟩ := bind_eq_ok.mp hbegin
    rcases lockSave_eq_ok hbegin with ⟨-, ⟨first, heq⟩, -⟩ | ⟨row, view', hrow, hupdate, heq⟩
    · cases heq
      exact insertSave_leaves h
    · exact nomatch heq

end Committed

/-! ## What a read adds -/

section Read

variable {reads : MergedDocumentReads} {snapshotId : UUID} {row : MergedDocumentState}
  {blocks : List MergedDocumentBlock}

/-- The source section is never empty. -/
theorem coverage_ne_nil {documents : List SnapshotDocument} {coverage : List MergedDocumentBlock}
    (h : blocksFromJson (buildSourceCoverageBlocks documents) = .ok coverage) : coverage ≠ [] := by
  rintro rfl
  have hlength := (mapM_eq_ok.mp h).length_eq
  exact nomatch hlength

/-- A row that spells `blocks` is read as `blocks` exactly when nothing is appended. -/
theorem readBlocks_eq_iff (h : row.blocks = blocksToJson blocks) :
    readBlocks reads snapshotId row = .ok blocks ↔ ¬LacksCoverage blocks := by
  rw [readBlocks, h, blocksFromJson_blocksToJson, ok_bind]
  by_cases hlacks : LacksCoverage blocks
  · rw [if_pos hlacks]
    refine iff_of_false (fun hread ↦ ?_) (not_not.mpr hlacks)
    obtain ⟨coverage, hcoverage, hread⟩ := bind_eq_ok.mp hread
    obtain ⟨-, hread⟩ := require_bind_eq_ok.mp hread
    have hnil := List.append_right_eq_self.mp (Except.ok.inj hread)
    exact coverage_ne_nil hcoverage hnil
  · rw [if_neg hlacks]
    exact iff_of_true rfl hlacks

end Read

/-! ## The round trip -/

theorem requireReport_eq_ok {db : Database} {sessionId : UUID} {identity : IntegratedReportIdentity} :
    requireReport db sessionId = .ok identity ↔
      loadReportIdentity db sessionId = some identity := by
  rw [requireReport]
  cases loadReportIdentity db sessionId with
  | none => exact iff_of_false (fun h ↦ nomatch h) fun h ↦ nomatch h
  | some i => rw [Except.ok.injEq, Option.some.injEq]

/-- A member reads the document that a save has written: the reader is a member of the session, and
its report is still that of the snapshot the save was for. -/
structure ReadsSaved (view : MergedDocumentView) (actorId : UUID) (db : Database) : Prop where
  member : ∃ roomId, requireDocumentMember db view.sessionId actorId = .ok roomId
  report : loadReportIdentity db view.sessionId = some ⟨view.snapshotId⟩

/-- **Saving and reading back.** After a save, and as long as no other save has touched its row, a
read returns the saved document, with its blocks in their order and its version, exactly when it
reads that document and the blocks do not lack the source section: none of them is a block of the
provider, or one of them is the heading of the section. -/
theorem get_save_iff {reads : MergedDocumentReads} {request : SaveRequest}
    {view : MergedDocumentView} {before saved db : Database} {actorId : UUID}
    (hsave : CommittedSave request view before saved)
    (hrow : documentRow db view.sessionId view.snapshotId =
      documentRow saved view.sessionId view.snapshotId) :
    getMergedDocument reads view.sessionId actorId db = .ok view ↔
      ReadsSaved view actorId db ∧ ¬LacksCoverage request.blocks := by
  obtain ⟨-, hblocks, row, hfound, hversion, hspelled⟩ := hsave.leaves
  rw [hfound] at hrow
  have hread : readBlocks reads view.snapshotId row = .ok view.blocks ↔
      ¬LacksCoverage request.blocks := by
    rw [hblocks]
    exact readBlocks_eq_iff hspelled
  constructor
  · intro hget
    obtain ⟨roomId, hmember, hget⟩ := bind_eq_ok.mp hget
    obtain ⟨identity, hreport, hget⟩ := bind_eq_ok.mp hget
    -- the read reports the snapshot whose row it has looked up
    have hsnapshot : identity.snapshotId = view.snapshotId := by
      split at hget
      all_goals
        obtain ⟨blocks, -, hget⟩ := bind_eq_ok.mp hget
        exact congrArg MergedDocumentView.snapshotId (Except.ok.inj hget)
    obtain ⟨snapshotId⟩ := identity
    obtain rfl : snapshotId = view.snapshotId := hsnapshot
    refine ⟨⟨⟨roomId, hmember⟩, requireReport_eq_ok.mp hreport⟩, hread.mp ?_⟩
    dsimp only at hget
    rw [hrow] at hget
    obtain ⟨blocks, hblocks', hget⟩ := bind_eq_ok.mp hget
    rw [hblocks', ← congrArg MergedDocumentView.blocks (Except.ok.inj hget)]
  · rintro ⟨⟨⟨roomId, hmember⟩, hreport⟩, hcovered⟩
    rw [getMergedDocument, hmember, ok_bind, requireReport_eq_ok.mpr hreport, ok_bind]
    dsimp only
    rw [hrow]
    dsimp only
    rw [hread.mpr hcovered, ok_bind, hversion]

/-! ## A removed heading -/

/-- The author keeps one paragraph of the document. -/
def keptParagraph (id : String) : SaveRequest where
  sessionId := 3
  actorId := 1
  expectedVersion := 0
  blocks := [.paragraph id "edited" none]

/-- A report whose sources have no eligible anchor. -/
def noSources : MergedDocumentReads where
  sections _ := .ok []
  anchorTitles _ := []
  snapshotDocuments _ := []

/-- The database in which both documents of the first generation are there. -/
def reportedDatabase : Database := (systemMachine.exec (emptySystem 0) comparisonPending).db

/-- The insert of the kept paragraph. -/
def keptInsert (id : String) : PendingInsert := ⟨keptParagraph id, 2, 100, rfl⟩

def keptView (id : String) : MergedDocumentView := ⟨3, 100, 1, (keptParagraph id).blocks⟩

/-- The database after that insert. -/
def keptDatabase (id : String) : Database :=
  match insertSave (keptInsert id) reportedDatabase with
  | .ok (_, db) => db
  | .error _ => reportedDatabase

/-- An author who keeps one block of the provider and nothing else gets the source section back. -/
theorem removed_section_comes_back :
    ¬∀ reads request view before saved db actorId,
      CommittedSave request view before saved →
        documentRow db view.sessionId view.snapshotId =
          documentRow saved view.sessionId view.snapshotId →
        ReadsSaved view actorId db → getMergedDocument reads view.sessionId actorId db = .ok view := by
  intro h
  have hsave : CommittedSave (keptParagraph "ai-1") (keptView "ai-1") reportedDatabase
      (keptDatabase "ai-1") :=
    .inserted (keptInsert "ai-1") reportedDatabase (by decide +kernel) (by decide +kernel)
  have hreads : ReadsSaved (keptView "ai-1") 1 (keptDatabase "ai-1") :=
    ⟨⟨2, by decide +kernel⟩, by decide +kernel⟩
  exact absurd (h noSources _ _ _ _ _ 1 hsave rfl hreads) (by decide +kernel)

theorem get_save_iff_keptParagraph :
    getMergedDocument noSources (keptView "b-p-0-0").sessionId 1 (keptDatabase "b-p-0-0") =
        .ok (keptView "b-p-0-0") ↔
      ReadsSaved (keptView "b-p-0-0") 1 (keptDatabase "b-p-0-0") ∧
        ¬LacksCoverage (keptParagraph "b-p-0-0").blocks := by
  have hsave : CommittedSave (keptParagraph "b-p-0-0") (keptView "b-p-0-0") reportedDatabase
      (keptDatabase "b-p-0-0") :=
    .inserted (keptInsert "b-p-0-0") reportedDatabase (by decide +kernel) (by decide +kernel)
  exact get_save_iff hsave rfl

end MeetingRag
