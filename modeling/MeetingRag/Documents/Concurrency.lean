import MeetingRag.Documents.RoundTrip

/-!
# Concurrent saves of the merged document

Any number of members save the same document while the automatic writer inserts it and the rest of
the application goes on. A save that finds a row has locked it and is one step. A save that finds
none goes on to its `INSERT` in a second step, and other people's steps come in between.

On every run the versions of a document are a strict order of what was saved: each successful save
carries the version it replaces and moves it by one, and a version names one list of blocks. What
does not hold on every run is that a save which comes second says so. The second of two first saves
runs into the unique constraint and leaves with a database error.
-/

open Outcome Table Text

namespace MeetingRag

/-! ## The editor -/

/-- The session and the snapshot of a document. -/
abbrev DocumentKey := UUID × UUID

/-- The database, and the saves that have found no row. -/
structure EditorState where
  db : Database
  inFlight : List PendingInsert

def EditorState.row (s : EditorState) (key : DocumentKey) : Option MergedDocumentState :=
  documentRow s.db key.1 key.2

/-- The version of a row, 0 where there is none. -/
def rowVersion : Option MergedDocumentState → ℕ
  | none => 0
  | some row => row.version

/-- A save that is over, with the version it found. -/
structure FinishedSave where
  request : SaveRequest
  snapshotId : UUID
  found : ℕ
  result : Except Error MergedDocumentView

namespace FinishedSave

variable (f : FinishedSave)

def key : DocumentKey := (f.request.sessionId, f.snapshotId)

def Succeeded : Prop :=
  match f.result with
  | .ok _ => True
  | .error _ => False

/-- The save raised `MergedDocumentStaleVersionError`. -/
def RaisedStale : Prop :=
  match f.result with
  | .error (.mergedDocumentStaleVersion _) => True
  | _ => False

instance : DecidablePred Succeeded := fun f ↦ by
  unfold Succeeded
  split <;> infer_instance

instance : DecidablePred RaisedStale := fun f ↦ by
  unfold RaisedStale
  split <;> infer_instance

/-- The other save is about the same document and carries the same version. -/
def Rival (g : FinishedSave) : Prop :=
  g.key = f.key ∧ g.request.expectedVersion = f.request.expectedVersion

instance : DecidablePred f.Rival := fun g ↦ inferInstanceAs
  (Decidable (g.key = f.key ∧ g.request.expectedVersion = f.request.expectedVersion))

end FinishedSave

/-- What may happen next. -/
inductive EditorInput
  /-- A save, with the database as it was when the save asked for its snapshot. -/
  | save (request : SaveRequest) (seen : Database)
  /-- The `INSERT` of a save in flight. -/
  | insert (pending : PendingInsert)
  /-- The insert of the automatic writer. -/
  | automatic (execution : AutomaticSuggestionExecution)
  /-- Everybody else, who leaves the documents alone. -/
  | elsewhere (db : Database)

namespace EditorState

/-- A save up to its end, or to its `INSERT`. -/
def save (s : EditorState) (request : SaveRequest) (seen : Database) :
    Option FinishedSave × EditorState :=
  match locateSave request seen with
  -- refused before it looked at a document
  | .error _ => (none, s)
  | .ok (roomId, snapshotId) =>
    let found := rowVersion (s.row (request.sessionId, snapshotId))
    match lockSave request roomId snapshotId s.db with
    | .error e => (some ⟨request, snapshotId, found, .error e⟩, s)
    | .ok (.saved view, db) => (some ⟨request, snapshotId, found, .ok view⟩, { s with db := db })
    | .ok (.inserting pending, _) => (none, { s with inFlight := pending :: s.inFlight })

/-- The `INSERT` of a save that found no row. -/
def insert (s : EditorState) (pending : PendingInsert) : Option FinishedSave × EditorState :=
  if pending ∈ s.inFlight then
    let r := transaction s.db (insertSave pending s.db)
    (some ⟨pending.request, pending.snapshotId, 0, r.1⟩, ⟨r.2, s.inFlight.erase pending⟩)
  else (none, s)

end EditorState

/-- Any number of members at one editor. -/
def editorMachine : Machine EditorState EditorInput (Option FinishedSave) where
  enabled _ _ := True
  step s
    | .save request seen => s.save request seen
    | .insert pending => s.insert pending
    | .automatic execution => (none, { s with db := execution.insertMerged s.db })
    | .elsewhere db => (none, { s with db := withDocuments s.db.other.mergedDocumentStates db })

/-- The saves that a run has brought to their end. -/
def finishedSaves (s : EditorState) (is : List EditorInput) : List FinishedSave :=
  (editorMachine.history s is).filterMap (·.2)

/-- A save is about to insert a row that is there by now. -/
def LostInsert (s : EditorState) : EditorInput → Prop
  | .insert pending =>
    pending ∈ s.inFlight ∧ s.row (pending.request.sessionId, pending.snapshotId) ≠ none
  | _ => False

instance (s : EditorState) : DecidablePred (LostInsert s) := fun i ↦ by
  unfold LostInsert
  split <;> infer_instance

/-! ## What a step does to a document -/

/-- What a step has done to one document, with the save that it finished. -/
inductive DocumentMove (key : DocumentKey) (o : Option FinishedSave)
    (row row' : Option MergedDocumentState) : Prop
  | kept (quiet : ∀ f ∈ o, f.key = key → ¬f.Succeeded) (same : row' = row)
  | saved (f : FinishedSave) (finished : o = some f) (document : f.key = key) (success : f.Succeeded)
      (read : f.request.expectedVersion = rowVersion row)
      (written : ∃ r, row' = some r ∧ r.version = rowVersion row + 1 ∧
        r.blocks = blocksToJson f.request.blocks)
  | inserted (quiet : o = none) (absent : row = none) (written : ∃ r, row' = some r ∧ r.version = 1)

section Rows

variable {db db' : Database} {request : SaveRequest} {view : MergedDocumentView} {key : DocumentKey}

/-- An insert leaves the other documents alone. -/
theorem find?_append_singleton {rows : List MergedDocumentState} {row : MergedDocumentState}
    {p : MergedDocumentState → Bool} (h : p row = false) : (rows ++ [row]).find? p = rows.find? p := by
  rw [List.find?_append, List.find?_cons_of_neg (by rw [h]; exact Bool.false_ne_true)]
  exact Option.or_none

theorem updateSave_move {roomId snapshotId : UUID} {row : MergedDocumentState}
    (hrow : documentRow db request.sessionId snapshotId = some row)
    (h : updateSave request roomId row db = .ok (view, db')) :
    DocumentMove key (some ⟨request, snapshotId, row.version, .ok view⟩)
      (documentRow db key.1 key.2) (documentRow db' key.1 key.2) := by
  obtain ⟨-, hsnapshot⟩ := documentRow_key hrow
  have hleaves := updateSave_leaves hrow h
  obtain ⟨hexpected, h⟩ := require_bind_eq_ok.mp h
  obtain ⟨db₁, hrecord, h⟩ := bind_eq_ok.mp h
  cases h
  by_cases hkey : (request.sessionId, snapshotId) = key
  · subst hkey
    refine .saved _ rfl rfl trivial (by rw [hrow]; exact hexpected.symm) ?_
    obtain ⟨r, hr, hversion, hblocks⟩ := hleaves.row
    rw [hsnapshot] at hr
    exact ⟨r, hr, by rw [hrow]; exact hversion, hblocks⟩
  · refine .kept (fun f hf hfkey ↦ absurd ?_ hkey) ?_
    · cases hf
      exact hfkey
    · rw [documentRow_congr (recordSaved_documents hrecord), documentRow_withDocuments]
      refine find?_updateWhere_of_disjoint fun r hr ↦ ?_
      have hne : ¬(r.sessionId = key.1 ∧ r.snapshotId = key.2) := by
        rintro ⟨h₁, h₂⟩
        exact hkey (Prod.ext (hr.1.symm.trans h₁) ((hr.2.trans hsnapshot).symm.trans h₂))
      exact ⟨decide_eq_false hne, decide_eq_false hne⟩

theorem insertSave_move {pending : PendingInsert}
    (h : insertSave pending db = .ok (view, db')) :
    DocumentMove key (some ⟨pending.request, pending.snapshotId, 0, .ok view⟩)
      (documentRow db key.1 key.2) (documentRow db' key.1 key.2) := by
  have hleaves := insertSave_leaves h
  obtain ⟨rows, hinsert, h⟩ := bind_eq_ok.mp h
  obtain ⟨hfresh, rfl⟩ := insertUnique_eq_ok.mp hinsert
  obtain ⟨db₁, hrecord, h⟩ := bind_eq_ok.mp h
  cases h
  by_cases hkey : (pending.request.sessionId, pending.snapshotId) = key
  · subst hkey
    have hnone : documentRow db pending.request.sessionId pending.snapshotId = none := by
      rw [documentRow, List.find?_eq_none]
      exact fun r hr hclash ↦ hfresh r hr (of_decide_eq_true hclash)
    obtain ⟨r, hr, hversion, hblocks⟩ := hleaves.row
    refine .saved _ rfl rfl trivial ?_ ⟨r, hr, ?_, hblocks⟩
    · rw [hnone]
      exact pending.first
    · rw [hnone]
      exact hversion
  · refine .kept (fun f hf hfkey ↦ absurd ?_ hkey) ?_
    · cases hf
      exact hfkey
    · rw [documentRow_congr (recordSaved_documents hrecord), documentRow_withDocuments]
      refine find?_append_singleton (decide_eq_false ?_)
      rintro ⟨h₁, h₂⟩
      exact hkey (Prod.ext h₁ h₂)

theorem insertMerged_move (execution : AutomaticSuggestionExecution) :
    DocumentMove key none (documentRow db key.1 key.2)
      (documentRow (execution.insertMerged db) key.1 key.2) := by
  have hquiet : ∀ f ∈ (none : Option FinishedSave), f.key = key → ¬f.Succeeded := fun _ h ↦ nomatch h
  rw [AutomaticSuggestionExecution.insertMerged]
  split
  · exact .kept hquiet rfl
  set new : MergedDocumentState := ⟨execution.sessionId, execution.snapshotId, 1,
    execution.finalBlocks, execution.authorId⟩ with hnew
  change DocumentMove key none _ (documentRow (withDocuments
    (insertIgnore mergedDocumentsClash new db.other.mergedDocumentStates) db) key.1 key.2)
  rw [documentRow_withDocuments]
  by_cases hclash : ∃ r ∈ db.other.mergedDocumentStates, mergedDocumentsClash r new
  · rw [insertIgnore_of_clash hclash]
    exact .kept hquiet rfl
  · have hfresh : ∀ r ∈ db.other.mergedDocumentStates, ¬mergedDocumentsClash r new :=
      fun r hr h ↦ hclash ⟨r, hr, h⟩
    rw [insertIgnore_of_fresh hfresh]
    by_cases hkey : new.sessionId = key.1 ∧ new.snapshotId = key.2
    · have hnone : db.other.mergedDocumentStates.find?
          (fun r ↦ decide (r.sessionId = key.1 ∧ r.snapshotId = key.2)) = none := by
        rw [List.find?_eq_none]
        intro r hr hrow
        obtain ⟨h₁, h₂⟩ := of_decide_eq_true hrow
        exact hfresh r hr ⟨h₁.trans hkey.1.symm, h₂.trans hkey.2.symm⟩
      refine .inserted rfl hnone ⟨new, ?_, rfl⟩
      rw [List.find?_append, hnone, Option.none_or]
      exact List.find?_cons_of_pos (decide_eq_true hkey)
    · exact .kept hquiet (find?_append_singleton (decide_eq_false hkey))

/-- A save that carries the version of the row replaces it. -/
theorem exists_updateSave {roomId : UUID} {row : MergedDocumentState}
    (h : (row.version : ℤ) = request.expectedVersion) :
    ∃ view db', updateSave request roomId row db = .ok (view, db') := by
  obtain ⟨db', hrecord⟩ := exists_recordSaved request roomId row.snapshotId (row.version + 1)
    (withDocuments (updateWhere
      (fun r ↦ r.sessionId = request.sessionId ∧ r.snapshotId = row.snapshotId)
      (savedRow request) db.other.mergedDocumentStates) db)
  rw [updateSave, require_of h, ok_bind]
  dsimp only
  rw [hrecord, ok_bind]
  exact ⟨_, _, rfl⟩

/-- A save that finds another version than the one it carries is stale, and nothing else stops it. -/
theorem lockSave_eq_error {roomId snapshotId : UUID} {e : Error}
    (h : lockSave request roomId snapshotId db = .error e) :
    e = .mergedDocumentStaleVersion "stale merged document version" ∧
      (rowVersion (documentRow db request.sessionId snapshotId) : ℤ) ≠ request.expectedVersion := by
  rw [lockSave] at h
  split at h
  · next hnone =>
    split at h
    · cases h
    · next hexpected =>
      rw [hnone]
      exact ⟨(Except.error.inj h).symm, fun heq ↦ hexpected heq.symm⟩
  · next row hrow =>
    rw [hrow]
    by_cases hversion : (row.version : ℤ) = request.expectedVersion
    · obtain ⟨view, db', hupdate⟩ := @exists_updateSave db _ roomId _ hversion
      rw [hupdate, ok_bind] at h
      cases h
    · rw [updateSave, require_of_not hversion, error_bind, error_bind] at h
      exact ⟨(Except.error.inj h).symm, hversion⟩

theorem documentRow_eq_none {sessionId snapshotId : UUID} :
    documentRow db sessionId snapshotId = none ↔ ∀ r ∈ db.other.mergedDocumentStates,
      ¬(r.sessionId = sessionId ∧ r.snapshotId = snapshotId) := by
  rw [documentRow, List.find?_eq_none]
  exact forall₂_congr fun r _ ↦ not_congr decide_eq_true_iff

/-- An `INSERT` goes through when there is no row. -/
theorem exists_insertSave {pending : PendingInsert}
    (h : documentRow db pending.request.sessionId pending.snapshotId = none) :
    ∃ view db', insertSave pending db = .ok (view, db') := by
  have hfresh := documentRow_eq_none.mp h
  obtain ⟨db', hrecord⟩ := exists_recordSaved pending.request pending.roomId pending.snapshotId 1
    (withDocuments (db.other.mergedDocumentStates ++ [pending.row]) db)
  rw [insertSave, @insertUnique_of_fresh _ _ mergedDocumentsClash _ _ _ _ hfresh, ok_bind, hrecord,
    ok_bind]
  exact ⟨_, _, rfl⟩

/-- It runs into the unique constraint when there is one. -/
theorem insertSave_of_row {pending : PendingInsert}
    (h : documentRow db pending.request.sessionId pending.snapshotId ≠ none) :
    insertSave pending db =
      .error (.database "merged_document_states_session_id_snapshot_id_key") := by
  rw [ne_eq, documentRow_eq_none] at h
  push Not at h
  obtain ⟨r, hr, hclash⟩ := h
  rw [insertSave, insertUnique, if_pos ⟨r, hr, hclash⟩, error_bind]

end Rows

/-- **One step of the editor, seen from one document.** -/
theorem editor_step (s : EditorState) (i : EditorInput) (key : DocumentKey) :
    DocumentMove key (editorMachine.step s i).1 (s.row key) ((editorMachine.step s i).2.row key) := by
  have hquiet : ∀ f ∈ (none : Option FinishedSave), f.key = key → ¬f.Succeeded := fun _ h ↦ nomatch h
  cases i with
  | save request seen =>
    change DocumentMove key (s.save request seen).1 _ ((s.save request seen).2.row key)
    rw [EditorState.save]
    split
    · exact .kept hquiet rfl
    · next roomId snapshotId hlocate =>
      dsimp only
      split
      · refine .kept (fun f hf _ ↦ ?_) rfl
        cases hf
        exact id
      · next view db hlock =>
        rcases lockSave_eq_ok hlock with ⟨-, ⟨first, heq⟩, -⟩ | ⟨row, view', hrow, hupdate, heq⟩
        · exact nomatch heq
        · cases heq
          rw [EditorState.row, hrow]
          exact updateSave_move hrow hupdate
      · exact .kept hquiet rfl
  | insert pending =>
    change DocumentMove key (s.insert pending).1 _ ((s.insert pending).2.row key)
    rw [EditorState.insert]
    split
    · dsimp only
      cases hinsert : insertSave pending s.db with
      | error e =>
        refine .kept (fun f hf _ ↦ ?_) rfl
        cases hf
        exact id
      | ok r => exact insertSave_move hinsert
    · exact .kept hquiet rfl
  | automatic execution => exact insertMerged_move execution
  | elsewhere db => exact .kept hquiet rfl

/-! ## How a save ends -/

/-- A save that did not find the version it carries is stale, and every other one succeeds unless it
loses its `INSERT`. -/
inductive SaveEnd (s : EditorState) (i : EditorInput) (f : FinishedSave) : Prop
  | succeeded (h : f.Succeeded)
  | stale (h : f.RaisedStale) (other : (f.found : ℤ) ≠ f.request.expectedVersion)
  | lost (h : LostInsert s i) (failed : ¬f.Succeeded) (unsettled : ¬f.RaisedStale)

theorem editor_saveEnd {s : EditorState} {i : EditorInput} {f : FinishedSave}
    (h : (editorMachine.step s i).1 = some f) : SaveEnd s i f := by
  cases i with
  | save request seen =>
    change (s.save request seen).1 = some f at h
    rw [EditorState.save] at h
    split at h
    · exact nomatch h
    · next roomId snapshotId hlocate =>
      dsimp only at h
      split at h
      · next e hlock =>
        obtain ⟨rfl, hother⟩ := lockSave_eq_error hlock
        obtain rfl := Option.some.inj h
        exact .stale trivial hother
      · obtain rfl := Option.some.inj h
        exact .succeeded trivial
      · exact nomatch h
  | insert pending =>
    change (s.insert pending).1 = some f at h
    rw [EditorState.insert] at h
    split at h
    · next hmem =>
      obtain rfl := Option.some.inj h
      by_cases hrow : documentRow s.db pending.request.sessionId pending.snapshotId = none
      · obtain ⟨view, db', hinsert⟩ := exists_insertSave hrow
        rw [hinsert, transaction_ok]
        exact .succeeded trivial
      · rw [insertSave_of_row hrow, transaction_error]
        exact .lost ⟨hmem, hrow⟩ id id
    · exact nomatch h
  | automatic execution => exact nomatch h
  | elsewhere db => exact nomatch h

/-- A lost `INSERT` ends a save, neither in success nor in staleness. -/
theorem LostInsert.finished {s : EditorState} {i : EditorInput} (h : LostInsert s i) :
    ∃ f, (editorMachine.step s i).1 = some f ∧ ¬f.Succeeded ∧ ¬f.RaisedStale := by
  cases i with
  | insert pending =>
    obtain ⟨hmem, hrow⟩ := h
    change ∃ f, (s.insert pending).1 = some f ∧ _
    rw [EditorState.insert, if_pos hmem, insertSave_of_row hrow, transaction_error]
    exact ⟨_, rfl, id, id⟩
  | save request seen => exact h.elim
  | automatic execution => exact h.elim
  | elsewhere db => exact h.elim

/-! ## Versions along a run -/

section Versions

variable {key : DocumentKey} {s : EditorState} {is : List EditorInput} {f : FinishedSave}

theorem DocumentMove.version_le {o : Option FinishedSave} {row row' : Option MergedDocumentState}
    (h : DocumentMove key o row row') : row' = row ∨ rowVersion row < rowVersion row' := by
  cases h with
  | kept quiet same => exact Or.inl same
  | saved f finished document success read written =>
    obtain ⟨r, rfl, hversion, -⟩ := written
    exact Or.inr (Nat.lt_of_lt_of_eq (Nat.lt_succ_self (rowVersion row)) hversion.symm)
  | inserted quiet absent written =>
    obtain ⟨r, rfl, hversion⟩ := written
    subst absent
    exact Or.inr (Nat.lt_of_lt_of_eq Nat.one_pos hversion.symm)

/-- Along a run a document stays as it is or gets a higher version. -/
theorem exec_row (s : EditorState) (is : List EditorInput) (key : DocumentKey) :
    (editorMachine.exec s is).row key = s.row key ∨
      rowVersion (s.row key) < rowVersion ((editorMachine.exec s is).row key) := by
  induction is generalizing s with
  | nil => exact Or.inl rfl
  | cons i is ih =>
    have hstep := (editor_step s i key).version_le
    rw [Machine.exec_cons]
    rcases ih (editorMachine.step s i).2 with hrest | hrest
    · rw [hrest]
      exact hstep
    · rcases hstep with hstep | hstep
      · rw [hstep] at hrest
        exact Or.inr hrest
      · exact Or.inr (hstep.trans hrest)

theorem finishedSaves_cons (s : EditorState) (i : EditorInput) (is : List EditorInput) :
    finishedSaves s (i :: is) =
      (editorMachine.step s i).1.toList ++ finishedSaves (editorMachine.step s i).2 is := by
  rw [finishedSaves, finishedSaves, Machine.history, List.filterMap_cons]
  cases (editorMachine.step s i).1 <;> rfl

/-- What a successful step has done to its document. -/
theorem editor_success {i : EditorInput} (h : (editorMachine.step s i).1 = some f)
    (hf : f.Succeeded) :
    f.request.expectedVersion = rowVersion (s.row f.key) ∧
      rowVersion ((editorMachine.step s i).2.row f.key) = rowVersion (s.row f.key) + 1 := by
  cases editor_step s i f.key with
  | kept quiet same => exact absurd hf (quiet f h rfl)
  | saved g finished document success read written =>
    obtain rfl := Option.some.inj (h.symm.trans finished)
    obtain ⟨r, hr, hversion, -⟩ := written
    exact ⟨read, by rw [hr]; exact hversion⟩
  | inserted quiet absent written => exact nomatch h.symm.trans quiet

/-- A later success carries a later version. -/
theorem version_le_of_success (hf : f ∈ finishedSaves s is) (hs : f.Succeeded) :
    (rowVersion (s.row f.key) : ℤ) ≤ f.request.expectedVersion := by
  induction is generalizing s with
  | nil => exact nomatch hf
  | cons i is ih =>
    rw [finishedSaves_cons, List.mem_append] at hf
    rcases hf with hf | hf
    · exact (editor_success (Option.mem_toList.mp hf) hs).1.ge
    · have hstep : rowVersion (s.row f.key) ≤
          rowVersion ((editorMachine.step s i).2.row f.key) := by
        rcases (editor_step s i f.key).version_le with hsame | hlt
        · rw [hsame]
        · exact hlt.le
      exact (Int.ofNat_le.mpr hstep).trans (ih hf)

/-- The saves of a run that succeeded with one version of one document. -/
def winners (f : FinishedSave) (s : EditorState) (is : List EditorInput) : ℕ :=
  (finishedSaves s is).countP fun g ↦ g.Succeeded ∧ f.Rival g

/-- **No two saves succeed with the same version.** -/
theorem winners_le_one (f : FinishedSave) (s : EditorState) (is : List EditorInput) :
    winners f s is ≤ 1 := by
  induction is generalizing s with
  | nil => exact Nat.zero_le 1
  | cons i is ih =>
    rw [winners, finishedSaves_cons, List.countP_append]
    cases hstep : (editorMachine.step s i).1 with
    | none => exact (Nat.zero_add _).le.trans (ih _)
    | some g =>
      by_cases hg : g.Succeeded ∧ f.Rival g
      · -- every later success carries a later version
        have hlater : (finishedSaves (editorMachine.step s i).2 is).countP
            (fun g ↦ g.Succeeded ∧ f.Rival g) = 0 := by
          rw [List.countP_eq_zero]
          intro k hk hwins
          obtain ⟨hsucceeded, hrival⟩ := of_decide_eq_true hwins
          obtain ⟨hread, hwritten⟩ := editor_success hstep hg.1
          have hle := version_le_of_success hk hsucceeded
          rw [hrival.1, ← hg.2.1, hwritten, hrival.2, ← hg.2.2, hread] at hle
          exact absurd hle (by omega)
        rw [hlater, Nat.add_zero]
        exact List.countP_le_length
      · have hhead : (some g).toList.countP (fun g ↦ g.Succeeded ∧ f.Rival g) = 0 := by
          rw [Option.toList_some, List.countP_singleton, if_neg (by simpa using hg)]
        rw [hhead, Nat.zero_add]
        exact ih _

end Versions

/-! ## Optimistic concurrency -/

/-- The saves of a run as the members see them. -/
structure Optimistic (s : EditorState) (is : List EditorInput) : Prop where
  /-- A save that does not succeed is stale. -/
  settled : ∀ f ∈ finishedSaves s is, f.Succeeded ∨ f.RaisedStale
  atMostOne : ∀ f ∈ finishedSaves s is, winners f s is ≤ 1
  /-- Where a save has found the version it carries, one of the saves with this version succeeds. -/
  exactlyOne : ∀ f ∈ finishedSaves s is, (f.found : ℤ) = f.request.expectedVersion →
    winners f s is = 1
  /-- A success carries the version it replaces and moves it by one, and apart from the insert of the
  automatic writer into no row nothing else moves a document. -/
  moves : editorMachine.Along (fun s i ↦ ∀ key,
    DocumentMove key (editorMachine.step s i).1 (s.row key) ((editorMachine.step s i).2.row key)) s is
  /-- Whoever has read a version has read the row that a save with this version replaces. -/
  read : ∀ before between after, is = before ++ between ++ after → ∀ key,
    rowVersion ((editorMachine.exec s (before ++ between)).row key) =
      rowVersion ((editorMachine.exec s before).row key) →
    (editorMachine.exec s (before ++ between)).row key = (editorMachine.exec s before).row key

/-- A finished save is the end of some step of the run. -/
theorem exists_step_of_finished {s : EditorState} {is : List EditorInput} {f : FinishedSave}
    (h : f ∈ finishedSaves s is) : ∃ before i after, is = before ++ i :: after ∧
      (editorMachine.step (editorMachine.exec s before) i).1 = some f := by
  obtain ⟨⟨i, o⟩, hmem, ho⟩ := List.mem_filterMap.mp h
  obtain ⟨before, after, hsplit, hstep⟩ := Machine.mem_history.mp hmem
  exact ⟨before, i, after, hsplit, hstep ▸ ho⟩

/-- **Optimistic concurrency, exactly.** However saves, automatic inserts and the rest of the
application interleave: the saves of a run are those of an optimistic protocol if and only if no save
that has found no row comes to its `INSERT` when the row is there. -/
theorem optimistic_iff (s : EditorState) (is : List EditorInput) :
    Optimistic s is ↔ editorMachine.Along (fun s i ↦ ¬LostInsert s i) s is := by
  constructor
  · intro h
    rw [Machine.along_iff]
    rintro before i after rfl hlost
    obtain ⟨f, hstep, hfailed, hunsettled⟩ := hlost.finished
    have hmem : f ∈ finishedSaves s (before ++ i :: after) :=
      List.mem_filterMap.mpr ⟨_, Machine.mem_history.mpr ⟨before, after, rfl, rfl⟩, hstep⟩
    exact (h.settled f hmem).elim hfailed hunsettled
  · intro h
    rw [Machine.along_iff] at h
    have hend : ∀ f ∈ finishedSaves s is,
        f.Succeeded ∨ (f.RaisedStale ∧ (f.found : ℤ) ≠ f.request.expectedVersion) := by
      intro f hf
      obtain ⟨before, i, after, hsplit, hstep⟩ := exists_step_of_finished hf
      cases editor_saveEnd hstep with
      | succeeded hsucceeded => exact Or.inl hsucceeded
      | stale hstale hother => exact Or.inr ⟨hstale, hother⟩
      | lost hlost failed unsettled => exact absurd hlost (h before i after hsplit)
    refine ⟨fun f hf ↦ (hend f hf).imp_right And.left, fun f _ ↦ winners_le_one f s is, ?_, ?_, ?_⟩
    · intro f hf hfound
      have hsucceeded := (hend f hf).resolve_right fun hstale ↦ hstale.2 hfound
      refine le_antisymm (winners_le_one f s is) (List.countP_pos_iff.mpr ⟨f, hf, ?_⟩)
      exact decide_eq_true ⟨hsucceeded, rfl, rfl⟩
    · exact Machine.along_iff.mpr fun before i _ _ ↦ editor_step _ i
    · intro before between after _ key hversion
      rw [Machine.exec_append] at hversion ⊢
      rcases exec_row (editorMachine.exec s before) between key with hrow | hlt
      · exact hrow
      · exact absurd hversion hlt.ne'

/-- Two members make the first edit at the same time. -/
def firstEdits : List EditorInput :=
  [.save (keptParagraph "b-p-0-0") reportedDatabase, .save (keptParagraph "b-p-0-1") reportedDatabase,
    .insert (keptInsert "b-p-0-0"), .insert (keptInsert "b-p-0-1")]

/-- The second of two first saves is neither a success nor stale. -/
theorem first_edits_collide : ¬∀ s is, Optimistic s is := by
  intro h
  have hsaves := (h ⟨reportedDatabase, []⟩ firstEdits).settled
  exact absurd hsaves (by decide +kernel)

end MeetingRag
