import MeetingRag.Documents.Concurrency

/-!
# Saves and generations

A member edits what a read returned. A save carries the version of that read, but not its snapshot: it
asks for the latest report of the session again. When the next generation got its report in between, the
save looks at the row of that generation, where the versions start over.

Here the members are at their editors while the system goes on behind them. A save takes up to three
steps, each of which sees what was committed before it: it looks up the snapshot, it locks the row and
replaces it, and where it has found no row it inserts one.
-/

open Outcome Table Text

namespace MeetingRag

/-! ## Members and the system -/

/-- A save under way: the read it is based on, and what it has looked up. -/
structure LocatedSave where
  read : MergedDocumentView
  actorId : UUID
  blocks : List MergedDocumentBlock
  roomId : UUID
  snapshotId : UUID
deriving DecidableEq, Repr

/-- What the editor sends. The snapshot of the read is not in it. -/
def saveRequest (read : MergedDocumentView) (actorId : UUID) (blocks : List MergedDocumentBlock) :
    SaveRequest :=
  ⟨read.sessionId, actorId, read.version, blocks⟩

def LocatedSave.request (save : LocatedSave) : SaveRequest :=
  saveRequest save.read save.actorId save.blocks

/-- A save that is over, with the read it was based on. -/
structure MemberSave where
  read : MergedDocumentView
  finished : FinishedSave

/-- The system, what members have read and have not saved since, and their saves under way. -/
structure MembersState where
  system : SystemState
  seen : List MergedDocumentView
  located : List LocatedSave
  inserting : List LocatedSave

inductive MemberInput
  | system (input : SystemInput)
  | read (reads : MergedDocumentReads) (sessionId actorId : UUID)
  /-- A save begins, and looks up the report. -/
  | locate (read : MergedDocumentView) (actorId : UUID) (blocks : List MergedDocumentBlock)
  | lock (save : LocatedSave)
  | insert (save : LocatedSave)

namespace MembersState

variable (s : MembersState)

def row (key : DocumentKey) : Option MergedDocumentState := documentRow s.system.db key.1 key.2

def withDb (db : Database) : MembersState := { s with system := { s.system with db := db } }

/-- `GET`, or the reply to a save: a member has the document on the screen. -/
def sees (view : MergedDocumentView) : MembersState := { s with seen := view :: s.seen }

/-- The document as a member reads it. -/
def read (reads : MergedDocumentReads) (sessionId actorId : UUID) : Option MemberSave × MembersState :=
  match getMergedDocument reads sessionId actorId s.system.db with
  | .ok view => (none, s.sees view)
  | .error _ => (none, s)

/-- `_require_member` and `load_report_identity`. -/
def locate (read : MergedDocumentView) (actorId : UUID) (blocks : List MergedDocumentBlock) :
    Option MemberSave × MembersState :=
  if read ∈ s.seen then
    match locateSave (saveRequest read actorId blocks) s.system.db with
    | .ok (roomId, snapshotId) =>
      (none, { s with located := ⟨read, actorId, blocks, roomId, snapshotId⟩ :: s.located })
    -- refused before it looked at a document
    | .error _ => (none, s)
  else (none, s)

/-- The end of a save, with what it leaves to do. -/
def finish (save : LocatedSave) (found : ℕ) (r : Except Error MergedDocumentView × Database) :
    Option MemberSave × MembersState :=
  let after := s.withDb r.2
  let seen := match r.1 with
    | .ok view => view :: s.seen
    | .error _ => s.seen
  (some ⟨save.read, save.request, save.snapshotId, found, r.1⟩, { after with seen := seen })

/-- `SELECT version … FOR UPDATE`, and the `UPDATE` where there is a row. -/
def lock (save : LocatedSave) : Option MemberSave × MembersState :=
  if save ∈ s.located then
    let rest := { s with located := s.located.erase save }
    let found := rowVersion (s.row (save.read.sessionId, save.snapshotId))
    match lockSave save.request save.roomId save.snapshotId s.system.db with
    | .error e => rest.finish save found (.error e, s.system.db)
    | .ok (.saved view, db) => rest.finish save found (.ok view, db)
    | .ok (.inserting _, _) => (none, { rest with inserting := save :: rest.inserting })
  else (none, s)

/-- The `INSERT` of a save that found no row, so that the version it carries is 0. -/
def insert (save : LocatedSave) : Option MemberSave × MembersState :=
  if save ∈ s.inserting then
    let rest := { s with inserting := s.inserting.erase save }
    if first : save.request.expectedVersion = 0 then
      rest.finish save 0 (transaction s.system.db
        (insertSave ⟨save.request, save.roomId, save.snapshotId, first⟩ s.system.db))
    else (none, rest)
  else (none, s)

end MembersState

/-- Any number of members at their editors, with the system behind them. -/
def membersMachine : Machine MembersState MemberInput (Option MemberSave) where
  enabled s
    | .system input => systemMachine.enabled s.system input
    | _ => True
  step s
    | .system input => (none, { s with system := (systemMachine.step s.system input).2 })
    | .read reads sessionId actorId => s.read reads sessionId actorId
    | .locate read actorId blocks => s.locate read actorId blocks
    | .lock save => s.lock save
    | .insert save => s.insert save

instance (s : MembersState) (i : MemberInput) : Decidable (membersMachine.enabled s i) :=
  match i with
  | .system input => inferInstanceAs (Decidable (systemMachine.enabled s.system input))
  | .read .. | .locate .. | .lock .. | .insert .. => .isTrue trivial

/-- No session, and nobody at an editor. -/
def emptyMembers (now : Timestamp) : MembersState := ⟨emptySystem now, [], [], []⟩

/-! ## Where a save is stored -/

/-- The save has left its blocks in the row of this snapshot and every other document as it was. -/
structure StoredIn (snapshotId : UUID) (m : MemberSave) (s s' : MembersState) : Prop where
  succeeded : m.finished.Succeeded
  written : ∃ row, s'.row (m.read.sessionId, snapshotId) = some row ∧
    row.version = rowVersion (s.row (m.read.sessionId, snapshotId)) + 1 ∧
    row.blocks = blocksToJson m.finished.request.blocks
  others : ∀ key ≠ (m.read.sessionId, snapshotId), s'.row key = s.row key

/-- The save has failed, and left every document as it was. -/
structure Rejected (m : MemberSave) (s s' : MembersState) : Prop where
  failed : ¬m.finished.Succeeded
  others : ∀ key, s'.row key = s.row key

/-- Every save of a run is stored in the snapshot of the read it is based on, or rejected. -/
def SavesStay (s : MembersState) (is : List MemberInput) : Prop :=
  membersMachine.Along (fun s i ↦ ∀ m, (membersMachine.step s i).1 = some m →
    StoredIn m.read.snapshotId m s (membersMachine.step s i).2 ∨
      Rejected m s (membersMachine.step s i).2) s is

/-- A save that has looked up another report than the one its member read finds the version it carries
there: a row with that version, or no row and version 0. -/
def VersionsCoincide (s : MembersState) : MemberInput → Prop
  | .lock save => save ∈ s.located ∧ save.snapshotId ≠ save.read.snapshotId ∧
    ∃ row ∈ s.row (save.read.sessionId, save.snapshotId), row.version = save.read.version
  | .insert save => save ∈ s.inserting ∧ save.snapshotId ≠ save.read.snapshotId ∧
    save.read.version = 0 ∧ s.row (save.read.sessionId, save.snapshotId) = none
  | _ => False

instance (s : MembersState) (i : MemberInput) : Decidable (VersionsCoincide s i) := by
  unfold VersionsCoincide
  split <;> infer_instance

/-! ## The steps of a save -/

section Steps

variable {s : MembersState} {m : MemberSave}

/-- How a save ends in the snapshot it has looked up. -/
def Ends (m : MemberSave) (s s' : MembersState) : Prop :=
  StoredIn m.finished.snapshotId m s s' ∨ Rejected m s s'

theorem storedIn_of_move {save : LocatedSave} {rest : MembersState} {found : ℕ}
    {view : MergedDocumentView} {db' : Database}
    (hmove : ∀ key, DocumentMove key (some ⟨save.request, save.snapshotId, found, .ok view⟩) (s.row key)
      (documentRow db' key.1 key.2)) :
    StoredIn save.snapshotId ⟨save.read, save.request, save.snapshotId, found, .ok view⟩ s
      (rest.finish save found (.ok view, db')).2 where
  succeeded := trivial
  written := by
    cases hmove (save.read.sessionId, save.snapshotId) with
    | kept quiet _ => exact absurd trivial (quiet _ rfl rfl)
    | saved f finished _ _ _ written =>
      obtain rfl := Option.some.inj finished
      exact written
    | inserted quiet _ _ => exact nomatch quiet
  others := by
    intro key hkey
    cases hmove key with
    | kept _ same => exact same
    | saved f finished document _ _ _ =>
      obtain rfl := Option.some.inj finished
      exact absurd document.symm hkey
    | inserted quiet _ _ => exact nomatch quiet

theorem ends_lock {save : LocatedSave} (h : (s.lock save).1 = some m) : Ends m s (s.lock save).2 := by
  rw [MembersState.lock] at h ⊢
  split at h
  · next hmem =>
    rw [if_pos hmem]
    dsimp only at h ⊢
    split at h
    · next e hlock =>
      obtain rfl := Option.some.inj h
      exact Or.inr ⟨id, fun key ↦ rfl⟩
    · next view db hlock =>
      obtain rfl := Option.some.inj h
      refine Or.inl (storedIn_of_move fun key ↦ ?_)
      rcases lockSave_eq_ok hlock with ⟨-, ⟨first, heq⟩, -⟩ | ⟨row, view', hrow, hupdate, heq⟩
      · exact nomatch heq
      · cases heq
        have hfound : rowVersion (s.row (save.read.sessionId, save.snapshotId)) = row.version :=
          congrArg rowVersion hrow
        rw [hfound]
        exact updateSave_move hrow hupdate
    · exact nomatch h
  · exact nomatch h

theorem ends_insert {save : LocatedSave} (h : (s.insert save).1 = some m) :
    Ends m s (s.insert save).2 := by
  rw [MembersState.insert] at h ⊢
  split at h
  · next hmem =>
    rw [if_pos hmem]
    dsimp only at h ⊢
    split at h
    · next first =>
      rw [dif_pos first]
      obtain rfl := Option.some.inj h
      cases hinsert : insertSave ⟨save.request, save.roomId, save.snapshotId, first⟩ s.system.db with
      | error e => exact Or.inr ⟨id, fun key ↦ rfl⟩
      | ok r => exact Or.inl (storedIn_of_move fun key ↦ insertSave_move hinsert)
    · cases h
  · cases h

theorem read_quiet {reads : MergedDocumentReads} {sessionId actorId : UUID} :
    (membersMachine.step s (.read reads sessionId actorId)).1 = none := by
  change (s.read reads sessionId actorId).1 = none
  rw [MembersState.read]
  split <;> rfl

theorem locate_quiet {read : MergedDocumentView} {actorId : UUID} {blocks : List MergedDocumentBlock} :
    (membersMachine.step s (.locate read actorId blocks)).1 = none := by
  change (s.locate read actorId blocks).1 = none
  rw [MembersState.locate]
  split
  · split <;> rfl
  · rfl

/-- **How a save ends.** -/
theorem membersMachine_ends {i : MemberInput} (h : (membersMachine.step s i).1 = some m) :
    Ends m s (membersMachine.step s i).2 := by
  cases i with
  | system input => exact nomatch h
  | read reads sessionId actorId => exact nomatch read_quiet.symm.trans h
  | locate read actorId blocks => exact nomatch locate_quiet.symm.trans h
  | lock save => exact ends_lock h
  | insert save => exact ends_insert h

/-- A save that goes through has found the version it carries. -/
theorem versionsCoincide_of_lock {save : LocatedSave} (h : (s.lock save).1 = some m)
    (hsucceeded : m.finished.Succeeded) (hother : m.finished.snapshotId ≠ m.read.snapshotId) :
    VersionsCoincide s (.lock save) := by
  rw [MembersState.lock] at h
  split at h
  · next hmem =>
    dsimp only at h
    split at h
    · next e hlock =>
      obtain rfl := Option.some.inj h
      exact absurd hsucceeded id
    · next view db hlock =>
      obtain rfl := Option.some.inj h
      rcases lockSave_eq_ok hlock with ⟨-, ⟨first, heq⟩, -⟩ | ⟨row, view', hrow, hupdate, heq⟩
      · exact nomatch heq
      · obtain ⟨hversion, -⟩ := require_bind_eq_ok.mp hupdate
        exact ⟨hmem, hother, row, hrow, Int.ofNat_inj.mp hversion⟩
    · exact nomatch h
  · exact nomatch h

theorem versionsCoincide_of_insert {save : LocatedSave} (h : (s.insert save).1 = some m)
    (hsucceeded : m.finished.Succeeded) (hother : m.finished.snapshotId ≠ m.read.snapshotId) :
    VersionsCoincide s (.insert save) := by
  rw [MembersState.insert] at h
  split at h
  · next hmem =>
    dsimp only at h
    split at h
    · next first =>
      obtain rfl := Option.some.inj h
      refine ⟨hmem, hother, Int.ofNat_eq_zero.mp first, ?_⟩
      by_contra hrow
      have hlost := @insertSave_of_row s.system.db ⟨save.request, save.roomId, save.snapshotId, first⟩ hrow
      dsimp only [MembersState.finish] at hsucceeded
      rw [hlost] at hsucceeded
      exact hsucceeded
    · cases h
  · cases h

/-- **A save that finds its version in another generation goes through.** -/
theorem VersionsCoincide.stored {i : MemberInput} (h : VersionsCoincide s i) :
    ∃ m, (membersMachine.step s i).1 = some m ∧ m.finished.Succeeded ∧
      m.finished.snapshotId ≠ m.read.snapshotId := by
  cases i with
  | lock save =>
    obtain ⟨hmem, hother, row, hrow, hversion⟩ := h
    obtain ⟨view, db', hupdate⟩ := @exists_updateSave s.system.db save.request save.roomId row
      (congrArg Nat.cast hversion)
    have hlock : lockSave save.request save.roomId save.snapshotId s.system.db =
        .ok (.saved view, db') := by
      rw [lockSave, show documentRow s.system.db save.request.sessionId save.snapshotId = some row from hrow]
      dsimp only
      rw [hupdate, ok_bind]
    change ∃ m, (s.lock save).1 = some m ∧ _
    rw [MembersState.lock, if_pos hmem]
    dsimp only
    rw [hlock]
    exact ⟨_, rfl, trivial, hother⟩
  | insert save =>
    obtain ⟨hmem, hother, hversion, hrow⟩ := h
    have first : save.request.expectedVersion = 0 := congrArg Nat.cast hversion
    obtain ⟨view, db', hinsert⟩ :=
      @exists_insertSave s.system.db ⟨save.request, save.roomId, save.snapshotId, first⟩ hrow
    change ∃ m, (s.insert save).1 = some m ∧ _
    rw [MembersState.insert, if_pos hmem]
    dsimp only
    rw [dif_pos first, hinsert]
    exact ⟨_, rfl, trivial, hother⟩
  | system input => exact h.elim
  | read reads sessionId actorId => exact h.elim
  | locate read actorId blocks => exact h.elim

/-- One step keeps a save in its generation unless the versions coincide. -/
theorem stays_step_iff (s : MembersState) (i : MemberInput) :
    (∀ m, (membersMachine.step s i).1 = some m →
      StoredIn m.read.snapshotId m s (membersMachine.step s i).2 ∨
        Rejected m s (membersMachine.step s i).2) ↔ ¬VersionsCoincide s i := by
  constructor
  · intro hstays hcoincide
    obtain ⟨m, hstep, hsucceeded, hother⟩ := hcoincide.stored
    rcases membersMachine_ends hstep with hends | hrejected
    · rcases hstays m hstep with hstored | hrejected
      · -- the row of the other generation would have kept its version and moved it
        obtain ⟨row, hrow, hversion, -⟩ := hends.written
        rw [hstored.others _ fun hkey ↦ hother (Prod.mk.inj hkey).2] at hrow
        rw [hrow, rowVersion] at hversion
        exact absurd hversion (Nat.succ_ne_self _).symm
      · exact hrejected.failed hsucceeded
    · exact hrejected.failed hsucceeded
  · intro hcoincide m hstep
    rcases membersMachine_ends hstep with hends | hrejected
    · by_cases hsame : m.finished.snapshotId = m.read.snapshotId
      · exact Or.inl (hsame ▸ hends)
      · refine absurd ?_ hcoincide
        cases i with
        | lock save => exact versionsCoincide_of_lock hstep hends.succeeded hsame
        | insert save => exact versionsCoincide_of_insert hstep hends.succeeded hsame
        | system input => exact nomatch hstep
        | read reads sessionId actorId => exact absurd hstep (ne_of_eq_of_ne read_quiet (nomatch ·))
        | locate read actorId blocks =>
          exact absurd hstep (ne_of_eq_of_ne locate_quiet (nomatch ·))
    · exact Or.inr hrejected

end Steps

/-- **When saves stay in their generation.** However reads and saves interleave with the rest of the
system: every save is stored in the snapshot of the read it is based on or rejected, if and only if no
save that has looked up another report finds the version it carries there. -/
theorem savesStay_iff (s : MembersState) (is : List MemberInput) :
    SavesStay s is ↔ membersMachine.Along (fun s i ↦ ¬VersionsCoincide s i) s is :=
  ⟨fun h ↦ h.mono fun s i ↦ (stays_step_iff s i).mp, fun h ↦ h.mono fun s i ↦ (stays_step_iff s i).mpr⟩

/-! ## An edit of the generation before -/

/-- What the automatic writer makes of a generation. -/
def finalBlocksOf (text : String) : List MergedDocumentBlock :=
  [.paragraph "ai-0" text none, .heading "source-coverage-heading" .one "업로드 문서 전체 내용" none]

/-- The lease of the comparison of the generation drawn from `n` on. -/
def comparisonLease (n : ℕ) : ClaimedJob JobDocument where
  id := ⟨n + 23⟩
  logicalKey := reportKey (drawsFrom n).snapshotId "p1"
  kind := .reportSuggestions
  payload := .generation (drawsFrom n).snapshotId .reportSuggestions "p1"
  owner := "worker"
  leaseGeneration := 1
  leaseToken := ⟨n + 30⟩
  attemptId := ⟨n + 31⟩

/-- A generation, drawn from `n` on: both lanes succeed, and the comparison writes its document. -/
def generated (n time : ℕ) (text : String) : List SystemInput :=
  [ callAt time (closeCall n),
    callAt (time + 1) (claimCall "summary" (n + 10)),
    callAt (time + 2) (.completeLane (laneLease n .summary 1 (n + 10)) (resultFor (n + 12)) ⟨n + 13⟩
      ⟨n + 14⟩),
    callAt (time + 3) (claimCall "research" (n + 20)),
    callAt (time + 4) (.completeLane (laneLease n .research 1 (n + 20)) (resultFor (n + 21)) ⟨n + 22⟩
      ⟨n + 23⟩),
    callAt (time + 5) (claimCall "report_suggestions" (n + 30)),
    callAt (time + 6) (.completeSuggestions (comparisonLease n)
      (.executed 3 2 1 [] (blocksToJson (finalBlocksOf text))) ⟨n + 32⟩) ]

/-- The read of the first generation, under the version that the automatic writer gives every row. -/
def firstRead : MergedDocumentView := ⟨3, 100, 1, finalBlocksOf "first"⟩

/-- The save of the member who edits it, when the second generation is there. -/
def lateSave : LocatedSave := ⟨firstRead, 1, finalBlocksOf "edited", 2, 200⟩

/-- A member reads the first generation, the host reopens the session and closes it again, and the member
saves an edit. -/
def editsFirst : List MemberInput :=
  ([callAt 0 (.elsewhere oneReadyRevision), callAt 1 (.createTalkSession 3 1 2 "topic")] ++
      generated 100 2 "first").map .system ++
    .read noSources 3 1 :: (callAt 9 (.reopen 3 1) :: generated 200 10 "second").map .system ++
    [.locate firstRead 1 (finalBlocksOf "edited")]

/-- An edit of the first generation is written over the document of the second. -/
theorem save_crosses_generations :
    ¬∀ now is, membersMachine.Legal (emptyMembers now) is → SavesStay (emptyMembers now) is := by
  intro h
  have hstays := h 0 (editsFirst ++ [.lock lateSave]) (by decide +kernel)
  have hlast := Machine.along_iff.mp hstays editsFirst (.lock lateSave) [] rfl
  exact (stays_step_iff _ _).mp hlast (by decide +kernel)

end MeetingRag
