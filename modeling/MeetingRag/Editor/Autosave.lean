import MeetingRag.Documents.Concurrency
import MeetingRag.Editor.Changes
import MeetingRag.Library.Machine

/-!
# Autosave

The editor keeps three copies of the merged document: the blocks on the screen, the cached answer of
the server with its version, and the blocks of every save that is on its way. A save carries the
cached version. Its reply puts the blocks *it carried* into the cache, and a cached version other than
the one last seen replaces the blocks on the screen.

## What can go wrong

A reply finds newer text on the screen than it carries, and that text is gone. Two saves are on their
way with one version, and the second is refused. An accepted suggestion changes the blocks and leaves
the indicator at "saved". A slow answer to a refetch takes the cache back to a version that has passed.

The invariant for the versions is `CallStatus`: as long as nobody else writes there is at most one save
on its way, and what is known of it places the version of the server.
-/

open Outcome Text

namespace MeetingRag

/-! ## The server -/

/-- The document as the server holds it, or as an answer of it says. -/
structure ServerDocument where
  version : ℕ
  blocks : List MergedDocumentBlock
deriving DecidableEq, Repr

/-- The reply to a `PUT`. -/
inductive SaveReply
  | saved (version : ℕ)
  | stale
  | refused
deriving DecidableEq, Repr

/-- `MergedDocumentService.save` for a member of the room. -/
def ServerDocument.save (d : ServerDocument) (expectedVersion : ℕ)
    (blocks : List MergedDocumentBlock) : SaveReply × ServerDocument :=
  if blocks = [] then (.refused, d)
  else if d.version = expectedVersion then (.saved (d.version + 1), ⟨d.version + 1, blocks⟩)
  else (.stale, d)

/-- The rows of the database hold a document: the version in its row, or the first one, which is
drawn from the summary and has no row yet. -/
def HoldsDocument (db : Database) (sessionId snapshotId : UUID) (d : ServerDocument) : Prop :=
  rowVersion (documentRow db sessionId snapshotId) = d.version ∧
    ∀ row ∈ documentRow db sessionId snapshotId, row.blocks = blocksToJson d.blocks

theorem updateSave_view {db db' : Database} {request : SaveRequest} {roomId : UUID}
    {row : MergedDocumentState} {view : MergedDocumentView}
    (h : updateSave request roomId row db = .ok (view, db')) :
    view = ⟨request.sessionId, row.snapshotId, row.version + 1, request.blocks⟩ ∧
      (row.version : ℤ) = request.expectedVersion := by
  obtain ⟨hversion, h⟩ := require_bind_eq_ok.mp h
  obtain ⟨db₁, -, h⟩ := bind_eq_ok.mp h
  cases h
  exact ⟨rfl, hversion⟩

theorem insertSave_view {db db' : Database} {pending : PendingInsert} {view : MergedDocumentView}
    (h : insertSave pending db = .ok (view, db')) :
    view = ⟨pending.request.sessionId, pending.snapshotId, 1, pending.request.blocks⟩ := by
  obtain ⟨rows, -, h⟩ := bind_eq_ok.mp h
  obtain ⟨db₁, -, h⟩ := bind_eq_ok.mp h
  cases h
  rfl

/-- **A located save of the service is a save of the document.** -/
theorem saveMergedDocument_refines {db : Database} {request : SaveRequest}
    {roomId snapshotId : UUID} {d : ServerDocument} {n : ℕ}
    (hlocate : locateSave request db = .ok (roomId, snapshotId))
    (hexpected : request.expectedVersion = n)
    (hd : HoldsDocument db request.sessionId snapshotId d) :
    (∃ view db', saveMergedDocument request db = .ok (view, db') ∧
        (d.save n request.blocks).1 = .saved view.version ∧
        HoldsDocument db' request.sessionId snapshotId (d.save n request.blocks).2) ∨
      saveMergedDocument request db =
          .error (.mergedDocumentStaleVersion "stale merged document version") ∧
        d.save n request.blocks = (.stale, d) := by
  have hblocks : request.blocks ≠ [] := (require_bind_eq_ok.mp hlocate).1
  have hsaved : ∀ view db', view.snapshotId = snapshotId → view.version = d.version + 1 →
      d.version = n → Leaves request view db' → (d.save n request.blocks).1 = .saved view.version ∧
        HoldsDocument db' request.sessionId snapshotId (d.save n request.blocks).2 := by
    rintro view db' rfl hversion rfl ⟨hsession, -, row, hrow, hrowVersion, hrowBlocks⟩
    rw [hsession] at hrow
    rw [ServerDocument.save, if_neg hblocks, if_pos rfl, hversion]
    refine ⟨rfl, ?_, ?_⟩
    · rw [hrow]
      exact hrowVersion.trans hversion
    · rw [hrow]
      rintro _ ⟨⟩
      exact hrowBlocks
  rw [saveMergedDocument, beginSave, hlocate, ok_bind]
  dsimp only
  cases hlock : lockSave request roomId snapshotId db with
  | error e =>
    obtain ⟨rfl, hne⟩ := lockSave_eq_error hlock
    refine Or.inr ⟨rfl, ?_⟩
    rw [ServerDocument.save, if_neg hblocks, if_neg fun heq ↦ hne ?_]
    rw [hd.1, heq, hexpected]
  | ok r =>
    obtain ⟨progress, db₁⟩ := r
    rw [ok_bind]
    left
    rcases lockSave_eq_ok hlock with ⟨hnone, ⟨first, rfl⟩, rfl⟩ | ⟨row, view, hrow, hupdate, rfl⟩
    · have hexists : ∃ view db', insertSave ⟨request, roomId, snapshotId, first⟩ db₁ =
          .ok (view, db') := exists_insertSave hnone
      obtain ⟨view, db', hinsert⟩ := hexists
      have hview := insertSave_view hinsert
      obtain ⟨hstored, -⟩ := hd
      rw [hnone] at hstored
      refine ⟨view, db', hinsert, hsaved view db' (by rw [hview]) ?_ ?_ (insertSave_leaves hinsert)⟩
      · rw [hview, ← hstored]
        rfl
      · exact hstored.symm.trans (Int.ofNat.inj (first.symm.trans hexpected))
    · obtain ⟨hview, hversion⟩ := updateSave_view hupdate
      obtain ⟨hstored, -⟩ := hd
      rw [hrow] at hstored
      refine ⟨view, db₁, rfl, hsaved view db₁ ?_ ?_ ?_ (updateSave_leaves hrow hupdate)⟩
      · rw [hview]
        exact (documentRow_key hrow).2
      · rw [hview, ← hstored]
        rfl
      · exact hstored.symm.trans (Int.ofNat.inj (hversion.trans hexpected))

/-! ## The page -/

/-- `SaveState`. -/
inductive AutosaveState
  | idle | pending | saving | saved | error
deriving DecidableEq, Repr

/-- A `PUT` on its way: the run of `useAutosave` it belongs to, what it carries, and the reply once
the server has given it. The save of an accepted suggestion belongs to no run. -/
structure SaveCall where
  token : Option ℕ
  expectedVersion : ℕ
  blocks : List MergedDocumentBlock
  reply : Option SaveReply
deriving DecidableEq, Repr

/-- A local edit of a block: what the block became, or `none` where it was removed. -/
structure LocalEdit where
  blockId : String
  block : Option MergedDocumentBlock
deriving DecidableEq, Repr

/-- The page with the document loaded, the requests on their way and the server. -/
structure EditingState where
  /-- `data.document` in the query cache. -/
  data : ServerDocument
  syncedVersion : ℕ
  blocks : List MergedDocumentBlock
  state : AutosaveState
  runToken : ℕ
  /-- The timer of `touch` is running. -/
  debounce : Bool
  /-- `resolvingSuggestionId` is set. -/
  resolving : Bool
  calls : List SaveCall
  /-- The answers of refetches on their way. -/
  fetches : List ServerDocument
  server : ServerDocument
  /-- The latest edit of every block edited here, until a reply to a save that carried it. -/
  unsettled : List LocalEdit
  /-- The blocks of the save acknowledged last. -/
  acknowledged : Option (List MergedDocumentBlock)
  othersEdited : Bool
  /-- Some save of this page was refused for its version. -/
  conflicted : Bool
deriving DecidableEq, Repr

/-- What a `GET` of the document hands the page. -/
def ServerDocument.answer (d : ServerDocument) : ServerDocument :=
  ⟨d.version, d.blocks.map blockFromBackend⟩

/-- The page as it opens on the document of the server. -/
def openEditor (d : ServerDocument) : EditingState where
  data := d.answer
  syncedVersion := d.version
  blocks := d.answer.blocks
  state := .idle
  runToken := 0
  debounce := false
  resolving := false
  calls := []
  fetches := []
  server := d
  unsettled := []
  acknowledged := none
  othersEdited := false
  conflicted := false

inductive EditingEvent
  | changeText (blockId text : String)
  | debounceExpires
  | saveNow
  | acceptSuggestion (suggestion : AiSuggestion)
  /-- The reply to the `POST` that resolves the accepted suggestion. -/
  | suggestionResolved
  /-- The server handles a save on its way. -/
  | serveSave (i : ℕ)
  | replyToSave (i : ℕ)
  /-- The server answers a refetch. -/
  | serveFetch
  | deliverFetch (i : ℕ)
  | saveElsewhere (blocks : List MergedDocumentBlock)
deriving DecidableEq, Repr

/-- The edits that turn one list of blocks into another, with the earlier ones they leave alone. -/
def recordEdits (before after : List MergedDocumentBlock) (edits : List LocalEdit) :
    List LocalEdit :=
  edits.filter (fun e ↦ blockOf before e.blockId = blockOf after e.blockId) ++
    (((before ++ after).map (·.id)).filter fun blockId ↦
      blockOf before blockId ≠ blockOf after blockId).map fun blockId ↦
        ⟨blockId, blockOf after blockId⟩

/-- What is left once the fate of a save that carried `blocks` is known to the user. -/
def settle (blocks : List MergedDocumentBlock) (edits : List LocalEdit) : List LocalEdit :=
  edits.filter fun e ↦ blockOf blocks e.blockId ≠ e.block

namespace EditingState

/-- The effect that follows the cached document. -/
def synchronize (s : EditingState) : EditingState :=
  if s.syncedVersion = s.data.version then s
  else { s with syncedVersion := s.data.version, blocks := s.data.blocks }

/-- `mutateAsync` with the blocks on the screen and the cached version. -/
def send (token : Option ℕ) (s : EditingState) : EditingState :=
  { s with calls := s.calls ++ [⟨token, s.data.version, s.blocks, none⟩] }

/-- `run` of `useAutosave`. -/
def run (s : EditingState) : EditingState :=
  let started := { s with runToken := s.runToken + 1, state := .saving, debounce := false }
  started.send (some started.runToken)

/-- The blocks the user made of those on the screen. -/
def edited (blocks : List MergedDocumentBlock) (s : EditingState) : EditingState :=
  { s with blocks := blocks, unsettled := recordEdits s.blocks blocks s.unsettled }

/-- `onBlockTextChange`, which ends in `touch`. -/
def changeText (blockId text : String) (s : EditingState) : EditingState :=
  let s := s.edited (MeetingRag.changeText blockId text s.blocks)
  { s with state := .pending, debounce := true }

/-- `applySuggestion`, up to its first `await`. -/
def acceptSuggestion (toLowerCase : String → String) (suggestion : AiSuggestion)
    (s : EditingState) : EditingState :=
  if s.resolving then s
  else
    match applySuggestionToBlocks toLowerCase s.blocks suggestion with
    | some blocks => ({ s.edited blocks with resolving := true }).send none
    | none => { s with resolving := suggestion.kind = .add }

/-- The server handles the save at `i`. -/
def serveSave (i : ℕ) (s : EditingState) : EditingState :=
  match s.calls[i]? with
  | some ⟨token, expectedVersion, blocks, none⟩ =>
    let (reply, server) := s.server.save expectedVersion blocks
    { s with
      calls := s.calls.set i ⟨token, expectedVersion, blocks, some reply⟩
      server := server
      conflicted := s.conflicted || reply = .stale }
  | _ => s

/-- `onSuccess`, the effect it sets off, and the `then` of the run. -/
def saveSucceeded (call : SaveCall) (version : ℕ) (s : EditingState) : EditingState :=
  let cached := { s with data := ⟨version, call.blocks⟩ }
  let shown := cached.synchronize
  { shown with
    state := if call.token = some s.runToken then .saved else s.state
    acknowledged := some call.blocks
    unsettled := settle call.blocks s.unsettled }

/-- The `catch` of the run, or the one of `applySuggestion`. A run that is no longer the current one
says nothing. -/
def saveFailed (call : SaveCall) (s : EditingState) : EditingState :=
  match call.token with
  | none => { s with resolving := false, unsettled := settle call.blocks s.unsettled }
  | some token =>
    if token = s.runToken then
      { s with state := .error, unsettled := settle call.blocks s.unsettled }
    else s

/-- The reply to the save at `i` arrives. -/
def replyToSave (i : ℕ) (s : EditingState) : EditingState :=
  match s.calls[i]? with
  | some call =>
    let rest := { s with calls := s.calls.eraseIdx i }
    match call.reply with
    | some (.saved version) => rest.saveSucceeded call version
    | some _ => rest.saveFailed call
    | none => s
  | none => s

def serveFetch (s : EditingState) : EditingState :=
  { s with fetches := s.fetches ++ [s.server.answer] }

/-- The answer of a refetch arrives. -/
def deliverFetch (i : ℕ) (s : EditingState) : EditingState :=
  match s.fetches[i]? with
  | some data =>
    let cached := { s with data := data, fetches := s.fetches.eraseIdx i }
    cached.synchronize
  | none => s

/-- Somebody else saves. -/
def saveElsewhere (blocks : List MergedDocumentBlock) (s : EditingState) : EditingState :=
  { s with server := ⟨s.server.version + 1, blocks⟩, othersEdited := true }

/-- The save of a suggestion is still on its way. -/
def SavesSuggestion (s : EditingState) : Prop := ∃ call ∈ s.calls, call.token = none

end EditingState

/-- **The editor**: every order of the user, the timer, the network and the server. -/
def editing (toLowerCase : String → String) : Machine EditingState EditingEvent Unit where
  enabled s
    | .debounceExpires => s.debounce = true
    | .suggestionResolved => s.resolving = true ∧ ¬s.SavesSuggestion
    | .saveElsewhere blocks => blocks ≠ []
    | _ => True
  step s e := ((), match e with
    | .changeText blockId text => s.changeText blockId text
    | .debounceExpires => s.run
    | .saveNow => s.run
    | .acceptSuggestion suggestion => s.acceptSuggestion toLowerCase suggestion
    | .suggestionResolved => { s with resolving := false }
    | .serveSave i => s.serveSave i
    | .replyToSave i => s.replyToSave i
    | .serveFetch => s.serveFetch
    | .deliverFetch i => s.deliverFetch i
    | .saveElsewhere blocks => s.saveElsewhere blocks)

end MeetingRag
