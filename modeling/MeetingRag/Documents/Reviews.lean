import MeetingRag.Activity.ProfileInvariant
import MeetingRag.Documents.RoomReads
import MeetingRag.Library.Sha256

/-!
# Suggestions on a report

A member of a session suggests a change to its report, or the comparison of the sources does, and the
host of the session accepts or rejects it. A suggestion is pinned to what it was made about: the
snapshot, the hash over its two documents, and the anchor that it quotes, if it quotes one.

`create` reads three times before it inserts, and what others commit in between comes in between: each
of the reads is given the tables as it found them. The trigger of the table looks at the pins again, in
the tables as they are when the row goes in. `resolve` locks the row, so that only the session and the
membership beside it are read as they were before.
-/

open Outcome Py Table Text

namespace MeetingRag

namespace Reviews

/-! ## Tables -/

/-- What the suggestion service and its tables raise. -/
inductive ReviewError
  | valueError (message : String)
  | reportSuggestionAccess (message : String)
  | reportSuggestionState (message : String)
  /-- The driver refuses a parameter. -/
  | dataError (message : String)
  /-- `RAISE EXCEPTION` in the trigger. -/
  | raiseException (message : String)
  | database (constraint : String)
  | activity (e : Error)
deriving DecidableEq

/-- A row of `report_suggestions`. -/
structure ReviewRow where
  suggestion : SuggestionRow
  comparisonKey : Option String
deriving DecidableEq, Repr

/-- The tables that a suggestion refers to, with the column `content_hash` of the documents. -/
structure ReportRows where
  room : RoomRows
  contentHash : UUID → String

structure ReviewTables where
  reports : ReportRows
  suggestions : List ReviewRow
  activity : ActivityTables

/-! ## Reports -/

/-- A digest as a text. -/
def hexText (digest : Str) : String := String.ofList (digest.map fun c ↦ Char.ofNat c.val)

/-- `report_content_hash` -/
def reportContentHash (summaryHash researchHash : String) : String :=
  hexText (sha256Hex (encodeUtf8 (lit (summaryHash ++ researchHash))))

/-- `IntegratedReportIdentity`, with the hash. -/
structure PinnedReport where
  snapshotId : UUID
  contentHash : String
deriving DecidableEq, Repr

namespace ReportRows

variable (d : ReportRows)

/-- `max(document.content_hash) FILTER (WHERE document.kind = …)`, of a report that has one document of
each kind. -/
def kindHash (p : GenerationSnapshot) (kind : GenerationKind) : String :=
  ((reportDocuments d.room.database p).find? (·.kind = kind)).elim "" (d.contentHash ·.id)

def snapshotHash (p : GenerationSnapshot) : String :=
  reportContentHash (d.kindHash p .summary) (d.kindHash p .research)

/-- `load_report_identity` -/
def loadReportIdentity (sessionId : UUID) : Option PinnedReport :=
  (selectLast (·.generationEpoch)
    (fun p ↦ decide (p.sessionId = sessionId ∧ HasReport d.room.database p))
    d.room.generationSnapshots).map fun p ↦ ⟨p.id, d.snapshotHash p⟩

/-- The hash that the trigger expects of a snapshot. -/
def expectedHash (snapshotId : UUID) : Option String :=
  (d.room.generationSnapshots.find? fun p ↦ p.id = snapshotId ∧ HasReport d.room.database p).map
    d.snapshotHash

/-- A snapshot pins the revision and the extraction of the anchor. -/
def PinsAnchor (snapshotId anchorId : UUID) : Prop :=
  ∃ sr ∈ d.room.snapshotRevisions, sr.snapshotId = snapshotId ∧
    ∃ a ∈ d.room.sourceAnchors, a.id = anchorId ∧ a.sourceRevisionId = sr.sourceRevisionId ∧
      a.extractionRunId = sr.extractionRunId

instance (snapshotId anchorId : UUID) : Decidable (d.PinsAnchor snapshotId anchorId) :=
  inferInstanceAs (Decidable (∃ _ ∈ _, _))

/-- The identity of the report is the one that the merged document goes by. -/
theorem loadReportIdentity_snapshotId (sessionId : UUID) :
    (d.loadReportIdentity sessionId).map (fun report ↦ IntegratedReportIdentity.mk report.snapshotId) =
      MeetingRag.loadReportIdentity d.room.database sessionId := by
  rw [loadReportIdentity, MeetingRag.loadReportIdentity, Option.map_map]
  rfl

end ReportRows

/-! ## The table of the suggestions -/

/-- What a suggestion is pinned to, in the tables as they are. -/
structure Pinned (d : ReportRows) (s : SuggestionRow) : Prop where
  session : ∃ p ∈ d.room.generationSnapshots, p.id = s.snapshotId ∧ p.sessionId = s.sessionId
  hash : d.expectedHash s.snapshotId = some s.reportContentHash
  anchor : ∀ anchorId ∈ s.sourceAnchorId, d.PinsAnchor s.snapshotId anchorId

/-- `enforce_report_suggestion_provenance` -/
def enforceReportSuggestionProvenance (d : ReportRows) (s : SuggestionRow) :
    Except ReviewError Unit := do
  require (∃ p ∈ d.room.generationSnapshots, p.id = s.snapshotId ∧ p.sessionId = s.sessionId)
    (.raiseException "report suggestion snapshot provenance mismatch")
  require (d.expectedHash s.snapshotId = some s.reportContentHash)
    (.raiseException "report suggestion content hash provenance mismatch")
  require (∀ anchorId ∈ s.sourceAnchorId, d.PinsAnchor s.snapshotId anchorId)
    (.raiseException "report suggestion anchor provenance mismatch")

/-- The `CHECK` constraints, in the order of their names. -/
def checkRow (r : ReviewRow) : Except ReviewError Unit := do
  let s := r.suggestion
  require (s.status = "open" ↔ s.resolvedBy = none ∧ s.resolvedAt = none)
    (.database "report_suggestions_check")
  require (IsSha256 (lit s.reportContentHash)) (.database "report_suggestions_hash_check")
  require (s.kind ∈ ["add", "edit", "remove"]) (.database "report_suggestions_kind_check")
  require (s.origin ∈ ["member", "automatic_comparison"]) (.database "report_suggestions_origin_check")
  -- the constraint is not violated when it is NULL, which it is for an automatic row without a key
  require (s.origin = "member" ∧ r.comparisonKey = none ∨
      s.origin = "automatic_comparison" ∧ ∀ key ∈ r.comparisonKey, IsSha256 (lit key))
    (.database "report_suggestions_origin_shape")
  require (s.rationale.length ≤ 2000) (.database "report_suggestions_rationale_check")
  require (s.status ∈ ["open", "accepted", "rejected"]) (.database "report_suggestions_status_check")
  require (1 ≤ s.suggestedText.length ∧ s.suggestedText.length ≤ 10000)
    (.database "report_suggestions_suggested_text_check")
  require (∀ target ∈ s.targetBlockId, 1 ≤ target.length ∧ target.length ≤ 200)
    (.database "report_suggestions_target_block_id_check")

/-- The texts of a row go to the database without a NUL. -/
def Storable (s : SuggestionRow) : Prop :=
  ∀ text ∈ [s.suggestedText, s.rationale] ++ s.targetBlockId.toList, Char.ofNat 0 ∉ text.toList

instance : DecidablePred Storable := fun s ↦ inferInstanceAs (Decidable
  (∀ text ∈ [s.suggestedText, s.rationale] ++ s.targetBlockId.toList, Char.ofNat 0 ∉ text.toList))

/-- What becomes of a row before it reaches an index: the driver, the trigger and the checks. -/
def admitRow (d : ReportRows) (r : ReviewRow) : Except ReviewError Unit := do
  require (Storable r.suggestion)
    (.dataError "PostgreSQL text fields cannot contain NUL (0x00) bytes")
  enforceReportSuggestionProvenance d r.suggestion
  checkRow r

/-- The primary key. -/
def appendRow (r : ReviewRow) (t : ReviewTables) : Except ReviewError ReviewTables := do
  let rows ← insertUnique (fun a b : ReviewRow ↦ a.suggestion.id = b.suggestion.id)
    (fun _ ↦ .database "report_suggestions_pkey") r t.suggestions
  .ok { t with suggestions := rows }

/-- Record an event without effects. -/
def recordEvent (e : AuditEvent) (t : ReviewTables) : Except ReviewError ReviewTables := do
  let activity ← (record e [] t.activity).mapError ReviewError.activity
  .ok { t with activity := activity }

/-! ## Creating -/

/-- The arguments of `create`. -/
structure SuggestionRequest where
  sessionId : UUID
  actorId : UUID
  suggestedText : String
  rationale : String
  sourceAnchorId : Option UUID
  targetBlockId : Option String
  kind : String
deriving DecidableEq, Repr

/-- `target_block_id.strip() if target_block_id else None` -/
def SuggestionRequest.target (request : SuggestionRequest) : Option String :=
  request.targetBlockId.bind fun target ↦ if target = "" then none else some (strip target)

/-- The arguments that `create` goes on with. -/
def SuggestionRequest.Valid (request : SuggestionRequest) : Prop :=
  (1 ≤ (strip request.suggestedText).length ∧ (strip request.suggestedText).length ≤ 10000) ∧
    (strip request.rationale).length ≤ 2000 ∧ ∀ target ∈ request.target, target.length ≤ 200

instance : DecidablePred SuggestionRequest.Valid := fun request ↦ inferInstanceAs (Decidable
  ((1 ≤ (strip request.suggestedText).length ∧ (strip request.suggestedText).length ≤ 10000) ∧
    (strip request.rationale).length ≤ 2000 ∧ ∀ target ∈ request.target, target.length ≤ 200))

/-- The tables as the three reads of `create` find them. -/
structure CreateReads where
  member : ReportRows
  report : ReportRows
  anchor : ReportRows

/-- `_require_member` -/
def requireMember (d : ReportRows) (sessionId actorId : UUID) : Except ReviewError UUID :=
  match d.room.talkSessions.find? fun s ↦ s.id = sessionId ∧ d.room.SeesRoom actorId s.roomId with
  | some s => .ok s.roomId
  | none => .error (.reportSuggestionAccess "talk session is unavailable")

def requireReport (d : ReportRows) (sessionId : UUID) : Except ReviewError PinnedReport :=
  match d.loadReportIdentity sessionId with
  | some report => .ok report
  | none => .error (.reportSuggestionState "integrated report is unavailable")

/-- The row of a member's suggestion. -/
def SuggestionRequest.row (request : SuggestionRequest) (id : UUID) (now : Timestamp)
    (report : PinnedReport) : ReviewRow where
  suggestion :=
    { id := id
      sessionId := request.sessionId
      authorId := request.actorId
      sourceAnchorId := request.sourceAnchorId
      targetBlockId := request.target
      snapshotId := report.snapshotId
      reportContentHash := report.contentHash
      kind := request.kind
      origin := "member"
      suggestedText := strip request.suggestedText
      rationale := strip request.rationale
      status := "open"
      resolvedBy := none
      createdAt := now
      resolvedAt := none }
  comparisonKey := none

/-- `create` up to its insert: the room and the report. -/
def prepareSuggestion (seen : CreateReads) (request : SuggestionRequest) :
    Except ReviewError (UUID × PinnedReport) := do
  require (request.kind ∈ ["add", "edit", "remove"]) (.valueError "suggestion kind is invalid")
  require request.Valid (.valueError "suggestion content is invalid")
  let roomId ← requireMember seen.member request.sessionId request.actorId
  let report ← requireReport seen.report request.sessionId
  require (∀ anchorId ∈ request.sourceAnchorId, seen.anchor.PinsAnchor report.snapshotId anchorId)
    (.reportSuggestionAccess "source anchor is unavailable")
  .ok (roomId, report)

/-- `ReportSuggestionService.create` -/
def create (seen : CreateReads) (id : UUID) (now : Timestamp) (request : SuggestionRequest)
    (t : ReviewTables) : Except ReviewError (SuggestionRow × ReviewTables) := do
  let (roomId, report) ← prepareSuggestion seen request
  let row := request.row id now report
  admitRow t.reports row
  let t ← appendRow row t
  let t ← recordEvent ⟨.suggestionCreated id, some request.actorId, some roomId,
    some request.sessionId⟩ t
  .ok (row.suggestion, t)

/-! ## The automatic comparison -/

/-- `AutomaticSuggestionProposal`, with the identifier that `uuid5` makes of its key. -/
structure ReviewProposal where
  suggestionId : UUID
  comparisonKey : String
  kind : String
  sourceAnchorId : UUID
  suggestedText : String
  rationale : String
  targetBlockId : Option String
deriving DecidableEq, Repr

/-- What the effect of the completion needs of an `AutomaticSuggestionExecution`. -/
structure ReviewExecution where
  snapshotId : UUID
  sessionId : UUID
  roomId : UUID
  authorId : UUID
  reportContentHash : String
  proposals : List ReviewProposal
deriving DecidableEq, Repr

def ReviewExecution.row (e : ReviewExecution) (now : Timestamp) (p : ReviewProposal) : ReviewRow where
  suggestion :=
    { id := p.suggestionId
      sessionId := e.sessionId
      authorId := e.authorId
      sourceAnchorId := some p.sourceAnchorId
      targetBlockId := p.targetBlockId
      snapshotId := e.snapshotId
      reportContentHash := e.reportContentHash
      kind := p.kind
      origin := "automatic_comparison"
      suggestedText := p.suggestedText
      rationale := p.rationale
      status := "open"
      resolvedBy := none
      createdAt := now
      resolvedAt := none }
  comparisonKey := some p.comparisonKey

/-- The unique index on the comparisons of a snapshot. -/
def SameComparison (a b : ReviewRow) : Prop :=
  a.suggestion.snapshotId = b.suggestion.snapshotId ∧ a.comparisonKey = b.comparisonKey ∧
    b.comparisonKey ≠ none

instance : DecidableRel SameComparison := fun a b ↦ inferInstanceAs (Decidable
  (a.suggestion.snapshotId = b.suggestion.snapshotId ∧ a.comparisonKey = b.comparisonKey ∧
    b.comparisonKey ≠ none))

/-- One proposal of the effect. A row is admitted before the conflict on its comparison is looked at. -/
def ReviewExecution.addProposal (e : ReviewExecution) (now : Timestamp) (t : ReviewTables)
    (p : ReviewProposal) : Except ReviewError ReviewTables := do
  admitRow t.reports (e.row now p)
  if ∃ r ∈ t.suggestions, SameComparison r (e.row now p) then .ok t
  else do
    let t ← appendRow (e.row now p) t
    recordEvent ⟨.suggestionCreated p.suggestionId, none, some e.roomId, some e.sessionId⟩ t

/-- The effect of `fenced_completion` on the suggestions. -/
def ReviewExecution.effect (e : ReviewExecution) (now : Timestamp) (t : ReviewTables) :
    Except ReviewError ReviewTables :=
  e.proposals.foldlM (e.addProposal now) t

/-! ## Resolving -/

/-- The state in the type of the event of a decision. -/
def decisionState (decision : String) : Option (OneOf [.accepted, .rejected]) :=
  if decision = "accepted" then some ⟨.accepted, by decide⟩
  else if decision = "rejected" then some ⟨.rejected, by decide⟩
  else none

/-- `SET status = …, resolved_by = …, resolved_at = clock_timestamp()` -/
def settle (decision : String) (actorId : UUID) (now : Timestamp) (r : ReviewRow) : ReviewRow :=
  { r with
    suggestion := { r.suggestion with
      status := decision
      resolvedBy := some actorId
      resolvedAt := some now } }

/-- `ReportSuggestionService.resolve` -/
def resolve (seen : ReportRows) (now : Timestamp) (suggestionId actorId : UUID) (decision : String)
    (t : ReviewTables) : Except ReviewError (SuggestionRow × ReviewTables) :=
  match decisionState decision with
  | none => .error (.valueError "suggestion decision is invalid")
  | some state => do
    -- the suggestion is locked and read as it is, its session beside it as it was
    let found := (t.suggestions.find? (·.suggestion.id = suggestionId)).bind fun r ↦
      (seen.room.talkSessions.find? (·.id = r.suggestion.sessionId)).map (r, ·)
    match found with
    | none => .error (.reportSuggestionAccess "host permission is required")
    | some (r, session) =>
      require (session.hostId = actorId ∧ seen.room.SeesRoom actorId session.roomId)
        (.reportSuggestionAccess "host permission is required")
      require (r.suggestion.status = "open") (.reportSuggestionState "suggestion is already resolved")
      let updated := settle decision actorId now r
      checkRow updated
      let rows := updateWhere (·.suggestion.id = suggestionId) (settle decision actorId now)
        t.suggestions
      let t := { t with suggestions := rows }
      let t ← recordEvent ⟨.suggestion state suggestionId 1, some actorId, some session.roomId,
        some r.suggestion.sessionId⟩ t
      .ok (updated.suggestion, t)

/-! ## Any order of calls -/

inductive ReviewInput
  | create (seen : CreateReads) (id : UUID) (now : Timestamp) (request : SuggestionRequest)
  | resolve (seen : ReportRows) (now : Timestamp) (suggestionId actorId : UUID) (decision : String)
  | automatic (now : Timestamp) (execution : ReviewExecution)
  /-- Everybody else, who leaves the suggestions alone. -/
  | elsewhere (reports : ReportRows) (activity : ActivityTables)

inductive ReviewReply
  | created (suggestion : SuggestionRow)
  | resolved (suggestion : SuggestionRow)
  | added
  | refused (e : ReviewError)
  | done
deriving DecidableEq

/-- An entry of the ledger about a suggestion: the event, its actor and its session. -/
abbrev LedgerEntry := EventIdentity × Option UUID × Option UUID

def suggestionEntry (e : AuditEvent) : Option LedgerEntry :=
  match e.event with
  | .suggestionCreated .. | .suggestion .. => some (e.event, e.actorId, e.sessionId)
  | _ => none

/-- The ledger of the suggestions. -/
def ReviewTables.entries (t : ReviewTables) : List LedgerEntry :=
  t.activity.auditEvents.filterMap suggestionEntry

/-- The reply to a call, beside the tables that it leaves. -/
def answer {α : Type} (ok : α → ReviewReply) :
    Except ReviewError α × ReviewTables → ReviewReply × ReviewTables
  | (.ok a, t) => (ok a, t)
  | (.error e, t) => (.refused e, t)

/-- Any number of members and hosts, and the automatic comparison. -/
def reviewMachine : Machine ReviewTables ReviewInput ReviewReply where
  enabled t input :=
    match input with
    -- `uuid4`
    | .create _ id _ _ => ∀ r ∈ t.suggestions, r.suggestion.id ≠ id
    -- no other service records an event of a suggestion
    | .elsewhere _ activity => activity.auditEvents.filterMap suggestionEntry = t.entries
    | .resolve .. | .automatic .. => True
  step t
    | .create seen id now request =>
      answer .created (transaction t (create seen id now request t))
    | .resolve seen now suggestionId actorId decision =>
      answer .resolved (transaction t (resolve seen now suggestionId actorId decision t))
    | .automatic now execution =>
      answer (fun _ ↦ .added) (transaction t ((execution.effect now t).map ((), ·)))
    | .elsewhere reports activity => (.done, { t with reports := reports, activity := activity })

instance (t : ReviewTables) (input : ReviewInput) : Decidable (reviewMachine.enabled t input) :=
  match input with
  | .create _ id _ _ => inferInstanceAs (Decidable (∀ r ∈ t.suggestions, r.suggestion.id ≠ id))
  | .elsewhere _ activity =>
    inferInstanceAs (Decidable (activity.auditEvents.filterMap suggestionEntry = t.entries))
  | .resolve .. | .automatic .. => .isTrue trivial

/-- No suggestion yet. -/
def noReviews (reports : ReportRows) : ReviewTables := ⟨reports, [], ⟨[], [], [], []⟩⟩

end Reviews

end MeetingRag
