import MeetingRag.Generation.Repository
import MeetingRag.Queue.Runs

/-!
# The automatic suggestion worker

Once both documents of a snapshot are there, a third job compares its sources and suggests edits.
The worker claims it, compares outside any transaction, and commits the suggestions through the
fence of its lease. When the comparison has failed for good, the effect of the completion moves the
session of the snapshot from `ready` to `needs_attention`.

The comparison is not modelled. `SuggestionOutcome` is what running it came to.
-/

open Outcome Table Text

namespace MeetingRag

/-! ## Executions -/

/-- A suggested edit. Its identifier is the UUID of its comparison key, and `constraints` is what the
remaining constraints of its table answer. -/
structure AutomaticSuggestionProposal where
  suggestionId : UUID
  comparisonKey : String
  suggestedText : String
  rationale : String
  constraints : Except Error Unit

structure AutomaticSuggestionExecution where
  snapshotId : UUID
  sessionId : UUID
  roomId : UUID
  authorId : UUID
  proposals : List AutomaticSuggestionProposal
  finalBlocks : List PersistedBlock

/-- What running a claimed comparison came to. -/
inductive SuggestionOutcome
  | executed (sessionId roomId authorId : UUID) (proposals : List AutomaticSuggestionProposal)
      (finalBlocks : List PersistedBlock)
  | runnerError
  | providerFailure (code : String) (retryable : Bool)

/-- `_claimed_identity`. -/
def claimedReportIdentity (claimed : ClaimedJob JobDocument) : Except Error (UUID × String) :=
  match claimed.kind, claimed.payload with
  | .reportSuggestions, .generation snapshotId .reportSuggestions pipelineVersion => do
    require (¬Blank pipelineVersion)
      (.automaticSuggestionRunner "automatic suggestion job identity is invalid")
    .ok (snapshotId, pipelineVersion)
  | _, _ => .error (.automaticSuggestionRunner "automatic suggestion job identity is invalid")

/-! ## The effect of a success -/

def mergedDocumentsClash (a b : MergedDocumentState) : Prop :=
  a.sessionId = b.sessionId ∧ a.snapshotId = b.snapshotId

instance : DecidableRel mergedDocumentsClash := fun a b ↦
  inferInstanceAs (Decidable (a.sessionId = b.sessionId ∧ a.snapshotId = b.snapshotId))

/-- `INSERT INTO merged_document_states … ON CONFLICT (session_id, snapshot_id) DO NOTHING`. -/
def AutomaticSuggestionExecution.insertMerged (e : AutomaticSuggestionExecution) (db : Database) :
    Database :=
  if e.finalBlocks = [] then db
  else { db with other := { db.other with
    mergedDocumentStates := insertIgnore mergedDocumentsClash
      ⟨e.sessionId, e.snapshotId, 1, e.finalBlocks, e.authorId⟩ db.other.mergedDocumentStates } }

/-- Append the event of one new suggestion. -/
def AutomaticSuggestionExecution.appendCreated (e : AutomaticSuggestionExecution)
    (suggestionId : UUID) (activity : ActivityTables) : ActivityTables :=
  { activity with
    auditEvents := appendEvent ⟨.suggestionCreated suggestionId, none, some e.roomId,
      some e.sessionId⟩ activity.auditEvents }

/-- Insert one suggestion unless its comparison is already there, and count the inserts. -/
def AutomaticSuggestionExecution.insertProposal (e : AutomaticSuggestionExecution)
    (state : ℕ × Database) (proposal : AutomaticSuggestionProposal) :
    Except Error (ℕ × Database) :=
  let (count, db) := state
  if ∃ r ∈ db.other.reportSuggestions, r.snapshotId = e.snapshotId ∧
      r.comparisonKey = proposal.comparisonKey then .ok (count, db)
  else do
    proposal.constraints
    let rows ← insertUnique (fun a b : ReportSuggestion ↦ a.id = b.id)
      (fun _ ↦ .database "report_suggestions_pkey")
      ⟨proposal.suggestionId, e.sessionId, e.authorId, e.snapshotId, proposal.comparisonKey,
        proposal.suggestedText, proposal.rationale⟩ db.other.reportSuggestions
    .ok (count + 1, { db with other := { db.other with
      reportSuggestions := rows
      activity := e.appendCreated proposal.suggestionId db.other.activity } })

/-- The effect of `fenced_completion`, with the number of suggestions it inserts. -/
def AutomaticSuggestionExecution.insertSuggestions (e : AutomaticSuggestionExecution)
    (db : Database) : Except Error (ℕ × Database) :=
  e.proposals.foldlM e.insertProposal (0, e.insertMerged db)

def AutomaticSuggestionExecution.fencedEffect (e : AutomaticSuggestionExecution) (db : Database) :
    Except Error Database := do
  let (_, db) ← e.insertSuggestions db
  .ok db

/-- `result["suggestion_count"]`, which the effect assigns before the result is encoded. -/
def AutomaticSuggestionExecution.suggestionCount (e : AutomaticSuggestionExecution)
    (db : Database) : ℕ :=
  match e.insertSuggestions db with
  | .ok (count, _) => count
  | .error _ => 0

/-! ## The effect of a failure -/

/-- `SET state = 'needs_attention', state_version = state_version + 1`. -/
def attentionSession (s : TalkSession) : TalkSession :=
  { s with state := .needsAttention, stateVersion := s.stateVersion + 1 }

/-- The session of a snapshot, as long as it is ready. -/
def ReadyOwner (snapshots : List GenerationSnapshot) (snapshotId : UUID) (s : TalkSession) : Prop :=
  (∃ p ∈ snapshots, p.id = snapshotId ∧ s.id = p.sessionId) ∧ s.state = .ready

instance (snapshots : List GenerationSnapshot) (snapshotId : UUID) :
    DecidablePred (ReadyOwner snapshots snapshotId) :=
  fun s ↦ inferInstanceAs (Decidable
    ((∃ p ∈ snapshots, p.id = snapshotId ∧ s.id = p.sessionId) ∧ s.state = .ready))

/-- `_attention_effect`. It records no event. -/
def attentionEffect (snapshotId : UUID) (db : Database) : Except Error Database :=
  .ok { db with other := { db.other with
    talkSessions := updateWhere (ReadyOwner db.other.generationSnapshots snapshotId)
      attentionSession db.other.talkSessions } }

/-! ## Completing -/

def suggestionFailureCode : String := "automatic_suggestion_failure"

def maxProviderAttempts : ℕ := 3

/-- Whether a failed comparison is put back. -/
def SuggestionRetryable (claimed : ClaimedJob JobDocument) (retryable : Bool) : Prop :=
  retryable = true ∧ claimed.leaseGeneration < maxProviderAttempts

instance (claimed : ClaimedJob JobDocument) (retryable : Bool) :
    Decidable (SuggestionRetryable claimed retryable) :=
  inferInstanceAs (Decidable (retryable = true ∧ claimed.leaseGeneration < maxProviderAttempts))

/-- End a comparison that failed; the last allowed failure is terminal and shows. -/
def failSuggestions (claimed : ClaimedJob JobDocument) (errorCode : String) (retryable : Bool)
    (resultId : UUID) (clock : StatementClock) (db : Database) : Except Error (Unit × Database) :=
  if SuggestionRetryable claimed retryable then
    completeWithEffects claimed .failedRetryable (.failure errorCode) (some errorCode) none
      resultId clock db
  else do
    let (snapshotId, _) ← claimedReportIdentity claimed
    completeWithEffects claimed .failedTerminal (.failure errorCode) (some errorCode)
      (some (attentionEffect snapshotId)) resultId clock db

/-- End a comparison that was executed. -/
def succeedSuggestions (claimed : ClaimedJob JobDocument) (e : AutomaticSuggestionExecution)
    (resultId : UUID) (clock : StatementClock) (db : Database) : Except Error (Unit × Database) :=
  completeWithEffects claimed .succeeded (.suggestionResult e.snapshotId (e.suggestionCount db))
    none (some e.fencedEffect) resultId clock db

/-- The poll of a report job from the outcome of its comparison to the commit of its completion.
A claim without a valid identity fails in the comparison, and again in `_attention_effect`. -/
def completeSuggestions (claimed : ClaimedJob JobDocument) (outcome : SuggestionOutcome)
    (resultId : UUID) (clock : StatementClock) (db : Database) : Except Error (Unit × Database) :=
  match claimedReportIdentity claimed, outcome with
  | .error _, _ => failSuggestions claimed suggestionFailureCode false resultId clock db
  | .ok (snapshotId, _), .executed sessionId roomId authorId proposals finalBlocks =>
    succeedSuggestions claimed ⟨snapshotId, sessionId, roomId, authorId, proposals, finalBlocks⟩
      resultId clock db
  | .ok _, .runnerError => failSuggestions claimed suggestionFailureCode false resultId clock db
  | .ok _, .providerFailure code retryable =>
    failSuggestions claimed code retryable resultId clock db

/-- Put a comparison that failed back at once. -/
def retrySuggestions (claimed : ClaimedJob JobDocument) (db : Database) :
    Except Error (Unit × Database) :=
  requeueRetryable claimed.id claimed.leaseGeneration db

end MeetingRag
