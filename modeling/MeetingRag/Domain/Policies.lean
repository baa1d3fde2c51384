import MeetingRag.Library.Table
import MeetingRag.Domain.Models

/-!
# Session policies

The pure policies for the session lifecycle, for closing a session, and for the projection of the
two canonical runs into the state of their session.

The transition table is the approved state graph. Three of the writers that move a session do so
without consulting it, so what the graph means for a run of the system is a theorem about those
writers and not about this file.
-/

open Outcome Table Text

namespace MeetingRag

/-! ## The session state graph -/

def canonicalGenerationKinds : List GenerationKind := [.summary, .research]

/-- `_ALLOWED_SESSION_TRANSITIONS`. -/
def allowedSessionTargets : TalkSessionState → List TalkSessionState
  | .draft => [.open]
  | .open => [.closed]
  | .closed => [.processing]
  | .processing => [.ready, .needsAttention]
  | .needsAttention => [.processing]
  | .ready => []

/-- Reject any state change outside the approved aggregate state graph. -/
def assertSessionTransition (current target : TalkSessionState) : Except Error Unit :=
  require (target ∈ allowedSessionTargets current)
    (.sessionState ("cannot transition talk session " ++ current.value ++ " -> " ++ target.value))

/-! ## Closing -/

/-- Collect values under their keys; a second value with a key already seen is an error. -/
def indexBy {α : Type} (key : α → String) (duplicate : String → Error) (values : List α) :
    Except Error (List α) :=
  values.foldlM (fun seen value ↦
    insertUnique (fun a b ↦ key a = key b) (fun value ↦ duplicate (key value)) value seen) []

theorem indexBy_eq_ok {α : Type} {key : α → String} {duplicate : String → Error}
    {values index : List α} :
    indexBy key duplicate values = .ok index ↔ (values.map key).Nodup ∧ index = values := by
  rw [indexBy, foldlM_insertUnique, Appendable, List.nil_append, List.Nodup, List.pairwise_map,
    and_iff_right (List.forall_mem_nil _)]

/-- Whether the revision of this id has the given processing state. -/
def hasState (revisions : List RevisionStatus) (s : RevisionProcessingState) (id : String) : Bool :=
  (revisions.find? (·.revisionId = id)).any (·.processingState = s)

/-- The decision taken once the revisions and the exclusions are indexed. -/
def closeDecision (revisionsById : List RevisionStatus) (exclusionsById : List CloseExclusion) :
    CloseEligibility :=
  let orderedRevisionIds := sorted (revisionsById.map (·.revisionId))
  let isExcluded (id : String) : Bool := id ∈ exclusionsById.map (·.revisionId)
  let blockingRevisionIds := orderedRevisionIds.filter fun id ↦
    !hasState revisionsById .ready id && !isExcluded id
  { eligible := blockingRevisionIds = []
    includedRevisionIds := orderedRevisionIds.filter fun id ↦
      !isExcluded id && hasState revisionsById .ready id
    excludedRevisionIds := orderedRevisionIds.filter isExcluded
    blockingRevisionIds := blockingRevisionIds }

/-- Evaluate the close invariant on exactly the current revisions. -/
def evaluateCloseEligibility (currentRevisions : List RevisionStatus)
    (exclusions : List CloseExclusion) : Except Error CloseEligibility := do
  let revisionsById ← indexBy (·.revisionId)
    (fun id ↦ .domainInvariant ("duplicate current revision: " ++ id)) currentRevisions
  let exclusionsById ← indexBy (·.revisionId)
    (fun id ↦ .domainInvariant ("duplicate close exclusion: " ++ id)) exclusions
  let unknownExclusions := sorted ((exclusionsById.map (·.revisionId)).filter fun id ↦
    id ∉ revisionsById.map (·.revisionId))
  require (unknownExclusions = []) (.domainInvariant
    ("close exclusions must reference current revisions: " ++ join ", " unknownExclusions))
  .ok (closeDecision revisionsById exclusionsById)

/-- **When a close request is well formed, and what is then decided.** -/
theorem evaluateCloseEligibility_eq_ok {currentRevisions : List RevisionStatus}
    {exclusions : List CloseExclusion} {decision : CloseEligibility} :
    evaluateCloseEligibility currentRevisions exclusions = .ok decision ↔
      (currentRevisions.map (·.revisionId)).Nodup ∧ (exclusions.map (·.revisionId)).Nodup ∧
        (∀ x ∈ exclusions, x.revisionId ∈ currentRevisions.map (·.revisionId)) ∧
        decision = closeDecision currentRevisions exclusions := by
  have hunknown : ∀ ids known : List String,
      sorted (ids.filter fun id ↦ id ∉ known) = [] ↔ ∀ id ∈ ids, id ∈ known := by
    intro ids known
    rw [← List.length_eq_zero_iff, (sorted_perm _).length_eq, List.length_eq_zero_iff,
      List.filter_eq_nil_iff]
    simp
  simp only [evaluateCloseEligibility, bind_eq_ok, indexBy_eq_ok, require_eq_ok, exists_const,
    Except.ok.injEq]
  constructor
  · rintro ⟨_, ⟨hrev, rfl⟩, _, ⟨hexc, rfl⟩, hknown, rfl⟩
    rw [hunknown] at hknown
    exact ⟨hrev, hexc, fun x hx ↦ hknown _ (List.mem_map_of_mem hx), rfl⟩
  · rintro ⟨hrev, hexc, hknown, rfl⟩
    refine ⟨_, ⟨hrev, rfl⟩, _, ⟨hexc, rfl⟩, (hunknown _ _).mpr fun id hid ↦ ?_, rfl⟩
    obtain ⟨x, hx, rfl⟩ := List.mem_map.mp hid
    exact hknown x hx

/-- Return a valid close decision or identify every blocking revision. -/
def requireCloseEligibility (currentRevisions : List RevisionStatus)
    (exclusions : List CloseExclusion) : Except Error CloseEligibility := do
  let decision ← evaluateCloseEligibility currentRevisions exclusions
  require (decision.eligible = true) (.closeBlocked decision.blockingRevisionIds)
  .ok decision

theorem requireCloseEligibility_eq_ok {currentRevisions : List RevisionStatus}
    {exclusions : List CloseExclusion} {decision : CloseEligibility} :
    requireCloseEligibility currentRevisions exclusions = .ok decision ↔
      evaluateCloseEligibility currentRevisions exclusions = .ok decision ∧
        decision.eligible = true := by
  simp only [requireCloseEligibility, bind_eq_ok, require_eq_ok, exists_const, Except.ok.injEq]
  constructor
  · rintro ⟨_, heval, helig, rfl⟩
    exact ⟨heval, helig⟩
  · rintro ⟨heval, helig⟩
    exact ⟨_, heval, helig, rfl⟩

theorem mem_includedRevisionIds {revisions : List RevisionStatus}
    {exclusions : List CloseExclusion} {id : String} :
    id ∈ (closeDecision revisions exclusions).includedRevisionIds ↔
      id ∈ revisions.map (·.revisionId) ∧ id ∉ exclusions.map (·.revisionId) ∧
        hasState revisions .ready id = true := by
  simp [closeDecision]

/-! ## Projection -/

def missingRun (kind : GenerationKind) : AggregateReason :=
  ⟨"invariant_error_missing_run", some kind, false, by decide⟩

def duplicateRun (kind : GenerationKind) : AggregateReason :=
  ⟨"invariant_error_duplicate_run", some kind, false, by decide⟩

/-- `runs_by_kind[kind]`. -/
def runsByKind (runs : List GenerationRunView) (kind : GenerationKind) : List GenerationRunView :=
  runs.filter (·.kind = kind)

def canonicalRunInvariantReasons (runs : List GenerationRunView) : List AggregateReason :=
  canonicalGenerationKinds.flatMap fun kind ↦
    match runsByKind runs kind with
    | [] => [missingRun kind]
    | [_] => []
    | _ :: _ :: _ => [duplicateRun kind]

/-- `run.error_code or fallback`: an empty code falls back too. -/
def failureCode (run : GenerationRunView) : String :=
  (run.errorCode.filter (· ≠ "")).getD (run.kind.value ++ "_" ++ run.state.value)

theorem failureCode_not_blank (run : GenerationRunView) : ¬Blank (failureCode run) := by
  rw [failureCode]
  cases h : run.errorCode.filter (· ≠ "") with
  | some code => exact run.coded code (Option.mem_def.mpr (Option.filter_eq_some_iff.mp h).1)
  | none => cases run.kind <;> cases run.state <;> decide

def failureReason (run : GenerationRunView) : AggregateReason :=
  ⟨failureCode run, some run.kind, run.state.isRetryableFailure, failureCode_not_blank run⟩

/-- Project the host-visible session result state from the canonical runs. -/
def projectGenerationAggregate (canonicalRuns : List GenerationRunView) :
    Except Error GenerationAggregate :=
  let invariantReasons := canonicalRunInvariantReasons canonicalRuns
  if invariantReasons ≠ [] then
    .ok ⟨.needsAttention, invariantReasons, false, .operatorOrReplan⟩
  else
    let runs := canonicalGenerationKinds.filterMap fun kind ↦ (runsByKind canonicalRuns kind).head?
    if runs.all (·.state = .succeeded) then .ok ⟨.ready, [], false, .none⟩
    else if runs.any (·.state.isActive) then .ok ⟨.processing, [], false, .none⟩
    else
      let failureReasons := (runs.filter (·.state.isFailure)).map failureReason
      if failureReasons = [] then
        .error (.domainInvariant "canonical generation runs cannot be projected")
      else
        let retryAvailable := failureReasons.any (·.retryable)
        .ok ⟨.needsAttention, failureReasons, retryAvailable,
          if retryAvailable then .retry else .operatorOrReplan⟩

/-- The projected state of one summary run and one research run. -/
def projectedState (summary research : GenerationRunState) : TalkSessionState :=
  if summary = .succeeded ∧ research = .succeeded then .ready
  else if summary.isActive = true ∨ research.isActive = true then .processing
  else .needsAttention

/-- **The two-kind table.** With one run of each kind the projection does not raise, and its state
depends on the two run states alone. -/
theorem projectGenerationAggregate_pair {runs : List GenerationRunView}
    {summary research : GenerationRunView} (hs : runsByKind runs .summary = [summary])
    (hr : runsByKind runs .research = [research]) :
    ∃ aggregate, projectGenerationAggregate runs = .ok aggregate ∧
      aggregate.state = projectedState summary.state research.state ∧
      (aggregate.retryAvailable = true ↔ aggregate.state = .needsAttention ∧
        (summary.state = .failedRetryable ∨ research.state = .failedRetryable)) := by
  obtain ⟨_, sstate, _, _⟩ := summary
  obtain ⟨_, rstate, _, _⟩ := research
  cases sstate <;> cases rstate <;>
    simp [projectGenerationAggregate, canonicalRunInvariantReasons, canonicalGenerationKinds, hs, hr,
      projectedState, GenerationRunState.isActive, GenerationRunState.isFailure, failureReason,
      GenerationRunState.isRetryableFailure]

/-- The projection never raises: runs that are neither all successful nor active have failed. -/
theorem projectGenerationAggregate_total (runs : List GenerationRunView) :
    ∃ aggregate, projectGenerationAggregate runs = .ok aggregate := by
  by_cases hinv : canonicalRunInvariantReasons runs = []
  · have hone : ∀ kind, ∃ run, runsByKind runs kind = [run] := by
      intro kind
      have hkind : kind ∈ canonicalGenerationKinds := by cases kind <;> decide
      have := List.flatMap_eq_nil_iff.mp hinv kind hkind
      split at this
      · exact nomatch this
      · exact ⟨_, ‹_›⟩
      · exact nomatch this
    obtain ⟨summary, hs⟩ := hone .summary
    obtain ⟨research, hr⟩ := hone .research
    obtain ⟨aggregate, haggregate, -⟩ := projectGenerationAggregate_pair hs hr
    exact ⟨aggregate, haggregate⟩
  · exact ⟨_, by rw [projectGenerationAggregate, if_pos hinv]⟩

end MeetingRag
