import MeetingRag.System.Aggregate

/-!
# One poll of the suggestion worker

`run_once` is three transactions with other people's work between them: it claims a report job,
compares outside any transaction, commits what the comparison came to, and puts the job back when
the failure may be tried again. The lease can run out at any point and another worker can then
claim the job.

Both ends of a comparison are committed through the fence of the lease. Only the commit of a success
stands in a `try` that turns a stale lease into an outcome; the commit of a failure does not. So a
poll reports the loss of its lease exactly when the comparison did not fail, and a failure that
outlives its lease leaves the poll as a `StaleLeaseError`.
-/

open Outcome Table Text

namespace MeetingRag

/-! ## Outcomes -/

/-- What a poll reports. -/
structure AutomaticSuggestionWorkerOutcome where
  jobId : Option UUID
  claimed : Bool
  completed : Bool
  staleCompletion : Bool
  targetState : Option JobState
  errorCode : Option String
deriving DecidableEq, Repr

/-- `_outcome`. -/
def suggestionWorkerOutcome (claimed : ClaimedJob JobDocument) (completed staleCompletion : Bool)
    (targetState : JobState) (errorCode : Option String) : AutomaticSuggestionWorkerOutcome where
  jobId := some claimed.id
  claimed := true
  completed := completed
  staleCompletion := staleCompletion
  targetState := some targetState
  errorCode := errorCode

/-- The outcome of a poll that found no job. -/
def idleSuggestionOutcome : AutomaticSuggestionWorkerOutcome where
  jobId := none
  claimed := false
  completed := false
  staleCompletion := false
  targetState := none
  errorCode := none

/-- The exception that `run_once` catches, if the claimed comparison failed: its code, and whether
its provider calls it retryable. A claim without a valid identity fails in the comparison. -/
def SuggestionOutcome.failure (claimed : ClaimedJob JobDocument) (outcome : SuggestionOutcome) :
    Option (String × Bool) :=
  match claimedReportIdentity claimed, outcome with
  | .error _, _ => some (suggestionFailureCode, false)
  | .ok _, .executed .. => none
  | .ok _, .runnerError => some (suggestionFailureCode, false)
  | .ok _, .providerFailure code retryable => some (code, retryable)

def Error.IsStaleLease : Error → Prop
  | .staleLease _ => True
  | _ => False

instance : DecidablePred Error.IsStaleLease := fun e ↦ by
  unfold Error.IsStaleLease
  split <;> infer_instance

/-! ## The poll -/

/-- One call of `run_once`: its arguments, what the comparison comes to, and what everybody else
commits while the comparison runs and between the completion and the requeue. -/
structure SuggestionPoll where
  owner : String
  leaseSeconds : ℤ
  leaseToken : UUID
  attemptId : UUID
  locked : List UUID
  claimedAt : StatementClock
  during : List SystemInput
  outcome : SuggestionOutcome
  resultId : UUID
  completedAt : StatementClock
  between : List SystemInput
  requeuedAt : StatementClock

namespace SuggestionPoll

variable (p : SuggestionPoll) (claimed : ClaimedJob JobDocument)

def claim : SystemInput :=
  ⟨p.claimedAt, .claimNext p.owner p.leaseSeconds (some [JobKind.reportSuggestions.value])
    p.leaseToken p.attemptId p.locked⟩

def completion : SystemInput := ⟨p.completedAt, .completeSuggestions claimed p.outcome p.resultId⟩

def requeue : SystemInput := ⟨p.requeuedAt, .requeue claimed⟩

/-- Put the failed job back. A stale requeue is ignored. -/
def putBack (code : String) (s : SystemState) :
    Except Error AutomaticSuggestionWorkerOutcome × SystemState :=
  let (reply, s) := systemMachine.step s (p.requeue claimed)
  match reply with
  | .ok _ | .error (.staleLease _) =>
    (.ok (suggestionWorkerOutcome claimed true false .failedRetryable (some code)), s)
  | .error e => (.error e, s)

/-- Commit a failure. The commit is outside the `try`. -/
def commitFailure (code : String) (retryable : Bool) (s : SystemState) :
    Except Error AutomaticSuggestionWorkerOutcome × SystemState :=
  let (reply, s) := systemMachine.step s (p.completion claimed)
  match reply with
  | .ok _ =>
    if SuggestionRetryable claimed retryable then
      p.putBack claimed code (systemMachine.exec s p.between)
    else (.ok (suggestionWorkerOutcome claimed true false .failedTerminal (some code)), s)
  | .error e => (.error e, s)

/-- Commit a success. A stale lease is an outcome. -/
def commitSuccess (s : SystemState) :
    Except Error AutomaticSuggestionWorkerOutcome × SystemState :=
  let (reply, s) := systemMachine.step s (p.completion claimed)
  match reply with
  | .ok _ => (.ok (suggestionWorkerOutcome claimed true false .succeeded none), s)
  | .error (.staleLease _) =>
    (.ok (suggestionWorkerOutcome claimed false true .succeeded none), s)
  | .error e => (.error e, s)

/-- The rest of the poll once the comparison has ended. -/
def finish (s : SystemState) : Except Error AutomaticSuggestionWorkerOutcome × SystemState :=
  match p.outcome.failure claimed with
  | some (code, retryable) => p.commitFailure claimed code retryable s
  | none => p.commitSuccess claimed s

/-- The state in which the comparison of the poll ends. -/
def compared (s : SystemState) : SystemState :=
  systemMachine.exec (systemMachine.step s p.claim).2 p.during

/-- `FencedAutomaticSuggestionWorker.run_once`. -/
def runOnce (s : SystemState) : Except Error AutomaticSuggestionWorkerOutcome × SystemState :=
  match (systemMachine.step s p.claim).1 with
  | .ok (.claimed (some claimed)) => p.finish claimed (p.compared s)
  -- a claim that returns no lease found no job
  | .ok _ => (.ok idleSuggestionOutcome, (systemMachine.step s p.claim).2)
  | .error e => (.error e, (systemMachine.step s p.claim).2)

end SuggestionPoll

/-! ## The fence of the commit -/

/-- The compare-and-set of the completion finds the lease. -/
def LeaseHeld (claimed : ClaimedJob JobDocument) (now : Timestamp) (db : Database) : Prop :=
  rowcount (Fenced claimed now) db.jobs = 1

instance (claimed : ClaimedJob JobDocument) (now : Timestamp) :
    DecidablePred (LeaseHeld claimed now) :=
  fun db ↦ inferInstanceAs (Decidable (rowcount (Fenced claimed now) db.jobs = 1))

section Fence

variable {claimed : ClaimedJob JobDocument} {clock : StatementClock} {db db' : Database}
  {targetState : JobState} {result : JobDocument} {errorCode : Option String}
  {effect : Option (Database → Except Error Database)} {resultId : UUID} {w : Unit}

theorem not_raises_requireCompletionArguments :
    ¬Raises Error.IsStaleLease (requireCompletionArguments targetState errorCode) := by
  refine not_raises_bind (not_raises_require id) fun _ _ ↦ ?_
  split
  · exact not_raises_require id
  · split
    · exact raises_error.not.mpr id
    · exact not_raises_bind (not_raises_require id) fun _ _ ↦ not_raises_require id

theorem held_of_completeWithEffects
    (h : completeWithEffects claimed targetState result errorCode effect resultId clock db =
      .ok (w, db')) : LeaseHeld claimed clock.seen db := by
  obtain ⟨-, -, h⟩ := bind_eq_ok.mp h
  exact (require_bind_eq_ok.mp h).1

/-- Under its lease, the commit of a failure raises a stale lease only if its effect does. -/
theorem not_raises_failed (hheld : LeaseHeld claimed clock.seen db)
    (htarget : targetState ≠ .succeeded)
    (heffect : ∀ db, ¬Raises Error.IsStaleLease (runEffect effect db)) :
    ¬Raises Error.IsStaleLease
      (completeWithEffects claimed targetState result errorCode effect resultId clock db) := by
  refine not_raises_bind not_raises_requireCompletionArguments fun _ _ ↦ ?_
  rw [LeaseHeld] at hheld
  rw [require_of hheld, ok_bind]
  refine not_raises_bind (heffect _) fun db₁ _ ↦ ?_
  rw [storeResult, if_neg htarget, ok_bind]
  exact not_raises_bind (not_raises_require id) fun _ _ ↦ not_raises_ok

/-- Without its lease, the commit of a success raises the stale lease. -/
theorem succeeded_of_not_held (hlost : ¬LeaseHeld claimed clock.seen db) :
    completeWithEffects claimed .succeeded result none effect resultId clock db =
      .error (.staleLease "job completion lease is stale") := by
  have hargs : requireCompletionArguments .succeeded none = .ok () := by decide
  rw [LeaseHeld] at hlost
  rw [completeWithEffects, hargs, ok_bind, require_of_not hlost, error_bind]

end Fence

section Comparison

variable {claimed : ClaimedJob JobDocument} {outcome : SuggestionOutcome} {resultId : UUID}
  {clock : StatementClock} {db db' : Database} {w : Unit}

variable (resultId clock db) in
/-- A comparison that did not fail is committed as a success. -/
theorem completeSuggestions_of_executed (h : outcome.failure claimed = none) :
    ∃ result effect, completeSuggestions claimed outcome resultId clock db =
      completeWithEffects claimed .succeeded result none effect resultId clock db := by
  unfold SuggestionOutcome.failure at h
  split at h
  · exact nomatch h
  · next identity sessionId roomId authorId proposals finalBlocks hident =>
    unfold completeSuggestions
    rw [hident]
    exact ⟨_, _, rfl⟩
  · exact nomatch h
  · exact nomatch h

/-- Every other one is committed as a failure. -/
theorem completeSuggestions_of_failed {code : String} {retryable : Bool}
    (h : outcome.failure claimed = some (code, retryable)) :
    completeSuggestions claimed outcome resultId clock db =
      failSuggestions claimed code retryable resultId clock db := by
  unfold SuggestionOutcome.failure at h
  split at h
  · next hident =>
    cases h
    unfold completeSuggestions
    rw [hident]
  · exact nomatch h
  · next hident =>
    cases h
    unfold completeSuggestions
    rw [hident]
  · next hident =>
    cases h
    unfold completeSuggestions
    rw [hident]

theorem held_of_failSuggestions {code : String} {retryable : Bool}
    (h : failSuggestions claimed code retryable resultId clock db = .ok (w, db')) :
    LeaseHeld claimed clock.seen db := by
  rw [failSuggestions] at h
  split at h
  · exact held_of_completeWithEffects h
  · obtain ⟨identity, -, h⟩ := bind_eq_ok.mp h
    exact held_of_completeWithEffects h

theorem not_raises_failSuggestions (code : String) (retryable : Bool) (resultId : UUID)
    (hheld : LeaseHeld claimed clock.seen db) :
    ¬Raises Error.IsStaleLease (failSuggestions claimed code retryable resultId clock db) := by
  rw [failSuggestions]
  split
  · exact not_raises_failed hheld (by decide) fun _ ↦ not_raises_ok
  · refine not_raises_bind ?_ fun identity _ ↦
      not_raises_failed hheld (by decide) fun _ ↦ not_raises_ok
    rw [claimedReportIdentity]
    split
    · exact not_raises_bind (not_raises_require id) fun _ _ ↦ not_raises_ok
    · exact raises_error.not.mpr id

end Comparison

/-! ## Reporting the loss -/

namespace SuggestionPoll

variable (p : SuggestionPoll) (claimed : ClaimedJob JobDocument) (s : SystemState)

/-- When the comparison of the poll ends, its lease is gone. -/
def Lost : Prop := ¬LeaseHeld claimed p.completedAt.seen (p.compared s).db

/-- The poll raises no stale lease, and a poll that has lost its lease reports that and leaves the
database as it found it then. -/
structure ReportsLoss : Prop where
  quiet : ¬Raises Error.IsStaleLease (p.runOnce s).1
  reported : ∀ claimed, (systemMachine.step s p.claim).1 = .ok (.claimed (some claimed)) →
    p.Lost claimed s → (∃ outcome, (p.runOnce s).1 = .ok outcome ∧ outcome.staleCompletion = true) ∧
      (p.runOnce s).2.db = (p.compared s).db

/-- The comparison did not fail, or the lease outlives it. -/
def Guarded : Prop :=
  ∀ claimed, (systemMachine.step s p.claim).1 = .ok (.claimed (some claimed)) →
    p.outcome.failure claimed = none ∨ ¬p.Lost claimed s

variable {p claimed s}

theorem Error.not_isStaleLease {e : Error} (h : ∀ message, e ≠ .staleLease message) :
    ¬e.IsStaleLease := by
  intro he
  cases e with
  | staleLease message => exact h message rfl
  | _ => exact he

variable (p claimed s) in
/-- What the step of the completion raises is what the commit of the worker raises. -/
theorem completion_fst : (systemMachine.step s (p.completion claimed)).1 =
    (completeSuggestions claimed p.outcome p.resultId p.completedAt s.db).map fun _ ↦ .done := by
  change (transaction s.db (completeSuggestions claimed p.outcome p.resultId p.completedAt
    s.db >>= fun r ↦ .ok (SystemReply.done, r.2))).1 = _
  cases completeSuggestions claimed p.outcome p.resultId p.completedAt s.db with
  | error e => rfl
  | ok r => rfl

/-- A requeue never lets a stale lease out. -/
theorem not_raises_putBack {code : String} :
    ¬Raises Error.IsStaleLease (p.putBack claimed code s).1 := by
  unfold putBack
  split
  next reply s' hstep =>
    split
    · exact not_raises_ok
    · exact not_raises_ok
    · next e hne => exact raises_error.not.mpr (Error.not_isStaleLease fun m h ↦ hne m (h ▸ rfl))

theorem not_raises_commitSuccess :
    ¬Raises Error.IsStaleLease (p.commitSuccess claimed s).1 := by
  unfold commitSuccess
  split
  next reply s' hstep =>
    split
    · exact not_raises_ok
    · exact not_raises_ok
    · next e hne => exact raises_error.not.mpr (Error.not_isStaleLease fun m h ↦ hne m (h ▸ rfl))

/-- A success whose lease is gone is reported, and nothing is written. -/
theorem commitSuccess_of_lost (hsuccess : p.outcome.failure claimed = none)
    (hlost : ¬LeaseHeld claimed p.completedAt.seen s.db) :
    (p.commitSuccess claimed s).1 = .ok (suggestionWorkerOutcome claimed false true .succeeded none) ∧
      (p.commitSuccess claimed s).2.db = s.db := by
  have hstale : (systemMachine.step s (p.completion claimed)).1 =
      .error (.staleLease "job completion lease is stale") := by
    obtain ⟨result, effect, hcommit⟩ := completeSuggestions_of_executed
      p.resultId p.completedAt s.db hsuccess
    rw [completion_fst, hcommit, succeeded_of_not_held hlost]
    rfl
  unfold commitSuccess
  dsimp only
  rw [hstale]
  exact ⟨rfl, systemMachine_rollback hstale⟩

/-- Under its lease, a failure never lets a stale lease out. -/
theorem not_raises_commitFailure {code : String} {retryable : Bool}
    (hfailure : p.outcome.failure claimed = some (code, retryable))
    (hheld : LeaseHeld claimed p.completedAt.seen s.db) :
    ¬Raises Error.IsStaleLease (p.commitFailure claimed code retryable s).1 := by
  have hcommit := not_raises_failSuggestions code retryable p.resultId hheld
  rw [← completeSuggestions_of_failed hfailure] at hcommit
  have hreply := completion_fst p claimed s
  unfold commitFailure
  split
  next reply s' hstep =>
    rw [hstep] at hreply
    split
    · split
      · exact not_raises_putBack
      · exact not_raises_ok
    · next e =>
      cases hbody : completeSuggestions claimed p.outcome p.resultId p.completedAt s.db with
      | ok r =>
        rw [hbody] at hreply
        exact nomatch hreply
      | error e' =>
        rw [hbody] at hreply hcommit
        rw [raises_error, Except.error.inj hreply]
        exact raises_error.not.mp hcommit

/-- A failure whose lease is gone reports nothing. -/
theorem commitFailure_of_lost {code : String} {retryable : Bool}
    (hfailure : p.outcome.failure claimed = some (code, retryable))
    (hlost : ¬LeaseHeld claimed p.completedAt.seen s.db)
    {outcome : AutomaticSuggestionWorkerOutcome} :
    (p.commitFailure claimed code retryable s).1 ≠ .ok outcome := by
  have hreply := completion_fst p claimed s
  rw [completeSuggestions_of_failed hfailure] at hreply
  unfold commitFailure
  split
  next reply s' hstep =>
    rw [hstep] at hreply
    cases hbody : failSuggestions claimed code retryable p.resultId p.completedAt s.db with
    | ok r => exact absurd (held_of_failSuggestions hbody) hlost
    | error e =>
      rw [hbody] at hreply
      cases hreply
      exact fun h ↦ nomatch h

/-! ## The claim of the poll -/

theorem not_raises_claim : ¬Raises Error.IsStaleLease (systemMachine.step s p.claim).1 := by
  have hkinds : normalizeClaimKinds (some [JobKind.reportSuggestions.value]) =
      .ok (some [.reportSuggestions]) := by decide +kernel
  have hclaim : ¬Raises Error.IsStaleLease (claimNext p.owner p.leaseSeconds
      (some [JobKind.reportSuggestions.value]) p.leaseToken p.attemptId p.locked p.claimedAt
      s.db) := by
    refine not_raises_bind (not_raises_require id) fun _ _ ↦ ?_
    refine not_raises_bind (not_raises_require id) fun _ _ ↦ ?_
    rw [hkinds, ok_bind]
    split
    · exact not_raises_ok
    · exact not_raises_bind (not_raises_insertUnique id) fun _ _ ↦ not_raises_ok
  change ¬Raises _ (transaction s.db (p.claim.call.body p.claimedAt s.db)).1
  rw [raises_transaction]
  exact not_raises_bind hclaim fun _ _ ↦ not_raises_ok

/-- **A poll reports the loss of its lease exactly when it is guarded.** Whatever other people and
workers commit before, during and after the comparison: the poll raises no stale lease, and reports
a lost one with the database as it then is, if and only if its comparison did not fail or its lease
is still held when it ends. -/
theorem reportsLoss_iff (p : SuggestionPoll) (s : SystemState) :
    p.ReportsLoss s ↔ p.Guarded s := by
  constructor
  · intro h claimed hclaimed
    by_contra hunguarded
    obtain ⟨hfailed, hlost⟩ := not_or.mp hunguarded
    rw [not_not] at hlost
    obtain ⟨⟨code, retryable⟩, hfailure⟩ := Option.ne_none_iff_exists'.mp hfailed
    obtain ⟨⟨outcome, hreturn, -⟩, -⟩ := h.reported claimed hclaimed hlost
    rw [runOnce, hclaimed] at hreturn
    dsimp only at hreturn
    rw [finish, hfailure] at hreturn
    exact commitFailure_of_lost hfailure hlost hreturn
  · intro h
    have hquiet := not_raises_claim (p := p) (s := s)
    constructor
    · unfold runOnce
      split
      · next claimed hclaimed =>
        unfold finish
        split
        · next code retryable hfailure =>
          have hheld := (h claimed hclaimed).resolve_left (hfailure ▸ Option.some_ne_none _)
          exact not_raises_commitFailure hfailure (not_not.mp hheld)
        · exact not_raises_commitSuccess
      · exact not_raises_ok
      · next e he =>
        rw [he, raises_error] at hquiet
        exact raises_error.not.mpr hquiet
    · intro claimed hclaimed hlost
      have hsuccess := (h claimed hclaimed).resolve_right (not_not.mpr hlost)
      obtain ⟨hreturn, hdb⟩ := commitSuccess_of_lost hsuccess hlost
      rw [runOnce, hclaimed]
      dsimp only
      rw [finish, hsuccess]
      exact ⟨⟨_, hreturn, rfl⟩, hdb⟩

end SuggestionPoll

/-! ## A slow provider -/

/-- Both lanes have succeeded in time, and their comparison is pending. -/
def comparisonPending : List SystemInput :=
  researchPutBack ++ [callAt 9 (.completeLane (laneLease 100 .research 2 55) (resultFor 62) 75 76)]

/-- The provider answers after the minute of the lease, when another worker has claimed the job. -/
def slowPoll (outcome : SuggestionOutcome) : SuggestionPoll where
  owner := "worker"
  leaseSeconds := 60
  leaseToken := 57
  attemptId := 58
  locked := []
  claimedAt := ⟨10, 10, le_rfl⟩
  during := [callAt 60000011 (claimCall "report_suggestions" 81)]
  outcome := outcome
  resultId := 77
  completedAt := ⟨60000012, 60000012, le_rfl⟩
  between := []
  requeuedAt := ⟨60000013, 60000013, le_rfl⟩

/-- A provider that errs after the lease has run out takes the worker down. -/
theorem late_failure_raises_stale_lease :
    ¬∀ now is (p : SuggestionPoll) claimed,
      systemMachine.Legal (emptySystem now) (is ++ p.claim :: (p.during ++ [p.completion claimed])) →
        p.ReportsLoss (systemMachine.exec (emptySystem now) is) := by
  intro h
  have hquiet := (h 0 comparisonPending (slowPoll (.providerFailure "quota" false)) reportLease
    (by decide +kernel)).quiet
  have hraised : ((slowPoll (.providerFailure "quota" false)).runOnce
      (systemMachine.exec (emptySystem 0) comparisonPending)).1 =
        .error (.staleLease "job completion lease is stale") := by
    decide +kernel
  rw [hraised] at hquiet
  exact hquiet (raises_error.mpr trivial)

end MeetingRag
