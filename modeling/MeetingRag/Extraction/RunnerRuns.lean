import MeetingRag.Extraction.Runner
import MeetingRag.Queue.Refinement

/-!
# Runners on one queue

Any number of extraction runners and any other callers work on the same queue. An iteration of a runner is
two transactions, and whatever happens between them happens to the runner: its lease may run out, another
runner may take the job over and finish it, and the job may even be requeued.

The second transaction never raises. It commits exactly when the lease is still held, and otherwise leaves
no trace (`run_once_commits_or_stale`). So what is stored about an extraction has come through the
sandbox: as long as nobody else completes extraction jobs, every result is the summary of a validated
payload about the bytes of the revision that its job names (`extraction_results_backed`).
-/

open Outcome Py Json Table

namespace MeetingRag

namespace ExtractionRunner

/-! ## The machine -/

structure ExtractionRunOutcome where
  jobId : Option UUID
  claimed : Bool
  completed : Bool
  staleCompletion : Bool
  targetState : Option JobState
  errorCode : Option String
deriving DecidableEq

structure RunnerState (ρ : Type) where
  queue : QueueState Fields ρ
  /-- The jobs that some runner has claimed and not come back with. -/
  working : List (ClaimedJob Fields)

inductive RunnerInput (U : Nfc) (A : Alnum) (ρ : Type)
  /-- The first transaction of an iteration. -/
  | claim (clock : StatementClock) (owner : String) (leaseSeconds : ℤ) (leaseToken attemptId : UUID)
      (locked : List UUID)
  /-- The execution of one of the claimed jobs, and the second transaction. -/
  | finish (clock : StatementClock) (n : ℕ) (execute : Adapter U A) (resultId : UUID)
  /-- Any other call of the queue. -/
  | other (input : QueueInput Fields ρ)

inductive RunnerReply
  | claimed (claimed : ClaimedJob Fields)
  | returned (outcome : ExtractionRunOutcome)
  | raised (e : Error)
  | other

def idleOutcome : ExtractionRunOutcome := ⟨none, false, false, false, none, none⟩

def finishedOutcome (claimed : ClaimedJob Fields) (completion : Completion) (completed : Bool) :
    ExtractionRunOutcome :=
  ⟨some claimed.id, true, completed, !completed, some completion.targetState, completion.errorCode⟩

section Machine

variable {U : Nfc} {A : Alnum} {ρ : Type}

/-- The call of the second transaction. -/
def finishCall (claimed : ClaimedJob Fields) (completion : Completion) (resultId : UUID) :
    QueueCall Fields ρ :=
  .completeWithEffects claimed completion.targetState completion.result completion.errorCode none resultId

/-- `run_once`, cut between its two transactions, beside the other callers of the queue. -/
def runnerStep (spellings : OtherSpellings) (load : Loader U A) (s : RunnerState ρ) :
    RunnerInput U A ρ → RunnerReply × RunnerState ρ
  | .claim clock owner leaseSeconds leaseToken attemptId locked =>
    let r := (queueMachine Fields ρ).step s.queue
      ⟨clock, .claimNext owner leaseSeconds (some ["extraction"]) leaseToken attemptId locked⟩
    match r.1 with
    | .ok (.claimed (some claimed)) => (.claimed claimed, ⟨r.2, s.working ++ [claimed]⟩)
    | .ok _ => (.returned idleOutcome, ⟨r.2, s.working⟩)
    | .error e => (.raised e, ⟨r.2, s.working⟩)
  | .finish clock n execute resultId =>
    match s.working[n]? with
    | none => (.other, s)
    | some claimed =>
      let completion := executeClaimedJob spellings load execute claimed.payload
      let r := (queueMachine Fields ρ).step s.queue ⟨clock, finishCall claimed completion resultId⟩
      let s' : RunnerState ρ := ⟨r.2, s.working.eraseIdx n⟩
      match r.1 with
      | .ok _ => (.returned (finishedOutcome claimed completion true), s')
      | .error (.staleLease _) => (.returned (finishedOutcome claimed completion false), s')
      | .error e => (.raised e, s')
  | .other input => (.other, ⟨((queueMachine Fields ρ).step s.queue input).2, s.working⟩)

/-- The database clock does not go back, `uuid4` is new among the results, and what the sandbox returns can
be written down. -/
def RunnerEnabled (s : RunnerState ρ) : RunnerInput U A ρ → Prop
  | .claim clock _ _ _ _ _ => s.queue.now ≤ clock.seen
  | .finish clock _ execute resultId => s.queue.now ≤ clock.seen ∧
      (∀ r ∈ s.queue.store.jobResults, r.id ≠ resultId) ∧
      ∀ request execution, execute request = .ok execution → Measured execution
  | .other input => s.queue.now ≤ input.clock.seen

def runnerMachine (spellings : OtherSpellings) (load : Loader U A) :
    Machine (RunnerState ρ) (RunnerInput U A ρ) RunnerReply where
  enabled := RunnerEnabled
  step := runnerStep spellings load

/-- No runner is at work. -/
def idleRunners (other : ρ) (now : Timestamp) : RunnerState ρ := ⟨emptyQueue other now, []⟩

variable {spellings : OtherSpellings} {load : Loader U A}

theorem runnerStep_claim (spellings : OtherSpellings) (load : Loader U A) (s : RunnerState ρ)
    (clock : StatementClock) (owner : String) (leaseSeconds : ℤ) (leaseToken attemptId : UUID)
    (locked : List UUID) :
    let r := (queueMachine Fields ρ).step s.queue
      ⟨clock, .claimNext owner leaseSeconds (some ["extraction"]) leaseToken attemptId locked⟩
    let s' := (runnerStep spellings load s (.claim clock owner leaseSeconds leaseToken attemptId locked)).2
    s'.queue = r.2 ∧ (s'.working = s.working ∨
      ∃ claimed, r.1 = .ok (.claimed (some claimed)) ∧ s'.working = s.working ++ [claimed]) := by
  intro r s'
  simp only [s', runnerStep]
  split
  · next claimed hclaimed => exact ⟨rfl, .inr ⟨claimed, hclaimed, rfl⟩⟩
  · exact ⟨rfl, .inl rfl⟩
  · exact ⟨rfl, .inl rfl⟩

theorem runnerStep_finish {s : RunnerState ρ} {clock : StatementClock} {n : ℕ} {execute : Adapter U A}
    {resultId : UUID} {claimed : ClaimedJob Fields} (hn : s.working[n]? = some claimed) :
    let completion := executeClaimedJob spellings load execute claimed.payload
    (runnerStep spellings load s (.finish clock n execute resultId)).2 =
      ⟨((queueMachine Fields ρ).step s.queue ⟨clock, finishCall claimed completion resultId⟩).2,
        s.working.eraseIdx n⟩ := by
  intro completion
  simp only [runnerStep, hn]
  split
  · rfl
  · rfl
  · rfl

/-- The queue moves by one of its steps, or not at all. -/
theorem runnerStep_queue (spellings : OtherSpellings) (load : Loader U A) (s : RunnerState ρ)
    (input : RunnerInput U A ρ) :
    (runnerStep spellings load s input).2.queue = s.queue ∨
      ∃ i, (runnerStep spellings load s input).2.queue = ((queueMachine Fields ρ).step s.queue i).2 := by
  cases input with
  | claim clock owner leaseSeconds leaseToken attemptId locked => exact .inr ⟨_, (runnerStep_claim ..).1⟩
  | finish clock n execute resultId =>
    by_cases hn : s.working[n]? = none
    · rw [runnerStep, hn]
      exact .inl rfl
    · obtain ⟨claimed, hclaimed⟩ := Option.ne_none_iff_exists'.mp hn
      rw [runnerStep_finish hclaimed]
      exact .inr ⟨_, rfl⟩
  | other i => exact .inr ⟨i, rfl⟩

theorem consistent_runnerStep (spellings : OtherSpellings) (load : Loader U A) {s : RunnerState ρ}
    (h : Consistent s.queue.store) (input : RunnerInput U A ρ) :
    Consistent (runnerStep spellings load s input).2.queue.store := by
  rcases runnerStep_queue spellings load s input with hsame | ⟨i, hi⟩
  · rw [hsame]
    exact h
  · rw [hi]
    exact consistent_step i h

end Machine

/-! ## The second transaction -/

section Finishing

variable {U : Nfc} {A : Alnum} {ρ : Type} {spellings : OtherSpellings} {load : Loader U A}
  {execute : Adapter U A} {claimed : ClaimedJob Fields} {completion : Completion} {resultId : UUID}
  {clock : StatementClock}

/-- The store that a completion commits: the job and its attempt are given up, and a success has a result. -/
def finishedStore (claimed : ClaimedJob Fields) (completion : Completion) (resultId : UUID)
    (clock : StatementClock) (s : Store Fields ρ) : Store Fields ρ :=
  { s with
    jobs := updateWhere (Fenced claimed clock.seen)
      (completedJob completion.targetState completion.errorCode) s.jobs
    jobResults := s.jobResults ++
      if completion.targetState = .succeeded then [⟨resultId, claimed.id, completion.result⟩] else []
    jobAttempts := updateWhere (CurrentAttempt claimed)
      (endedAttempt completion.targetState completion.errorCode) s.jobAttempts }

/-- A job that is not done has no result, so there is room for one. -/
theorem not_resultsClash {s : Store Fields ρ} (h : Consistent s) {j : Job Fields} (hj : j ∈ s.jobs)
    (hfenced : Fenced claimed clock.seen j) (hfresh : ∀ r ∈ s.jobResults, r.id ≠ resultId) (result : Fields) :
    ∀ r ∈ s.jobResults, ¬resultsClash r ⟨resultId, claimed.id, result⟩ := by
  rintro r hr (hid | hjob)
  · exact hfresh r hr hid
  -- the invariant of the queue gives a result to the jobs that succeeded, and to no other
  have hlength := (h.coherent j hj).result
  have hopen : j.state ≠ .succeeded := by
    rw [hfenced.2.1]
    decide
  rw [if_neg hopen, List.length_eq_zero_iff, resultsOf, List.filter_eq_nil_iff] at hlength
  exact hlength r hr (decide_eq_true (hjob.trans hfenced.1.symm))

theorem completeWithEffects_of_fenced {s : Store Fields ρ} (h : Consistent s) {j : Job Fields} (hj : j ∈ s.jobs)
    (hfenced : Fenced claimed clock.seen j)
    (harguments : requireCompletionArguments completion.targetState completion.errorCode = .ok ())
    (hencodable : completion.targetState = .succeeded → JsonDocument.encodable completion.result = true)
    (hfresh : ∀ r ∈ s.jobResults, r.id ≠ resultId) :
    completeWithEffects claimed completion.targetState completion.result completion.errorCode none resultId
      clock s = .ok ((), finishedStore claimed completion resultId clock s) := by
  have hcount : rowcount (Fenced claimed clock.seen) s.jobs = 1 :=
    (fenced_rowcount h.ids hj hfenced.1 _).mpr hfenced
  have hattempt := rowcount_currentAttempt h hj hfenced
  have hstored : storeResult completion.targetState resultId claimed.id completion.result
      { s with jobs := updateWhere (Fenced claimed clock.seen)
                 (completedJob completion.targetState completion.errorCode) s.jobs } =
      .ok { s with
        jobs := updateWhere (Fenced claimed clock.seen)
          (completedJob completion.targetState completion.errorCode) s.jobs
        jobResults := (finishedStore claimed completion resultId clock s).jobResults } := by
    unfold storeResult finishedStore
    by_cases hsucceeded : completion.targetState = .succeeded
    · rw [if_pos hsucceeded, requireFinite, require_of (hencodable hsucceeded), ok_bind,
        insertUnique_of_fresh (not_resultsClash h hj hfenced hfresh completion.result), ok_bind,
        if_pos hsucceeded]
    · rw [if_neg hsucceeded, if_neg hsucceeded, List.append_nil]
  rw [completeWithEffects, harguments, ok_bind, require_of hcount, ok_bind, runEffect, ok_bind, hstored,
    ok_bind, require_of hattempt, ok_bind]
  rfl

theorem completeWithEffects_of_not_fenced (resultId : UUID) {s : Store Fields ρ}
    (harguments : requireCompletionArguments completion.targetState completion.errorCode = .ok ())
    (h : ∀ j ∈ s.jobs, ¬Fenced claimed clock.seen j) :
    completeWithEffects claimed completion.targetState completion.result completion.errorCode none resultId
      clock s = .error (.staleLease "job completion lease is stale") := by
  have hcount : ¬rowcount (Fenced claimed clock.seen) s.jobs = 1 := by
    rw [rowcount_eq_zero.mpr h]
    exact Nat.zero_ne_one
  rw [completeWithEffects, harguments, ok_bind, require_of_not hcount, error_bind]

/-- The document of a completion can be stored, if it is stored at all. -/
theorem encodable_execute {jobPayload : Fields}
    (hmeasured : ∀ request execution, execute request = .ok execution → Measured execution)
    (hsucceeded : (executeClaimedJob spellings load execute jobPayload).targetState = .succeeded) :
    JsonDocument.encodable (executeClaimedJob spellings load execute jobPayload).result = true := by
  rcases executeClaimedJob_cases spellings load execute jobPayload with
    ⟨code, retryable, h⟩ | ⟨payload, inputBytes, request, execution, h⟩
  · rw [h] at hsucceeded
    rcases retryable with - | -
    · exact nomatch hsucceeded
    · exact nomatch hsucceeded
  · exact encodable_of_succeeds h.succeeds (hmeasured request execution h.executed)

/-- What an iteration comes back with, and the store it leaves. -/
def Finishes (held : Prop) (claimed : ClaimedJob Fields) (completion : Completion) (resultId : UUID)
    (clock : StatementClock) (s : Store Fields ρ) (r : RunnerReply × RunnerState ρ) : Prop :=
  (held ∧ r.1 = .returned (finishedOutcome claimed completion true) ∧
      r.2.queue.store = finishedStore claimed completion resultId clock s) ∨
    (¬held ∧ r.1 = .returned (finishedOutcome claimed completion false) ∧ r.2.queue.store = s)

theorem finishes_step (spellings : OtherSpellings) (load : Loader U A) {s : RunnerState ρ}
    (hconsistent : Consistent s.queue.store) {n : ℕ}
    (hn : s.working[n]? = some claimed)
    (henabled : RunnerEnabled s (.finish clock n execute resultId)) :
    Finishes (∃ j ∈ s.queue.store.jobs, Fenced claimed clock.seen j) claimed
      (executeClaimedJob spellings load execute claimed.payload) resultId clock s.queue.store
      (runnerStep spellings load s (.finish clock n execute resultId)) := by
  obtain ⟨-, hfresh, hmeasured⟩ := henabled
  have harguments : requireCompletionArguments
      (executeClaimedJob spellings load execute claimed.payload).targetState
      (executeClaimedJob spellings load execute claimed.payload).errorCode = .ok () :=
    requireCompletionArguments_execute
  by_cases hheld : ∃ j ∈ s.queue.store.jobs, Fenced claimed clock.seen j
  · obtain ⟨j, hj, hfenced⟩ := hheld
    have hcomplete := completeWithEffects_of_fenced hconsistent hj hfenced harguments
      (encodable_execute hmeasured) hfresh
    have hbody : (finishCall claimed (executeClaimedJob spellings load execute claimed.payload) resultId).body
        clock s.queue.store = .ok (.done, finishedStore claimed
          (executeClaimedJob spellings load execute claimed.payload) resultId clock s.queue.store) := by
      show (completeWithEffects _ _ _ _ none _ _ _ >>= _) = _
      rw [hcomplete]
      rfl
    refine .inl ⟨⟨j, hj, hfenced⟩, ?_, ?_⟩
    · simp only [runnerStep, hn, queueMachine, hbody, transaction_ok]
    · simp only [runnerStep, hn, queueMachine, hbody, transaction_ok]
  -- the lease was lost while the sandbox was at work
  · have hfree : ∀ j ∈ s.queue.store.jobs, ¬Fenced claimed clock.seen j :=
      fun j hj hfenced ↦ hheld ⟨j, hj, hfenced⟩
    have hstale := completeWithEffects_of_not_fenced resultId harguments hfree
    have hbody : (finishCall claimed (executeClaimedJob spellings load execute claimed.payload) resultId).body
        clock s.queue.store = .error (.staleLease "job completion lease is stale") := by
      show (completeWithEffects _ _ _ _ none _ _ _ >>= _) = _
      rw [hstale]
      rfl
    refine .inr ⟨hheld, ?_, ?_⟩
    · simp only [runnerStep, hn, queueMachine, hbody, transaction_error]
    · simp only [runnerStep, hn, queueMachine, hbody, transaction_error]

end Finishing

/-! ## Results that the sandbox backs -/

section Backing

variable {U : Nfc} {A : Alnum} {ρ : Type} {spellings : OtherSpellings} {load : Loader U A} {limit : ℕ}
  {policy : Ipc.SandboxPolicy}

/-- The adapter that is `execute_sandbox`, for what the parser does with each request. -/
def sandboxAdapter (A : Alnum) (limit : ℕ) (policy : Ipc.SandboxPolicy) (durationMs : ℕ)
    (behaviour : Ipc.SandboxRequest U → Ipc.Behaviour) : Adapter U A := fun request ↦
  match Ipc.executeSandbox limit request policy durationMs (behaviour request) with
  | .ok execution => .ok execution
  | .error _ => .error .other

/-- The result is the summary of a payload that the validator accepts, about the bytes of the revision that
the job names. -/
def Backed (spellings : OtherSpellings) (load : Loader U A) (limit : ℕ) (policy : Ipc.SandboxPolicy)
    (jobPayload result : Fields) : Prop :=
  ∃ (payload : ExtractionJobPayload U) (request : Ipc.SandboxRequest U) (raw : List UInt8) (envelope : Fields)
    (rows : List (Str × Str)) (anchorSetHash : Str) (durationMs : ℤ),
    parseExtractionPayload (A := A) spellings jobPayload = .ok payload ∧
    (∃ source, load payload.revisionId = .ok source ∧ source.revisionId = payload.revisionId ∧
      source.inputBytes = some request.inputBytes) ∧
    lit request.expectedMediaType.value = payload.mediaType ∧ request.expectedParser = payload.parser ∧
    raw.length ≤ policy.maxOutputBytes ∧ Spells limit raw envelope ∧
    IsSuccess (request.expected policy.bounds) rows envelope ∧
    canonicalSha256 U "" (anchorSet (rows.map Prod.snd)) = .ok anchorSetHash ∧
    result = (summary payload.revisionId (sha256Hex request.inputBytes) anchorSetHash rows.length
      durationMs).result

/-- **A success through the sandbox is backed.** -/
theorem backed_of_extracted {durationMs : ℕ} {behaviour : Ipc.SandboxRequest U → Ipc.Behaviour}
    {jobPayload : Fields} {completion : Completion} {payload : ExtractionJobPayload U}
    {inputBytes : List UInt8} {request : Ipc.SandboxRequest U} {execution : Ipc.SandboxExecution}
    (h : Extracted spellings load (sandboxAdapter A limit policy durationMs behaviour) jobPayload completion
      payload inputBytes request execution) :
    Backed spellings load limit policy jobPayload completion.result := by
  obtain ⟨hparsed, hloaded, ⟨rfl, hmedia, hparser⟩, hexecuted, hsucceeds⟩ := h
  have hran : Ipc.executeSandbox limit request policy durationMs (behaviour request) = .ok execution := by
    unfold sandboxAdapter at hexecuted
    split at hexecuted
    · next hok => rw [hok, Except.ok.inj hexecuted]
    · exact nomatch hexecuted
  obtain ⟨-, capture, staged, raw, envelope, rows, -, -, -, hholds, hspells, hrows, rfl⟩ :=
    Ipc.executeSandbox_accepts_iff.mp ⟨hran, hsucceeds.ok⟩
  obtain ⟨envelope', result, anchorSetHash, blocks, henvelope, hresult, -, hhash, -, hblocks, rfl⟩ :=
    hsucceeds.result
  obtain rfl := Option.some.inj henvelope
  -- The summary and the validator speak about the same fields of the payload.
  have hsuccess := hrows
  obtain ⟨-, -, result', profile, blocks', hresult', hall⟩ := hsuccess
  obtain rfl := Json.object.inj (hresult'.symm.trans hresult)
  obtain rfl := Json.array.inj (hall.blocksField.symm.trans hblocks)
  obtain ⟨hash, hcanonical, hfield⟩ := hall.anchorSet
  obtain rfl := Json.str.inj (hfield.symm.trans hhash)
  have hcount : blocks'.length = rows.length := by
    have hlength := hall.areBlocks.length_eq
    rwa [List.length_zipIdx] at hlength
  obtain ⟨size, -, -, hbound, -⟩ := hholds
  refine ⟨payload, request, raw, envelope, rows, hash, durationMs, hparsed, hloaded, hmedia, hparser, hbound,
    hspells, hrows, hcanonical, ?_⟩
  rw [hcount]
  rfl

/-- Runners use the sandbox, and nobody else completes extraction jobs. -/
def Sandboxed (limit : ℕ) (policy : Ipc.SandboxPolicy) (s : RunnerState ρ) : RunnerInput U A ρ → Prop
  | .claim _ _ _ _ _ _ => True
  | .finish _ _ execute _ =>
    ∃ durationMs behaviour, execute = sandboxAdapter A limit policy durationMs behaviour
  | .other input =>
    match input.call with
    | .completeWithEffects claimed _ _ _ _ _ =>
      ∀ j ∈ s.queue.store.jobs, j.id = claimed.id → j.kind ≠ .extraction
    | _ => True

structure RunnerSound (spellings : OtherSpellings) (load : Loader U A) (limit : ℕ) (policy : Ipc.SandboxPolicy)
    (s : RunnerState ρ) : Prop where
  consistent : Consistent s.queue.store
  /-- A runner works on the payload that its job still has. -/
  working : ∀ c ∈ s.working, ∃ j ∈ s.queue.store.jobs, j.id = c.id ∧ j.payload = c.payload
  backed : ∀ r ∈ s.queue.store.jobResults, ∀ j ∈ s.queue.store.jobs, j.id = r.jobId → j.kind = .extraction →
    Backed spellings load limit policy j.payload r.result

/-- A queue step keeps the columns that identify a job. -/
theorem QueueStep.keeps_identity {s s' : Store Fields ρ} (h : Consistent s) (hstep : QueueStep s s') :
    ∀ j ∈ s.jobs, ∃ j' ∈ s'.jobs, j'.identity = j.identity := by
  intro j hj
  have hgrows : ∃ rows, Grows rows s.jobs s'.jobs := by
    cases hstep with
    | unchanged hsame => exact ⟨[], hsame ▸ Grows.refl _⟩
    | inserted rows hins => exact ⟨rows, (QueueMoves.inserted hins h).2⟩
    | granted row claimed now leaseUntil hgrant => exact ⟨[], (QueueMoves.granted hgrant h).2⟩
    | extended row leaseUntil hextend => exact ⟨[], (QueueMoves.extended hextend h).2⟩
    | completed row claimed targetState errorCode rows hdone => exact ⟨rows, (QueueMoves.completed hdone h).2⟩
    | requeued row hrequeue => exact ⟨[], (QueueMoves.requeued hrequeue h).2⟩
  obtain ⟨rows, hgrows⟩ := hgrows
  obtain ⟨j', hj', hidentity, -⟩ := hgrows.kept j hj
  exact ⟨j', hj', hidentity⟩

/-- A result that a call adds is one of the job that it completes. -/
theorem body_results {clock : StatementClock} {s s' : Store Fields ρ} {call : QueueCall Fields ρ}
    {reply : QueueReply Fields} (hids : UniqueIds s) (h : call.body clock s = .ok (reply, s')) :
    ∀ r ∈ s'.jobResults, r ∈ s.jobResults ∨ ∃ claimed targetState result errorCode effect resultId,
      call = .completeWithEffects claimed targetState result errorCode effect resultId ∧
        r.jobId = claimed.id := by
  intro r hr
  cases call with
  | enqueue jobId logicalKey kind payload snapshotId =>
    obtain ⟨x, hx, hs'⟩ := bind_eq_ok.mp h
    cases hs'
    obtain ⟨rows, hins, -⟩ := enqueue_step hx
    exact .inl (hins.results ▸ hr)
  | claimNext owner leaseSeconds kinds leaseToken attemptId locked =>
    obtain ⟨x, hx, hs'⟩ := bind_eq_ok.mp h
    cases hs'
    rcases claimNext_step hx with ⟨-, hsame⟩ | ⟨row, claimed, -, hgrant⟩
    · exact .inl (hsame ▸ hr)
    · exact .inl (hgrant.results ▸ hr)
  | heartbeat claimed leaseSeconds =>
    obtain ⟨x, hx, hs'⟩ := bind_eq_ok.mp h
    cases hs'
    obtain ⟨row, -, hextend⟩ := heartbeat_step hids hx
    rw [hextend.store] at hr
    exact .inl hr
  | completeWithEffects claimed targetState result errorCode effect resultId =>
    obtain ⟨x, hx, hs'⟩ := bind_eq_ok.mp h
    cases hs'
    obtain ⟨row, rows, -, hdone⟩ := completeWithEffects_step hids hx
    obtain ⟨added, hadded, hrow, -⟩ := hdone.results
    rw [hadded] at hr
    rcases List.mem_append.mp hr with hr | hr
    · exact .inl hr
    · exact .inr ⟨claimed, targetState, result, errorCode, effect, resultId, rfl, (hrow r hr).trans hdone.id⟩
  | requeueRetryable jobId expectedLeaseGeneration =>
    obtain ⟨x, hx, hs'⟩ := bind_eq_ok.mp h
    cases hs'
    obtain ⟨row, -, hrequeue⟩ := requeueRetryable_step hids hx
    rw [hrequeue.store] at hr
    exact .inl hr

/-- The job of a row is the one it was. -/
theorem identity_of_step {q : QueueState Fields ρ} (i : QueueInput Fields ρ) (h : Consistent q.store)
    {j j' : Job Fields} (hj : j ∈ q.store.jobs) (hj' : j' ∈ ((queueMachine Fields ρ).step q i).2.store.jobs)
    (hid : j'.id = j.id) : j'.identity = j.identity := by
  obtain ⟨k, hk, hidentity⟩ := QueueStep.keeps_identity h (queueMachine_step q i h.ids) j hj
  have hkid : k.id = j.id := congrArg JobIdentity.id hidentity
  rw [eq_of_key_eq (consistent_step i h).ids hj' hk (hid.trans hkid.symm)]
  exact hidentity

/-- **What a queue step asks of the results**: those that it adds are backed. -/
theorem backed_step {q : QueueState Fields ρ} {i : QueueInput Fields ρ} (h : Consistent q.store)
    (hbacked : ∀ r ∈ q.store.jobResults, ∀ j ∈ q.store.jobs, j.id = r.jobId → j.kind = .extraction →
      Backed spellings load limit policy j.payload r.result)
    (hadded : ∀ r ∈ ((queueMachine Fields ρ).step q i).2.store.jobResults, r ∉ q.store.jobResults →
      ∀ j ∈ q.store.jobs, j.id = r.jobId → j.kind = .extraction →
        Backed spellings load limit policy j.payload r.result) :
    ∀ r ∈ ((queueMachine Fields ρ).step q i).2.store.jobResults,
      ∀ j ∈ ((queueMachine Fields ρ).step q i).2.store.jobs, j.id = r.jobId → j.kind = .extraction →
        Backed spellings load limit policy j.payload r.result := by
  intro r hr j hj hid hkind
  -- no call adds a job together with its result, so the job was there
  have hbefore : ∃ k ∈ q.store.jobs, k.id = r.jobId := by
    have hbody : ∀ x ∈ ((queueMachine Fields ρ).step q i).2.store.jobResults,
        ∃ k ∈ q.store.jobs, k.id = x.jobId := by
      refine transaction_snd_of (P := fun s : Store Fields ρ ↦ ∀ x ∈ s.jobResults,
        ∃ k ∈ q.store.jobs, k.id = x.jobId) h.results ?_
      intro reply s' hs' x hx
      rcases body_results h.ids hs' x hx with hx | ⟨claimed, _, _, _, _, _, hcall, hjob⟩
      · exact h.results x hx
      · rw [hcall] at hs'
        obtain ⟨y, hy, -⟩ := bind_eq_ok.mp hs'
        obtain ⟨row, rows, -, hdone⟩ := completeWithEffects_step h.ids hy
        exact ⟨row, hdone.mem, hdone.id.trans hjob.symm⟩
    exact hbody r hr
  obtain ⟨k, hk, hkid⟩ := hbefore
  have hidentity := identity_of_step i h hk hj (hid.trans hkid.symm)
  have hpayload : j.payload = k.payload := congrArg JobIdentity.payload hidentity
  have hkind' : k.kind = .extraction := (congrArg JobIdentity.kind hidentity).symm.trans hkind
  rw [hpayload]
  by_cases hold : r ∈ q.store.jobResults
  · exact hbacked r hold k hk hkid hkind'
  · exact hadded r hr hold k hk hkid hkind'

theorem working_step {s : RunnerState ρ} (h : RunnerSound spellings load limit policy s)
    (i : QueueInput Fields ρ) {c : ClaimedJob Fields} (hc : c ∈ s.working) :
    ∃ j ∈ ((queueMachine Fields ρ).step s.queue i).2.store.jobs, j.id = c.id ∧ j.payload = c.payload := by
  obtain ⟨j, hj, hid, hpayload⟩ := h.working c hc
  obtain ⟨j', hj', hidentity⟩ :=
    QueueStep.keeps_identity h.consistent (queueMachine_step s.queue i h.consistent.ids) j hj
  exact ⟨j', hj', (congrArg JobIdentity.id hidentity).trans hid,
    (congrArg JobIdentity.payload hidentity).trans hpayload⟩

/-- A call that completes no extraction job adds no result of one. -/
theorem backed_of_call {s : RunnerState ρ} (h : RunnerSound spellings load limit policy s)
    {i : QueueInput Fields ρ} (hother : ∀ claimed targetState result errorCode effect resultId,
      i.call = .completeWithEffects claimed targetState result errorCode effect resultId →
        ∀ j ∈ s.queue.store.jobs, j.id = claimed.id → j.kind ≠ .extraction) :
    ∀ r ∈ ((queueMachine Fields ρ).step s.queue i).2.store.jobResults,
      ∀ j ∈ ((queueMachine Fields ρ).step s.queue i).2.store.jobs, j.id = r.jobId → j.kind = .extraction →
        Backed spellings load limit policy j.payload r.result := by
  refine backed_step h.consistent h.backed fun r hr hnew j hj hid hkind ↦ ?_
  have hsource : r ∈ s.queue.store.jobResults ∨ ∃ claimed targetState result errorCode effect resultId,
      i.call = .completeWithEffects claimed targetState result errorCode effect resultId ∧
        r.jobId = claimed.id := by
    have hall : ∀ x ∈ ((queueMachine Fields ρ).step s.queue i).2.store.jobResults,
        x ∈ s.queue.store.jobResults ∨ ∃ claimed targetState result errorCode effect resultId,
          i.call = .completeWithEffects claimed targetState result errorCode effect resultId ∧
            x.jobId = claimed.id :=
      transaction_snd_of (P := fun t : Store Fields ρ ↦ ∀ x ∈ t.jobResults, _) (fun x hx ↦ .inl hx)
        fun _ _ hbody ↦ body_results h.consistent.ids hbody
    exact hall r hr
  rcases hsource with hold | ⟨claimed, targetState, result, errorCode, effect, resultId, hcall, hjob⟩
  · exact absurd hold hnew
  · exact absurd hkind (hother _ _ _ _ _ _ hcall j hj (hid.trans hjob))

/-- The result that an iteration adds is the summary of its own execution. -/
theorem backed_of_finish {s : RunnerState ρ} (h : RunnerSound spellings load limit policy s)
    {clock : StatementClock} {n : ℕ} {execute : Adapter U A} {resultId : UUID} {claimed : ClaimedJob Fields}
    (hn : s.working[n]? = some claimed) (henabled : RunnerEnabled s (.finish clock n execute resultId))
    (hsandbox : Sandboxed limit policy s (.finish clock n execute resultId)) :
    let completion := executeClaimedJob spellings load execute claimed.payload
    let i : QueueInput Fields ρ := ⟨clock, finishCall claimed completion resultId⟩
    ∀ r ∈ ((queueMachine Fields ρ).step s.queue i).2.store.jobResults,
      ∀ j ∈ ((queueMachine Fields ρ).step s.queue i).2.store.jobs, j.id = r.jobId → j.kind = .extraction →
        Backed spellings load limit policy j.payload r.result := by
  intro completion i
  have hstore : (runnerStep spellings load s (.finish clock n execute resultId)).2.queue =
      ((queueMachine Fields ρ).step s.queue i).2 := by
    rw [runnerStep_finish hn]
  refine backed_step h.consistent h.backed fun r hr hnew j hj hid _ ↦ ?_
  rw [← hstore] at hr
  rcases finishes_step spellings load h.consistent hn henabled with
    ⟨-, -, hfinished⟩ | ⟨-, -, hsame⟩
  · rw [hfinished] at hr
    have hadded := (List.mem_append.mp hr).resolve_left hnew
    by_cases hsucceeded : completion.targetState = .succeeded
    · rw [if_pos hsucceeded, List.mem_singleton] at hadded
      obtain ⟨k, hk, hkid, hpayload⟩ := h.working claimed (List.mem_of_getElem? hn)
      have hjob : r.jobId = claimed.id := congrArg JobResult.jobId hadded
      rw [eq_of_key_eq h.consistent.ids hj hk (hid.trans (hjob.trans hkid.symm)), hpayload, hadded]
      obtain ⟨durationMs, behaviour, rfl⟩ := hsandbox
      rcases executeClaimedJob_cases spellings load (sandboxAdapter A limit policy durationMs behaviour)
        claimed.payload with
        ⟨code, retryable, hfailed⟩ | ⟨payload, inputBytes, request, execution, hextracted⟩
      · have hstate : completion.targetState = (failedCompletion (A := A) code retryable).targetState :=
          congrArg Completion.targetState hfailed
        rw [hsucceeded] at hstate
        rcases retryable with - | -
        · exact nomatch hstate
        · exact nomatch hstate
      · exact backed_of_extracted hextracted
    · rw [if_neg hsucceeded] at hadded
      exact absurd hadded List.not_mem_nil
  · rw [hsame] at hr
    exact absurd hr hnew

theorem RunnerSound.step {s : RunnerState ρ} (h : RunnerSound spellings load limit policy s)
    {input : RunnerInput U A ρ} (henabled : RunnerEnabled s input) (hsandbox : Sandboxed limit policy s input) :
    RunnerSound spellings load limit policy (runnerStep spellings load s input).2 := by
  have hconsistent := consistent_runnerStep spellings load h.consistent input
  cases input with
  | claim clock owner leaseSeconds leaseToken attemptId locked =>
    obtain ⟨hqueue, hworking⟩ := runnerStep_claim spellings load s clock owner leaseSeconds leaseToken
      attemptId locked
    refine ⟨hconsistent, fun c hc ↦ ?_, ?_⟩
    · rw [hqueue]
      rcases hworking with hsame | ⟨claimed, hclaimed, hnew⟩
      · exact working_step h _ (hsame ▸ hc)
      rw [hnew] at hc
      rcases List.mem_append.mp hc with hc | hc
      · exact working_step h _ hc
      -- A new lease is on a row with the payload that it hands out.
      obtain rfl := List.mem_singleton.mp hc
      obtain ⟨row, leaseUntil, hgrant⟩ := QueueCall.body_claimed (queueMachine_eq_ok.mp hclaimed)
      obtain ⟨j, hj, hidentity⟩ := QueueStep.keeps_identity h.consistent
        (queueMachine_step s.queue _ h.consistent.ids) row hgrant.mem
      have hid : row.id = c.id := (congrArg ClaimedJob.id hgrant.claim).symm
      have hpayload : row.payload = c.payload := (congrArg ClaimedJob.payload hgrant.claim).symm
      exact ⟨j, hj, (congrArg JobIdentity.id hidentity).trans hid,
        (congrArg JobIdentity.payload hidentity).trans hpayload⟩
    · rw [hqueue]
      exact backed_of_call h nofun
  | finish clock n execute resultId =>
    by_cases hn : s.working[n]? = none
    · rw [runnerStep, hn]
      exact h
    obtain ⟨claimed, hclaimed⟩ := Option.ne_none_iff_exists'.mp hn
    refine ⟨hconsistent, ?_, ?_⟩
    · rw [runnerStep_finish hclaimed]
      exact fun c hc ↦ working_step h _ (List.mem_of_mem_eraseIdx hc)
    · rw [runnerStep_finish hclaimed]
      exact backed_of_finish h hclaimed henabled hsandbox
  | other input =>
    refine ⟨hconsistent, fun c hc ↦ working_step h input hc, backed_of_call h ?_⟩
    intro claimed targetState result errorCode effect resultId hcall
    simp only [Sandboxed, hcall] at hsandbox
    exact hsandbox

end Backing

/-! ## Runs -/

section Runs

variable {U : Nfc} {A : Alnum} {ρ : Type} {spellings : OtherSpellings} {load : Loader U A} {limit : ℕ}
  {policy : Ipc.SandboxPolicy} {other : ρ} {now : Timestamp} {inputs : List (RunnerInput U A ρ)}

/-- **The second transaction of an iteration commits or leaves no trace.** In every run of any number of
runners, whatever their loaders and sandboxes do, an iteration comes back: its completion is stored exactly
when its lease is still held, and otherwise the queue stays as it is. It never raises. -/
theorem run_once_commits_or_stale
    (h : (runnerMachine spellings load).Legal (idleRunners other now) inputs)
    {clock : StatementClock} {n : ℕ} {execute : Adapter U A} {resultId : UUID} {claimed : ClaimedJob Fields}
    (hn : ((runnerMachine spellings load).exec (idleRunners other now) inputs).working[n]? = some claimed)
    (henabled : (runnerMachine spellings load).enabled
      ((runnerMachine spellings load).exec (idleRunners other now) inputs) (.finish clock n execute resultId)) :
    let s := (runnerMachine spellings load).exec (idleRunners other now) inputs
    Finishes (∃ j ∈ s.queue.store.jobs, Fenced claimed clock.seen j) claimed
      (executeClaimedJob spellings load execute claimed.payload) resultId clock s.queue.store
      ((runnerMachine spellings load).step s (.finish clock n execute resultId)) := by
  intro s
  have hempty : Consistent (idleRunners other now).queue.store := consistent_empty other
  have hconsistent : Consistent s.queue.store :=
    Machine.Along.invariant (P := fun t : RunnerState ρ ↦ Consistent t.queue.store) h hempty
      fun _ i hc _ ↦ consistent_runnerStep spellings load hc i
  exact finishes_step spellings load hconsistent hn henabled

/-- Letters and digits of ASCII, and no others. -/
def asciiAlnum : Alnum where
  isAlnum c := decide (c.toNat < 128) && c.isAlphanum
  ascii c h := by rw [decide_eq_true h, Bool.true_and]
  space c h := by
    rw [Bool.and_eq_false_iff]
    refine .inr ?_
    simp only [Text.isSpace, Char.toNat, Bool.or_eq_true, Bool.and_eq_true, decide_eq_true_eq, beq_iff_eq] at h
    change (decide ('A'.val ≤ c.val ∧ c.val ≤ 'Z'.val) ||
      decide ('a'.val ≤ c.val) && decide (c.val ≤ 'z'.val) ||
        decide ('0'.val ≤ c.val) && decide (c.val ≤ '9'.val)) = false
    simp only [UInt32.le_iff_toNat_le, Bool.or_eq_false_iff, Bool.and_eq_false_iff,
      decide_eq_false_iff_not]
    have hupper : 'A'.val.toNat = 65 ∧ 'Z'.val.toNat = 90 := ⟨rfl, rfl⟩
    have hlower : 'a'.val.toNat = 97 ∧ 'z'.val.toNat = 122 := ⟨rfl, rfl⟩
    have hdigit : '0'.val.toNat = 48 ∧ '9'.val.toNat = 57 := ⟨rfl, rfl⟩
    omega

def smallPolicy : Ipc.SandboxPolicy where
  maxInputBytes := 1
  maxOutputBytes := 1
  bounds := ⟨1, 1, 1⟩
  input_pos := by decide
  output_pos := by decide
  blocks_pos := by decide
  blockChars_pos := by decide
  blockChars_le := by decide

def plainSpellings : OtherSpellings := ⟨fun _ ↦ none, fun _ ↦ none, fun _ ↦ none, 1, by decide⟩

def nothingLoaded : Loader Nfc.ascii asciiAlnum := fun _ ↦ .error .other

theorem second_le : (1 : Timestamp) ≤ 1 := le_rfl

/-- A job without a payload is put into the queue and claimed. -/
def claimedOnce : List (RunnerInput Nfc.ascii asciiAlnum Unit) :=
  [.other ⟨⟨0, 0, epoch_le⟩, .enqueue 10 "extraction:1" "extraction" [] none⟩,
    .claim ⟨1, 1, second_le⟩ "runner" 60 21 31 []]

def claimedJob : ClaimedJob Fields := ⟨10, "extraction:1", .extraction, [], "runner", 1, 21, 31⟩

theorem working_claimedOnce :
    ((runnerMachine plainSpellings nothingLoaded).exec (idleRunners () 0) claimedOnce).working[0]? =
      some claimedJob := by
  rfl

def noProcess : Adapter Nfc.ascii asciiAlnum := sandboxAdapter asciiAlnum 10 smallPolicy 0 fun _ ↦ .notLaunched

theorem measured_noProcess (request : Ipc.SandboxRequest Nfc.ascii) (execution : Ipc.SandboxExecution)
    (h : noProcess request = .ok execution) : Measured execution := by
  have hexecution : execution = Ipc.failureExecution request 0 .inputTooLarge ∨
      execution = Ipc.failureExecution request 0 .sandboxLaunchFailed := by
    unfold noProcess sandboxAdapter Ipc.executeSandbox at h
    split at h
    · next hok =>
      split at hok
      · cases hok
        exact .inl (Except.ok.inj h).symm
      · cases hok
        exact .inr (Except.ok.inj h).symm
    · exact nomatch h
  have hduration : (decimalDigits (max 0 (0 : ℤ)).natAbs).length ≤ 4300 := by decide
  rcases hexecution with rfl | rfl
  · exact ⟨hduration, nofun⟩
  · exact ⟨hduration, nofun⟩

theorem enabled_finish : RunnerEnabled
    ((runnerMachine plainSpellings nothingLoaded).exec (idleRunners () 0) claimedOnce)
    (.finish ⟨2, 2, le_rfl⟩ 0 noProcess 41) := by
  refine ⟨by decide, ?_, measured_noProcess⟩
  have hnone : ((runnerMachine plainSpellings nothingLoaded).exec (idleRunners () 0)
      claimedOnce).queue.store.jobResults = [] := rfl
  rw [hnone]
  exact List.forall_mem_nil _

theorem enabled_claimedOnce : (runnerMachine plainSpellings nothingLoaded).Along
    (fun s i ↦ RunnerEnabled s i ∧ Sandboxed 10 smallPolicy s i) (idleRunners () 0) claimedOnce := by
  have hfirst : (0 : Timestamp) ≤ 0 := le_rfl
  have hsecond : (0 : Timestamp) ≤ 1 := by decide
  exact ⟨⟨hfirst, trivial⟩, ⟨hsecond, trivial⟩, trivial⟩

/-- The one runner finishes its job. -/
theorem run_once_commits_claimedOnce :
    let s := (runnerMachine plainSpellings nothingLoaded).exec (idleRunners () 0) claimedOnce
    Finishes (∃ j ∈ s.queue.store.jobs, Fenced claimedJob 2 j) claimedJob
      (executeClaimedJob plainSpellings nothingLoaded noProcess []) 41 ⟨2, 2, le_rfl⟩ s.queue.store
      ((runnerMachine plainSpellings nothingLoaded).step s (.finish ⟨2, 2, le_rfl⟩ 0 noProcess 41)) :=
  run_once_commits_or_stale (enabled_claimedOnce.mono fun _ _ h ↦ h.1) working_claimedOnce enabled_finish

end Runs

end ExtractionRunner

end MeetingRag
