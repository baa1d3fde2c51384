import MeetingRag.Extraction.Correspondence
import MeetingRag.Queue.Attempts
import MeetingRag.System.Interference

/-!
# Bounded attempts

Research jobs, comparisons and extractions are retried by the workers on their own, each with a cap
of three attempts that is enforced at another place: the research worker caps the execution before
it completes the job, the comparison decides it in its failure path, the extraction worker caps its
target, and a reconciliation that finds a job at its cap ends it. Without expired leases and retries
by people, every job of these kinds is claimed three times at most.
-/

open Outcome Table Text

namespace MeetingRag

/-! ## Extraction -/

section Extraction

/-- The files stay within the cap, and every claim has been counted. -/
structure ExtractionState.Attempted (s : ExtractionState) : Prop where
  capped : ∀ r j, IsFile s.db r j → (fileCell s.db.other.extractionRuns r j).Capped
  counted : ∀ r j, IsFile s.db r j → s.issued.countP (·.id = j.id) ≤ j.leaseGeneration

/-- A step in which no lease has expired and nobody asks for a retry. -/
def ExtractionUndisturbed (s : ExtractionState) (i : ExtractionInput) : Prop :=
  ¬SomeLeaseExpired i.clock.seen s.db ∧ ¬i.call.Retries

instance (s : ExtractionState) (i : ExtractionInput) : Decidable (ExtractionUndisturbed s i) :=
  inferInstanceAs (Decidable (¬SomeLeaseExpired i.clock.seen s.db ∧ ¬i.call.Retries))

theorem attempted_emptyExtraction (now : Timestamp) : (emptyExtraction now).Attempted where
  capped := fun _ _ hfile ↦ absurd hfile.job List.not_mem_nil
  counted := fun _ _ hfile ↦ absurd hfile.job List.not_mem_nil

theorem ExtractionState.Attempted.step {s : ExtractionState} (hs : s.Sound) (ha : s.Attempted)
    {i : ExtractionInput} (htold : i.call.Told s) (hundisturbed : ExtractionUndisturbed s i) :
    (extractionMachine.step s i).2.Attempted := by
  obtain ⟨hfiled, hmove, hreply⟩ := extractionMachine_step hs htold
  have hcapped : ∀ r j, IsFile (extractionMachine.step s i).2.db r j →
      (fileCell (extractionMachine.step s i).2.db.other.extractionRuns r j).Capped := by
    intro r' j' hfile
    rcases hmove.origin r' j' hfile with ⟨r, j, hold, -, -, hmoves⟩ | ⟨hnew, -⟩
    · exact hmoves.preserve (fun _ _ hmove ↦ hmove.capped hundisturbed.1 hundisturbed.2)
        (ha.capped r j hold)
    · rw [hnew]
      exact newCell_capped
  -- the claims so far, whatever the step does to the files
  have hkept : ∀ r j, IsFile (extractionMachine.step s i).2.db r j →
      s.issued.countP (·.id = j.id) ≤ j.leaseGeneration := by
    intro r' j' hfile
    rcases hmove.origin r' j' hfile with ⟨r, j, hold, -, hidentity, hmoves⟩ | ⟨-, hnew⟩
    · rw [Job.id_of_identity hidentity]
      exact (ha.counted r j hold).trans hmoves.generation_le
    · have hnone : s.issued.countP (·.id = j'.id) = 0 := by
        rw [List.countP_eq_zero]
        intro c hc hid
        obtain ⟨_, j, hold, hjid, -⟩ := hs.issued c hc
        exact hnew j hold.job (hjid.trans (of_decide_eq_true hid))
      rw [hnone]
      exact Nat.zero_le _
  refine ⟨hcapped, ?_⟩
  have hissued : (extractionMachine.step s i).2.issued =
      recordedClaims (extractionMachine.step s i).1 s.issued := ExtractionState.record_issued _ _
  rw [hissued]
  generalize (extractionMachine.step s i).1 = reply at hreply ⊢
  unfold recordedClaims
  split
  · next claimed =>
    obtain ⟨r₀, j₀, r', j', hfile₀, hid₀, hgeneration, hfile', hid', -, hgeneration'⟩ := hreply
    intro r j hfile
    rw [List.countP_append, List.countP_singleton]
    by_cases hid : claimed.id = j.id
    · obtain rfl : j = j' := eq_of_key_eq hfiled.ids hfile.job hfile'.job (hid.symm.trans hid'.symm)
      have hold := ha.counted r₀ j₀ hfile₀
      rw [if_pos (decide_eq_true hid), ← hid, ← hid₀, hgeneration', hgeneration]
      exact Nat.add_le_add_right hold 1
    · rw [if_neg (by simpa using hid)]
      exact hkept r j hfile
  · exact hkept

end Extraction

/-! ## Research and comparisons -/

section Completions

variable {db db' : Database} {claimed : ClaimedJob JobDocument} {clock : StatementClock}
  {resultId : UUID} {u : Unit}

theorem GenerationExecution.new_targetState {snapshotId : UUID} {kind : GenerationKind}
    {pipelineVersion : String} {targetState : JobState} {result : JobDocument}
    {errorCode : Option String} {retryable : Bool} {completion : Option GenerationCompletion}
    {e : GenerationExecution} (h : GenerationExecution.new snapshotId kind pipelineVersion targetState
      result errorCode retryable completion = .ok e) : e.targetState = targetState := by
  unfold GenerationExecution.new at h
  split at h
  · cases h
    rfl
  · exact nomatch h

/-- A research execution that is to be put back is not one of the last allowed attempt. -/
theorem laneExecution_early {outcome : ProviderOutcome} {e : GenerationExecution}
    (h : laneExecution claimed outcome = .ok (some e)) (hkind : claimed.kind = .research)
    (hput : e.targetState = .failedRetryable) : claimed.leaseGeneration < maxResearchAttempts := by
  obtain ⟨before, -, hcap⟩ := bind_eq_ok.mp h
  cases before with
  | none => cases hcap
  | some b =>
    rw [capResearchRetries] at hcap
    split at hcap
    · next hkept =>
      cases hcap
      rcases hkept with hnot | hother | hearly
      · exact absurd hput hnot
      · exact absurd hkind hother
      · exact hearly
    · obtain ⟨capped, hnew, hcapped⟩ := bind_eq_ok.mp hcap
      cases hcapped
      cases (GenerationExecution.new_targetState hnew).symm.trans hput

theorem completeLane_completed (hids : UniqueIds db) {outcome : ProviderOutcome}
    {reportJobId : UUID}
    (h : completeLane claimed outcome resultId reportJobId clock db = .ok (u, db')) :
    ∃ row rows targetState errorCode, Completed row claimed targetState errorCode rows db db' ∧
      (claimed.kind = .research → targetState = .failedRetryable →
        claimed.leaseGeneration < maxResearchAttempts) := by
  obtain ⟨execution, hexecution, hcomplete⟩ := bind_eq_ok.mp h
  cases execution with
  | none =>
    obtain ⟨row, -, -, s₂, heffect, -, hcompleted⟩ := completeWithEffects_eq_ok hids hcomplete
    cases heffect
    exact ⟨row, _, _, _, hcompleted [] (Inserted.refl _ db.other), fun _ heq ↦ nomatch heq⟩
  | some e =>
    obtain ⟨-, -, -, ⟨row, rows, hdone, -⟩, -⟩ := completeExecution_step hids hexecution hcomplete
    exact ⟨row, rows, _, _, hdone, laneExecution_early hexecution⟩

theorem failSuggestions_completed (hids : UniqueIds db) {errorCode : String} {retryable : Bool}
    (h : failSuggestions claimed errorCode retryable resultId clock db = .ok (u, db')) :
    ∃ row targetState errorCode, Completed row claimed targetState errorCode [] db db' ∧
      (targetState = .failedRetryable → claimed.leaseGeneration < maxProviderAttempts) := by
  rw [failSuggestions] at h
  split at h
  · next hretryable =>
    obtain ⟨row, -, -, s₂, heffect, -, hcompleted⟩ := completeWithEffects_eq_ok hids h
    cases heffect
    exact ⟨row, _, _, hcompleted [] (Inserted.refl _ db.other), fun _ ↦ hretryable.2⟩
  · obtain ⟨identity, -, h⟩ := bind_eq_ok.mp h
    obtain ⟨row, -, -, s₂, heffect, -, hcompleted⟩ := completeWithEffects_eq_ok hids h
    cases heffect
    exact ⟨row, _, _, hcompleted [] (Inserted.refl _ _), by rintro ⟨⟩⟩

theorem completeSuggestions_completed (hids : UniqueIds db) {outcome : SuggestionOutcome}
    (h : completeSuggestions claimed outcome resultId clock db = .ok (u, db')) :
    ∃ row targetState errorCode, Completed row claimed targetState errorCode [] db db' ∧
      (targetState = .failedRetryable → claimed.leaseGeneration < maxProviderAttempts) := by
  unfold completeSuggestions at h
  split at h
  · exact failSuggestions_completed hids h
  · obtain ⟨row, -, -, s₂, heffect, -, hcompleted⟩ := completeWithEffects_eq_ok hids h
    obtain ⟨⟨n, d⟩, hinsert, hd⟩ := bind_eq_ok.mp heffect
    cases hd
    refine ⟨row, _, _, hcompleted [] ?_, fun heq ↦ nomatch heq⟩
    rw [(insertSuggestions_writes hinsert).2]
    exact Inserted.refl _ _
  · exact failSuggestions_completed hids h
  · exact failSuggestions_completed hids h

/-- A worker's requeue puts one job back, or leaves the database alone. -/
theorem requeueBody_cases (hids : UniqueIds db)
    (h : SystemCall.requeueBody claimed db = .ok (u, db')) :
    db' = db ∨ ∃ row, Requeued row db db' := by
  have hput : ∀ {id g}, requeueRetryable id g db = .ok (u, db') → ∃ row, Requeued row db db' :=
    fun h ↦ (requeueRetryable_step hids h).imp fun _ hrow ↦ hrow.2
  have hresearch : retryResearch claimed db = .ok (u, db') →
      db' = db ∨ ∃ row, Requeued row db db' := by
    intro h
    rw [retryResearch] at h
    split at h
    · cases h
      exact Or.inl rfl
    · exact Or.inr (hput h)
  rw [SystemCall.requeueBody] at h
  split at h
  · exact hresearch h
  · exact hresearch h
  · exact Or.inr (hput h)
  · exact Or.inr (hput h)

end Completions

/-- The kinds of jobs that the generation workers retry on their own. -/
def Automatic (kind : JobKind) : Prop := kind = .research ∨ kind = .reportSuggestions

instance : DecidablePred Automatic := fun kind ↦
  inferInstanceAs (Decidable (kind = .research ∨ kind = .reportSuggestions))

/-- A host's retry of a session. -/
def SystemCall.Retries : SystemCall → Prop
  | retry .. => True
  | _ => False

instance : DecidablePred SystemCall.Retries := fun call ↦ by
  unfold SystemCall.Retries
  split <;> infer_instance

/-- A step in which no lease has expired and nobody asks for a retry. -/
def SystemUndisturbed (s : SystemState) (i : SystemInput) : Prop :=
  ¬SomeLeaseExpired i.clock.seen s.db ∧ ¬i.call.Retries

instance (s : SystemState) (i : SystemInput) : Decidable (SystemUndisturbed s i) :=
  inferInstanceAs (Decidable (¬SomeLeaseExpired i.clock.seen s.db ∧ ¬i.call.Retries))

/-- The lease of a completion is one of a job of its kind. -/
theorem Completed.kind {s : SystemState} (hs : s.Sound) {claimed : ClaimedJob JobDocument}
    (hissued : claimed ∈ s.issued) {row : Job JobDocument} {targetState : JobState}
    {errorCode : Option String} {rows : List (Job JobDocument)} {db' : Database}
    (h : Completed row claimed targetState errorCode rows s.db db') : row.kind = claimed.kind := by
  obtain ⟨j, hj, hid, hkind, -⟩ := hs.issued claimed hissued
  rwa [eq_of_key_eq hs.db.queue.ids h.mem hj (h.id.trans hid.symm)]

/-- **Every undisturbed transaction keeps the cap.** -/
theorem SystemCall.body_withinCap {s : SystemState} (hs : s.Sound) {i : SystemInput}
    (henabled : systemMachine.enabled s i) (hundisturbed : SystemUndisturbed s i)
    {reply : SystemReply} {db' : Database} (h : i.call.body i.clock s.db = .ok (reply, db')) :
    WithinCap Automatic 3 s.db db' := by
  have hids := hs.db.queue.ids
  have hpositive : 0 < 3 := by decide
  obtain ⟨clock, call⟩ := i
  obtain ⟨-, hpresented⟩ := henabled
  dsimp only at h hpresented
  cases call with
  | createTalkSession sessionId actorId roomId topic =>
    obtain ⟨r, hr, hdb'⟩ := bind_eq_ok.mp h
    cases hdb'
    obtain ⟨-, hcreated⟩ := createTalkSession_eq_ok hr
    obtain ⟨-, -, -, activity, e, hframe, -⟩ := hcreated
    exact .of_jobs (by rw [hframe])
  | close request draws =>
    obtain ⟨r, hr, hdb'⟩ := bind_eq_ok.mp h
    cases hdb'
    rcases close_eq_ok hs.db.sessions hr with hsame | ⟨session, included, schema, hclosed⟩
    · exact .of_jobs (by rw [hsame])
    · exact hclosed.inserted.withinCap hpositive
  | reopen sessionId actorId =>
    obtain ⟨r, hr, hdb'⟩ := bind_eq_ok.mp h
    cases hdb'
    rcases reopen_eq_ok hs.db.sessions hr with hsame | ⟨session, -, hreopened⟩
    · exact .of_jobs (by rw [hsame])
    · exact .of_jobs (by rw [hreopened.result]; rfl)
  | retry sessionId actorId => exact absurd trivial hundisturbed.2
  | claimNext owner leaseSeconds kinds leaseToken attemptId locked =>
    obtain ⟨r, hr, hdb'⟩ := bind_eq_ok.mp h
    cases hdb'
    rcases claimNext_step hr with ⟨-, hsame⟩ | ⟨row, claimed, -, hgrant⟩
    · exact .of_jobs (by rw [hsame])
    · -- a running job is claimed only once its lease has expired
      rcases hgrant.available with hpending | ⟨hrunning, huntil⟩
      · exact hgrant.withinCap hpositive hids hpending
      · exact absurd ⟨row, hgrant.mem, hrunning, huntil⟩ hundisturbed.1
  | heartbeat claimed leaseSeconds =>
    obtain ⟨r, hr, hdb'⟩ := bind_eq_ok.mp h
    cases hdb'
    obtain ⟨row, -, hext⟩ := heartbeat_step hids hr
    exact hext.withinCap hpositive hids
  | completeLane claimed outcome resultId reportJobId =>
    obtain ⟨r, hr, hdb'⟩ := bind_eq_ok.mp h
    cases hdb'
    obtain ⟨row, rows, targetState, errorCode, hdone, hearly⟩ := completeLane_completed hids hr
    obtain ⟨hissued, hlane⟩ := hpresented _ rfl
    refine hdone.withinCap hpositive hids fun hkind hput ↦ hearly ?_ hput
    rw [hdone.kind hs hissued] at hkind
    rcases hkind with hresearch | hreport
    · exact hresearch
    · rw [hreport] at hlane
      exact absurd hlane (show JobKind.reportSuggestions ∉ [JobKind.summary, .research] by decide)
  | completeSuggestions claimed outcome resultId =>
    obtain ⟨r, hr, hdb'⟩ := bind_eq_ok.mp h
    cases hdb'
    obtain ⟨row, targetState, errorCode, hdone, hearly⟩ := completeSuggestions_completed hids hr
    exact hdone.withinCap hpositive hids fun _ ↦ hearly
  | enqueueExtraction jobId revisionId =>
    obtain ⟨r, hr, hdb'⟩ := bind_eq_ok.mp h
    cases hdb'
    obtain ⟨rows, hins, -⟩ := enqueue_step hr
    exact hins.withinCap hpositive
  | completeExtraction claimed targetState result errorCode writes resultId =>
    obtain ⟨r, hr, hdb'⟩ := bind_eq_ok.mp h
    cases hdb'
    obtain ⟨row, -, -, s₂, heffect, -, hcompleted⟩ := completeWithEffects_eq_ok hids hr
    cases heffect
    have hdone := hcompleted [] (Inserted.refl _ _)
    obtain ⟨hissued, hextraction⟩ := hpresented _ rfl
    refine hdone.withinCap hpositive hids fun hkind ↦ ?_
    rw [hdone.kind hs hissued, List.mem_singleton.mp hextraction] at hkind
    exact absurd hkind (by decide)
  | requeue claimed =>
    obtain ⟨r, hr, hdb'⟩ := bind_eq_ok.mp h
    cases hdb'
    rcases requeueBody_cases hids hr with hsame | ⟨row, hrequeued⟩
    · exact .of_jobs (by rw [hsame])
    · exact hrequeued.withinCap hpositive hids
  | elsewhere writes =>
    cases h
    exact .of_jobs rfl

/-- The claims are counted, and the automatic jobs stay within the cap. -/
structure SystemState.Attempted (s : SystemState) : Prop where
  counted : Counted s.issued s.db
  capped : ∀ j ∈ s.db.jobs, Automatic j.kind → CappedAt 3 j

theorem attempted_emptySystem (now : Timestamp) : (emptySystem now).Attempted :=
  ⟨⟨List.forall_mem_nil _, List.forall_mem_nil _⟩, List.forall_mem_nil _⟩

theorem SystemState.Attempted.step {s : SystemState} (hs : s.Sound) (ha : s.Attempted)
    {i : SystemInput} (henabled : systemMachine.enabled s i)
    (hundisturbed : SystemUndisturbed s i) : (systemMachine.step s i).2.Attempted := by
  have hwithin : WithinCap Automatic 3 s.db (systemMachine.step s i).2.db :=
    transaction_snd_of (.of_jobs rfl) fun _ _ h ↦
      SystemCall.body_withinCap hs henabled hundisturbed h
  have hkept : ∀ j ∈ s.db.jobs, ∃ j' ∈ (systemMachine.step s i).2.db.jobs, j'.id = j.id := by
    obtain ⟨rows, hmoves⟩ := (systemMachine_step hs i).moves
    intro j hj
    obtain ⟨j', hj', hidentity, -⟩ := (hmoves hs.db.queue).2.kept j hj
    exact ⟨j', hj', congrArg JobIdentity.id hidentity⟩
  refine ⟨?_, fun j' hj' hkind ↦ ?_⟩
  · have hissued : (systemMachine.step s i).2.issued =
        recordClaim (systemMachine.step s i).1 s.issued := rfl
    rw [hissued]
    unfold recordClaim
    split
    · next claimed hreply =>
      obtain ⟨row, leaseUntil, hgrant⟩ := i.call.body_claimed (systemMachine_eq_ok.mp hreply)
      exact ha.counted.granted hs.db.queue.ids hgrant
    · exact ha.counted.withinCap hwithin hkept
  · rcases hwithin j' hj' with ⟨j, hj, -, hsame, -, hcapped⟩ | ⟨hcapped, -⟩
    · rw [hsame] at hkind
      exact hcapped hkind (ha.capped j hj hkind)
    · exact hcapped

/-! ## The bound -/

/-- The lease that a call completes. -/
def SystemCall.completing : SystemCall → Option (ClaimedJob JobDocument)
  | completeLane claimed .. | completeSuggestions claimed .. => some claimed
  | _ => none

/-- The job of a lease has succeeded or failed for good. -/
def Settled {J ρ : Type} (claimed : ClaimedJob J) (s : Store J ρ) : Prop :=
  ∀ j ∈ s.jobs, j.id = claimed.id → j.state = .succeeded ∨ j.state = .failedTerminal

/-- A late extraction is final. -/
theorem extraction_settled {s : ExtractionState} (hs : s.Sound) {i : ExtractionInput}
    (htold : i.call.Told s) {claimed : ClaimedJob ExtractionDocument} {target : JobState}
    (hreply : (extractionMachine.step s i).1 = .ok (.completed claimed target))
    (hlate : 3 ≤ claimed.leaseGeneration) : Settled claimed (extractionMachine.step s i).2.db := by
  obtain ⟨hfiled, -, htrue⟩ := extractionMachine_step hs htold
  rw [hreply] at htrue
  obtain ⟨r, j, hfile, hid, hstate, -, hearly, htarget⟩ := htrue
  intro j' hj' hid'
  rw [eq_of_key_eq hfiled.ids hj' hfile.job (hid'.trans hid.symm), hstate]
  have hnot : target ≠ .failedRetryable := fun heq ↦ absurd (hearly heq) (not_lt.mpr hlate)
  revert htarget hnot
  cases target <;> decide

/-- A late completion of an automatic job is final. -/
theorem completion_settled {s : SystemState} (hs : s.Sound) {i : SystemInput}
    (henabled : systemMachine.enabled s i) {claimed : ClaimedJob JobDocument} (hcall : claimed ∈ i.call.completing)
    (hkind : Automatic claimed.kind) (hlate : 3 ≤ claimed.leaseGeneration) {reply : SystemReply}
    (hreply : (systemMachine.step s i).1 = .ok reply) :
    Settled claimed (systemMachine.step s i).2.db := by
  have hbody := systemMachine_eq_ok.mp hreply
  have hids := hs.db.queue.ids
  obtain ⟨-, hpresented⟩ := henabled
  generalize (systemMachine.step s i).2.db = db' at hbody ⊢
  obtain ⟨clock, call⟩ := i
  dsimp only at hpresented
  cases call with
  | completeLane c outcome resultId reportJobId =>
    cases hcall
    obtain ⟨r, hr, hresult⟩ := bind_eq_ok.mp hbody
    cases hresult
    obtain ⟨row, rows, targetState, errorCode, hdone, hearly⟩ := completeLane_completed hids hr
    obtain ⟨-, hlane⟩ := hpresented _ rfl
    have hresearch : claimed.kind = .research := by
      rcases hkind with hresearch | hreport
      · exact hresearch
      · rw [hreport] at hlane
        exact absurd hlane (show JobKind.reportSuggestions ∉ [JobKind.summary, .research] by decide)
    exact hdone.final fun heq ↦ absurd (hearly hresearch heq) (not_lt.mpr hlate)
  | completeSuggestions c outcome resultId =>
    cases hcall
    obtain ⟨r, hr, hresult⟩ := bind_eq_ok.mp hbody
    cases hresult
    obtain ⟨row, targetState, errorCode, hdone, hearly⟩ := completeSuggestions_completed hids hr
    exact hdone.final fun heq ↦ absurd (hearly heq) (not_lt.mpr hlate)
  | _ => exact nomatch hcall

/-- **Bounded automatic attempts.** In every run in which no lease expires and nobody asks for a
retry, each extraction job, each research job and each comparison is claimed three times at most. In
every run, a completion at the third generation or a later one leaves its job succeeded or failed for
good. -/
theorem automatic_attempts_are_bounded :
    (∀ now is, extractionMachine.Along
        (fun s i ↦ extractionMachine.enabled s i ∧ ExtractionUndisturbed s i)
        (emptyExtraction now) is →
      let s := extractionMachine.exec (emptyExtraction now) is
      ∀ j ∈ s.db.jobs, j.kind = .extraction → s.issued.countP (·.id = j.id) ≤ 3) ∧
    (∀ now is, systemMachine.Along (fun s i ↦ systemMachine.enabled s i ∧ SystemUndisturbed s i)
        (emptySystem now) is →
      let s := systemMachine.exec (emptySystem now) is
      ∀ j ∈ s.db.jobs, j.kind = .research ∨ j.kind = .reportSuggestions →
        s.issued.countP (·.id = j.id) ≤ 3) ∧
    (∀ now is, extractionMachine.Legal (emptyExtraction now) is → extractionMachine.Along
      (fun s i ↦ ∀ claimed target,
        (extractionMachine.step s i).1 = .ok (.completed claimed target) →
        3 ≤ claimed.leaseGeneration → Settled claimed (extractionMachine.step s i).2.db)
      (emptyExtraction now) is) ∧
    ∀ now is, systemMachine.Legal (emptySystem now) is → systemMachine.Along
      (fun s i ↦ ∀ claimed ∈ i.call.completing,
        claimed.kind = .research ∨ claimed.kind = .reportSuggestions →
        3 ≤ claimed.leaseGeneration → ∀ reply, (systemMachine.step s i).1 = .ok reply →
          Settled claimed (systemMachine.step s i).2.db)
      (emptySystem now) is := by
  refine ⟨fun now is h ↦ ?_, fun now is h ↦ ?_, fun now is h ↦ ?_, fun now is h ↦ ?_⟩
  · obtain ⟨hs, ha⟩ := h.invariant (P := fun s ↦ s.Sound ∧ s.Attempted)
      ⟨sound_emptyExtraction now, attempted_emptyExtraction now⟩
      fun s i ⟨hs, ha⟩ ⟨henabled, hundisturbed⟩ ↦
        ⟨hs.step henabled.2, ha.step hs henabled.2 hundisturbed⟩
    intro s j hj hkind
    obtain ⟨-, r, hfile⟩ := hs.filed.jobs j hj hkind
    exact (ha.counted r j hfile).trans (ha.capped r j hfile).1
  · obtain ⟨hs, ha⟩ := h.invariant (P := fun s ↦ s.Sound ∧ s.Attempted)
      ⟨sound_empty now, attempted_emptySystem now⟩
      fun s i ⟨hs, ha⟩ ⟨henabled, hundisturbed⟩ ↦ ⟨hs.step i, ha.step hs henabled hundisturbed⟩
    intro s j hj hkind
    exact (ha.counted.2 j hj).trans (ha.capped j hj hkind).1
  · refine (h.with_invariant (sound_emptyExtraction now)
      fun _ _ hs henabled ↦ hs.step henabled.2).mono ?_
    rintro s i ⟨hs, henabled⟩ claimed target hreply hlate
    exact extraction_settled hs henabled.2 hreply hlate
  · refine (legal_sound h).mono ?_
    rintro s i ⟨hs, henabled⟩ claimed hcall hkind hlate reply hreply
    exact completion_settled hs henabled hcall hkind hlate hreply

/-- A file that times out three times. -/
def threeTimeouts : List ExtractionInput :=
  [ extractionAt 0 (.elsewhere oneOpenSession),
    extractionAt 1 (.submit textUpload),
    extractionAt 2 (.claim "worker" 51 52 []),
    extractionAt 3 (.load (textLease 1 51)),
    extractionAt 4 (.complete (textLease 1 51) (some loadedText) timeout 61 62),
    extractionAt 5 (.requeue (textLease 1 51)),
    extractionAt 6 (.claim "worker" 53 54 []),
    extractionAt 7 (.load (textLease 2 53)),
    extractionAt 8 (.complete (textLease 2 53) (some loadedText) timeout 63 64),
    extractionAt 9 (.reconcile []),
    extractionAt 10 (.claim "worker" 55 56 []),
    extractionAt 11 (.load (textLease 3 55)),
    extractionAt 12 (.complete (textLease 3 55) (some loadedText) timeout 65 66) ]

theorem automatic_attempts_are_bounded_threeTimeouts :
    ((extractionMachine.exec (emptyExtraction 0) threeTimeouts).issued.length = 3 ∧
      ∀ j ∈ (extractionMachine.exec (emptyExtraction 0) threeTimeouts).db.jobs, j.kind = .extraction →
        (extractionMachine.exec (emptyExtraction 0) threeTimeouts).issued.countP (·.id = j.id) ≤ 3) ∧
    (∀ j ∈ (systemMachine.exec (emptySystem 0) researchPutBack).db.jobs,
      j.kind = .research ∨ j.kind = .reportSuggestions →
        (systemMachine.exec (emptySystem 0) researchPutBack).issued.countP (·.id = j.id) ≤ 3) ∧
    extractionMachine.Along (fun s i ↦ ∀ claimed target,
        (extractionMachine.step s i).1 = .ok (.completed claimed target) →
        3 ≤ claimed.leaseGeneration → Settled claimed (extractionMachine.step s i).2.db)
      (emptyExtraction 0) threeTimeouts ∧
    systemMachine.Along (fun s i ↦ ∀ claimed ∈ i.call.completing,
        claimed.kind = .research ∨ claimed.kind = .reportSuggestions →
        3 ≤ claimed.leaseGeneration → ∀ reply, (systemMachine.step s i).1 = .ok reply →
          Settled claimed (systemMachine.step s i).2.db)
      (emptySystem 0) researchPutBack :=
  have ⟨hfiles, hjobs, hfinalFiles, hfinalJobs⟩ := automatic_attempts_are_bounded
  ⟨⟨by decide +kernel, hfiles 0 threeTimeouts (by decide +kernel)⟩,
    hjobs 0 researchPutBack (by decide +kernel), hfinalFiles 0 threeTimeouts (by decide +kernel),
    hfinalJobs 0 researchPutBack (by decide +kernel)⟩

end MeetingRag
