import MeetingRag.Library.Machine
import MeetingRag.Queue.Repository

/-!
# What a queue step can do

Every operation of the queue, when it returns, has taken one of five kinds of step: it inserted
fresh jobs, granted a lease, extended one, completed one, or put a failed job back. This file says
so once. Each kind of step is a structure with the row it acts on, the guard under which it acts and
the tables it leaves, and each operation has one lemma that turns a successful call into its step.
Invariants are then proved by cases on the step and no later proof unfolds an operation.

The operations address a row by a compare-and-set predicate. Because job ids are unique, a
predicate that fixes the id and matches one row updates exactly the row with that id, so the steps
speak of `setJob` only.
-/

open Outcome Table Text

namespace MeetingRag

variable {J ρ : Type}

/-- Replace the row of one job. -/
def setJob (id : UUID) (f : Job J → Job J) (jobs : List (Job J)) : List (Job J) :=
  updateWhere (·.id = id) f jobs

/-- The attempts of one job. -/
def attemptsOf (id : UUID) (s : Store J ρ) : List JobAttempt :=
  s.jobAttempts.filter (·.jobId = id)

/-- The results of one job. -/
def resultsOf (id : UUID) (s : Store J ρ) : List (JobResult J) :=
  s.jobResults.filter (·.jobId = id)

/-- Job ids are a primary key. -/
def UniqueIds (s : Store J ρ) : Prop := (s.jobs.map (·.id)).Nodup

/-! ## The steps -/

/-- A row as `INSERT INTO jobs` leaves it. -/
def Fresh (j : Job J) : Prop :=
  ∃ id logicalKey kind snapshotId payload createdAt,
    j = newJob id logicalKey kind snapshotId payload createdAt

/-- Fresh jobs were appended under the unique constraints and nothing else of the queue changed. -/
structure Inserted (rows : List (Job J)) (s s' : Store J ρ) : Prop where
  fresh : ∀ row ∈ rows, Fresh row
  unique : ∀ r ∈ s.jobs, ∀ row ∈ rows, ¬jobsClash r row
  distinct : rows.Pairwise fun a b ↦ ¬jobsClash a b
  jobs : s'.jobs = s.jobs ++ rows
  attempts : s'.jobAttempts = s.jobAttempts
  results : s'.jobResults = s.jobResults

/-- The lease `claimed` was granted on `row` at the instant `now`, until `leaseUntil`. -/
structure Granted (row : Job J) (claimed : ClaimedJob J) (now leaseUntil : Timestamp)
    (s s' : Store J ρ) : Prop where
  mem : row ∈ s.jobs
  available : Available now row
  claim : claimed = {
    id := row.id
    logicalKey := row.logicalKey
    kind := row.kind
    payload := row.payload
    owner := claimed.owner
    leaseGeneration := row.leaseGeneration + 1
    leaseToken := claimed.leaseToken
    attemptId := claimed.attemptId }
  jobs : s'.jobs = setJob row.id
    (leasedJob claimed.leaseGeneration claimed.leaseToken claimed.owner leaseUntil) s.jobs
  attempts : s'.jobAttempts =
    (if row.state = .running then expireAttempt row s.jobAttempts else s.jobAttempts) ++
      [{ id := claimed.attemptId
         jobId := claimed.id
         leaseGeneration := claimed.leaseGeneration
         leaseToken := claimed.leaseToken
         owner := claimed.owner
         ended := false
         status := .running
         errorCode := none }]
  results : s'.jobResults = s.jobResults
  other : s'.other = s.other

/-- The lease of `row` was extended to `leaseUntil`. -/
structure Extended (row : Job J) (leaseUntil : Timestamp) (s s' : Store J ρ) : Prop where
  mem : row ∈ s.jobs
  running : row.state = .running
  store : s' = { s with
    jobs := setJob row.id (fun j ↦ { j with leaseUntil := some leaseUntil }) s.jobs }

/-- The lease `claimed` of `row` was given up for `targetState`; the effect of the completion took
the queue tables from those of the completed job to those with `rows` inserted. -/
structure Completed (row : Job J) (claimed : ClaimedJob J) (targetState : JobState)
    (errorCode : Option String) (rows : List (Job J)) (s s' : Store J ρ) : Prop where
  mem : row ∈ s.jobs
  id : row.id = claimed.id
  running : row.state = .running
  generation : row.leaseGeneration = claimed.leaseGeneration
  token : row.leaseToken = some claimed.leaseToken
  arguments : requireCompletionArguments targetState errorCode = .ok ()
  fresh : ∀ new ∈ rows, Fresh new
  unique : ∀ r ∈ s.jobs, ∀ new ∈ rows, ¬jobsClash r new
  distinct : rows.Pairwise fun a b ↦ ¬jobsClash a b
  jobs : s'.jobs = setJob row.id (completedJob targetState errorCode) s.jobs ++ rows
  attempts : s'.jobAttempts =
    updateWhere (CurrentAttempt claimed) (endedAttempt targetState errorCode) s.jobAttempts
  results : ∃ added : List (JobResult J), s'.jobResults = s.jobResults ++ added ∧
    (∀ r ∈ added, r.jobId = row.id) ∧ added.length = if targetState = .succeeded then 1 else 0

/-- The failed job `row` was put back. -/
structure Requeued (row : Job J) (s s' : Store J ρ) : Prop where
  mem : row ∈ s.jobs
  failed : row.state = .failedRetryable
  token : row.leaseToken = none
  store : s' = { s with jobs := setJob row.id requeuedJob s.jobs }

/-- What one committed operation has done to the queue. -/
inductive QueueStep (s s' : Store J ρ) : Prop
  | unchanged (h : s' = s)
  | inserted (rows : List (Job J)) (h : Inserted rows s s')
  | granted (row : Job J) (claimed : ClaimedJob J) (now leaseUntil : Timestamp)
      (h : Granted row claimed now leaseUntil s s')
  | extended (row : Job J) (leaseUntil : Timestamp) (h : Extended row leaseUntil s s')
  | completed (row : Job J) (claimed : ClaimedJob J) (targetState : JobState)
      (errorCode : Option String) (rows : List (Job J))
      (h : Completed row claimed targetState errorCode rows s s')
  | requeued (row : Job J) (h : Requeued row s s')

/-! ## Effects -/

/-- A completion effect: it may write the other tables as it likes and raise when it likes, and of
the queue tables it does no more than enqueue fresh jobs. -/
structure Effect (J ρ : Type) where
  run : Store J ρ → Except Error (Store J ρ)
  contained : ∀ s s', run s = .ok s' → ∃ rows, Inserted rows s s'

theorem Inserted.refl (s : Store J ρ) (other : ρ) : Inserted [] s { s with other := other } where
  fresh := List.forall_mem_nil _
  unique := fun _ _ ↦ List.forall_mem_nil _
  distinct := List.Pairwise.nil
  jobs := (List.append_nil _).symm
  attempts := rfl
  results := rfl

/-- An effect that writes other tables only. -/
def Effect.onOther (f : ρ → Except Error ρ) : Effect J ρ where
  run s := do
    let other ← f s.other
    .ok { s with other := other }
  contained s s' h := by
    obtain ⟨other, -, hs'⟩ := bind_eq_ok.mp h
    cases hs'
    exact ⟨[], Inserted.refl s other⟩

/-! ## From operations to steps -/

theorem insertJob_eq_ok {row : Job J} {jobs jobs' : List (Job J)} :
    insertJob row jobs = .ok jobs' ↔ (∀ r ∈ jobs, ¬jobsClash r row) ∧ jobs' = jobs ++ [row] :=
  insertUnique_eq_ok

theorem insertJobOrIgnore_eq_ok {row : Job J} {jobs jobs' : List (Job J)}
    (h : insertJobOrIgnore row jobs = .ok jobs') :
    ((∃ r ∈ jobs, r.logicalKey = row.logicalKey) ∧ jobs' = jobs) ∨
      ((∀ r ∈ jobs, ¬jobsClash r row) ∧ jobs' = jobs ++ [row]) := by
  rw [insertJobOrIgnore] at h
  split at h
  · exact Or.inl ⟨‹_›, (Except.ok.inj h).symm⟩
  · exact Or.inr (insertJob_eq_ok.mp h)

theorem inserted_singleton {row : Job J} {s : Store J ρ} (hfresh : Fresh row)
    (h : ∀ r ∈ s.jobs, ¬jobsClash r row) :
    Inserted [row] s { s with jobs := s.jobs ++ [row] } where
  fresh := by simpa using hfresh
  unique := by simpa using h
  distinct := List.pairwise_singleton _ _
  jobs := rfl
  attempts := rfl
  results := rfl

theorem requireKind_eq_ok {kind : String} {k : JobKind} (h : requireKind kind = .ok k) :
    k.value = kind := by
  rw [requireKind] at h
  split at h
  · next hfind =>
    cases h
    simpa using List.find?_some hfind
  · exact nomatch h

/-- An enqueue inserts its own row or finds the key taken. -/
theorem enqueue_step [JsonDocument J] {jobId : UUID} {logicalKey kind : String} {payload : J}
    {snapshotId : Option UUID} {clock : StatementClock} {s s' : Store J ρ} {job : DurableJob}
    (h : enqueue jobId logicalKey kind payload snapshotId clock s = .ok (job, s')) :
    ∃ rows, Inserted rows s s' ∧ s'.other = s.other ∧ ∀ row ∈ rows, ∃ k : JobKind,
      k.value = kind ∧ row = newJob jobId logicalKey k snapshotId payload clock.written := by
  simp only [enqueue, bind_eq_ok] at h
  obtain ⟨-, -, k, hk, -, -, jobs, hjobs, hrow⟩ := h
  split at hrow
  · cases hrow
    rcases insertJobOrIgnore_eq_ok hjobs with ⟨-, rfl⟩ | ⟨hnew, rfl⟩
    · exact ⟨[], Inserted.refl s s.other, rfl, List.forall_mem_nil _⟩
    · refine ⟨_, inserted_singleton ⟨_, _, _, _, _, _, rfl⟩ hnew, rfl, ?_⟩
      exact List.forall_mem_singleton.mpr ⟨k, requireKind_eq_ok hk, rfl⟩
  · cases hrow

theorem selectClaim_spec {claimKinds : Option (List JobKind)} {locked : List UUID}
    {now : Timestamp} {jobs : List (Job J)} {row : Job J}
    (h : selectClaim claimKinds locked now jobs = some row) : row ∈ jobs ∧ Available now row := by
  obtain ⟨hmem, hsel⟩ := selectFirst_mem h
  exact ⟨hmem, (of_decide_eq_true hsel).1⟩

theorem claimNext_step {owner : String} {leaseSeconds : ℤ} {kinds : Option (List String)}
    {leaseToken attemptId : UUID} {locked : List UUID} {clock : StatementClock}
    {s s' : Store J ρ} {result : Option (ClaimedJob J)}
    (h : claimNext owner leaseSeconds kinds leaseToken attemptId locked clock s
      = .ok (result, s')) :
    (result = none ∧ s' = s) ∨ ∃ row claimed, result = some claimed ∧
      Granted row claimed clock.seen (clock.written + seconds leaseSeconds) s s' := by
  simp only [claimNext, bind_eq_ok] at h
  obtain ⟨-, -, -, -, claimKinds, -, h⟩ := h
  split at h
  · cases h
    exact Or.inl ⟨rfl, rfl⟩
  · next row hrow =>
    obtain ⟨hmem, havail⟩ := selectClaim_spec hrow
    obtain ⟨attempts, hattempts, hs'⟩ := bind_eq_ok.mp h
    obtain ⟨-, rfl⟩ := insertUnique_eq_ok.mp hattempts
    cases hs'
    exact Or.inr ⟨row, _, rfl, hmem, havail, rfl, rfl, rfl, rfl, rfl⟩

theorem heartbeat_step {claimed : ClaimedJob J} {leaseSeconds : ℤ} {clock : StatementClock}
    {s s' : Store J ρ} {u : Unit} (hids : UniqueIds s)
    (h : heartbeat claimed leaseSeconds clock s = .ok (u, s')) :
    ∃ row, Fenced claimed clock.seen row ∧
      Extended row (clock.written + seconds leaseSeconds) s s' := by
  simp only [heartbeat, bind_eq_ok, require_eq_ok] at h
  obtain ⟨-, -, -, hcount, hs'⟩ := h
  obtain ⟨row, hmem, hfenced, hset⟩ := exists_of_rowcount_eq_one hids (fun _ hp ↦ hp.1) hcount
  rw [hset, ← hfenced.1] at hs'
  cases hs'
  exact ⟨row, hfenced, hmem, hfenced.2.1, rfl⟩

theorem requeueRetryable_step {jobId : UUID} {expectedLeaseGeneration : ℤ} {s s' : Store J ρ}
    {u : Unit} (hids : UniqueIds s)
    (h : requeueRetryable jobId expectedLeaseGeneration s = .ok (u, s')) :
    ∃ row, Requeueable jobId expectedLeaseGeneration row ∧ Requeued row s s' := by
  simp only [requeueRetryable, bind_eq_ok, require_eq_ok] at h
  obtain ⟨-, -, -, hcount, hs'⟩ := h
  obtain ⟨row, hmem, hrow, hset⟩ := exists_of_rowcount_eq_one hids (fun _ hp ↦ hp.1) hcount
  rw [hset, ← hrow.1] at hs'
  cases hs'
  exact ⟨row, hrow, hmem, hrow.2.1, hrow.2.2.2, rfl⟩

theorem runEffect_eq_ok {effect : Option (Effect J ρ)} {s s' : Store J ρ}
    (h : runEffect (effect.map (·.run)) s = .ok s') : ∃ rows, Inserted rows s s' := by
  cases effect with
  | none =>
    cases h
    exact ⟨[], Inserted.refl s s.other⟩
  | some e => exact e.contained s s' h

theorem storeResult_eq_ok [JsonDocument J] {targetState : JobState} {resultId jobId : UUID}
    {result : J} {s s' : Store J ρ} (h : storeResult targetState resultId jobId result s = .ok s') :
    ∃ added : List (JobResult J), s' = { s with jobResults := s.jobResults ++ added } ∧
      (∀ r ∈ added, r.jobId = jobId) ∧
      added.length = if targetState = .succeeded then 1 else 0 := by
  rw [storeResult] at h
  split at h
  · next htarget =>
    simp only [bind_eq_ok] at h
    obtain ⟨-, -, results, hresults, hs'⟩ := h
    obtain ⟨-, rfl⟩ := insertUnique_eq_ok.mp hresults
    cases hs'
    exact ⟨_, rfl, by simp, by simp [htarget]⟩
  · next htarget =>
    cases h
    exact ⟨[], by simp, List.forall_mem_nil _, by simp [htarget]⟩

/-- A key that a row update leaves alone is no obstacle to the rows an effect inserts. -/
theorem jobsClash_setJob {id : UUID} {f : Job J → Job J} {jobs : List (Job J)} {new : Job J}
    (hid : ∀ j, (f j).id = j.id) (hkey : ∀ j, (f j).logicalKey = j.logicalKey)
    (h : ∀ r ∈ setJob id f jobs, ¬jobsClash r new) : ∀ r ∈ jobs, ¬jobsClash r new := by
  intro r hr hclash
  by_cases hk : r.id = id
  · refine h (f r) (mem_updateWhere_of_mem hr hk) ?_
    rwa [jobsClash, hid, hkey]
  · exact h r (mem_updateWhere_of_not hr hk) hclash

/-- **A completion, whatever its effect.** It found one fenced row, ran the effect on the store with
that row given up, and kept the other tables as the effect left them. If the effect did no more to
the queue than insert rows, the whole is a completion step with those rows. -/
theorem completeWithEffects_eq_ok [JsonDocument J] {claimed : ClaimedJob J} {targetState : JobState}
    {result : J} {errorCode : Option String}
    {effect : Option (Store J ρ → Except Error (Store J ρ))} {resultId : UUID}
    {clock : StatementClock} {s s' : Store J ρ} {u : Unit} (hids : UniqueIds s)
    (h : completeWithEffects claimed targetState result errorCode effect resultId clock s
      = .ok (u, s')) :
    ∃ row ∈ s.jobs, Fenced claimed clock.seen row ∧
      ∃ s₂, runEffect effect
          { s with jobs := setJob row.id (completedJob targetState errorCode) s.jobs } = .ok s₂ ∧
        s'.other = s₂.other ∧
        ∀ rows, Inserted rows
            { s with jobs := setJob row.id (completedJob targetState errorCode) s.jobs } s₂ →
          Completed row claimed targetState errorCode rows s s' := by
  simp only [completeWithEffects, bind_eq_ok, require_eq_ok] at h
  obtain ⟨_, harguments, -, hcount, s₂, heffect, s₃, hresult, -, -, hs'⟩ := h
  obtain ⟨row, hmem, hfenced, hset⟩ := exists_of_rowcount_eq_one hids (fun _ hp ↦ hp.1) hcount
  rw [hset, ← hfenced.1] at heffect
  obtain ⟨added, rfl, hrow, hlength⟩ := storeResult_eq_ok hresult
  cases hs'
  refine ⟨row, hmem, hfenced, s₂, heffect, rfl, fun rows hins ↦ ?_⟩
  refine ⟨hmem, hfenced.1, hfenced.2.1, hfenced.2.2.1, hfenced.2.2.2.1,
    harguments, hins.fresh, ?_, hins.distinct, hins.jobs, ?_, added, ?_, ?_, hlength⟩
  · exact fun r hr new hnew ↦ jobsClash_setJob (f := completedJob targetState errorCode)
      (fun _ ↦ rfl) (fun _ ↦ rfl) (fun r hr ↦ hins.unique r hr new hnew) r hr
  · simp only [hins.attempts]
  · simp only [hins.results]
  · exact fun r hr ↦ (hrow r hr).trans hfenced.1.symm

theorem completeWithEffects_step [JsonDocument J] {claimed : ClaimedJob J} {targetState : JobState}
    {result : J} {errorCode : Option String} {effect : Option (Effect J ρ)} {resultId : UUID}
    {clock : StatementClock} {s s' : Store J ρ} {u : Unit} (hids : UniqueIds s)
    (h : completeWithEffects claimed targetState result errorCode (effect.map (·.run)) resultId
      clock s = .ok (u, s')) :
    ∃ row rows, Fenced claimed clock.seen row ∧
      Completed row claimed targetState errorCode rows s s' := by
  obtain ⟨row, -, hfenced, s₂, heffect, -, hcompleted⟩ := completeWithEffects_eq_ok hids h
  obtain ⟨rows, hins⟩ := runEffect_eq_ok heffect
  exact ⟨row, rows, hfenced, hcompleted rows hins⟩

end MeetingRag
