import MeetingRag.Library.Lease
import MeetingRag.Queue.Runs

/-!
# The queue invariant

Jobs, attempts and results are three tables written by five operations, and a claim also ends the
attempts that other workers abandoned. What couples the tables is local to one job: its row, the
list of its attempts and the list of its results. `Coherent` states that coupling for one job and
`Consistent` asks it of every job, together with the keys and the ownership of the other rows.

## Locality

A step changes the row, the attempts and the results of one job. `Consistent.setJob` is the whole
frame argument: when the views of all other jobs are what they were, only the coherence of the one
job is left to show. Each kind of step then has a lemma about `Coherent` alone, in which the tables
no longer occur.

The fence is a second view of the same row: its generation, its token and whether it succeeded are
the state of an abstract lease, and every queue step moves it by one move of that lease.
-/

open Outcome Table

namespace MeetingRag

variable {J ρ : Type}

/-! ## Coherence of one job -/

/-- The running attempts of a list. -/
def runningAttempts (attempts : List JobAttempt) : List JobAttempt :=
  attempts.filter (·.status = .running)

/-- The check constraint `jobs_failure_requires_error_code`. -/
def FailureCoded (state : JobState) (errorCode : Option String) : Prop :=
  if state = .failedRetryable ∨ state = .failedTerminal then
    ∃ code, errorCode = some code ∧ 1 ≤ code.length ∧ code.length ≤ 128
  else errorCode = none

/-- A job row agrees with its attempts and its results. -/
structure Coherent (j : Job J) (attempts : List JobAttempt) (results : List (JobResult J)) :
    Prop where
  attempts_eq : j.attempts = j.leaseGeneration
  count : attempts.length = j.leaseGeneration
  owner : ∀ a ∈ attempts, a.jobId = j.id
  bounded : ∀ a ∈ attempts, a.leaseGeneration ≤ j.leaseGeneration
  unended : ∀ a ∈ attempts, a.status = .running → a.ended = false
  running : j.state = .running → ∃ a, runningAttempts attempts = [a] ∧
    a.leaseGeneration = j.leaseGeneration ∧ j.leaseToken = some a.leaseToken
  idle : j.state ≠ .running → runningAttempts attempts = []
  held : j.state = .running →
    j.leaseOwner ≠ none ∧ j.leaseToken ≠ none ∧ j.leaseUntil ≠ none
  free : j.state ≠ .running →
    j.leaseOwner = none ∧ j.leaseToken = none ∧ j.leaseUntil = none
  coded : FailureCoded j.state j.errorCode
  started : j.state ≠ .pending → 1 ≤ j.leaseGeneration
  result : results.length = if j.state = .succeeded then 1 else 0

theorem coherent_newJob (id : UUID) (logicalKey : String) (kind : JobKind)
    (snapshotId : Option UUID) (payload : J) (createdAt : Timestamp) :
    Coherent (newJob id logicalKey kind snapshotId payload createdAt) [] [] where
  attempts_eq := rfl
  count := rfl
  owner := List.forall_mem_nil _
  bounded := List.forall_mem_nil _
  unended := List.forall_mem_nil _
  running := nofun
  idle := fun _ ↦ rfl
  held := nofun
  free := fun _ ↦ ⟨rfl, rfl, rfl⟩
  coded := rfl
  started := fun hne ↦ absurd rfl hne
  result := rfl

section CoherentSteps

variable {j : Job J} {attempts : List JobAttempt} {results : List (JobResult J)}

/-- Every running attempt of a coherent job is the one its row names. -/
theorem Coherent.eq_current (h : Coherent j attempts results) {a : JobAttempt} (ha : a ∈ attempts)
    (hrun : a.status = .running) : j.state = .running ∧ a.leaseGeneration = j.leaseGeneration ∧
      j.leaseToken = some a.leaseToken ∧ a.ended = false := by
  have hmem : a ∈ runningAttempts attempts := List.mem_filter.mpr ⟨ha, decide_eq_true hrun⟩
  by_cases hstate : j.state = .running
  · obtain ⟨b, hb, hgen, htoken⟩ := h.running hstate
    rw [hb, List.mem_singleton] at hmem
    subst hmem
    exact ⟨hstate, hgen, htoken, h.unended a ha hrun⟩
  · rw [h.idle hstate] at hmem
    exact absurd hmem List.not_mem_nil

/-- The attempts left once an expired lease has been reconciled: as many, none of them running. -/
theorem Coherent.expired (h : Coherent j attempts results) :
    let left := if j.state = .running then expireAttempt j attempts else attempts
    left.length = attempts.length ∧ runningAttempts left = [] ∧
      ∀ a ∈ left, a.jobId = j.id ∧ a.leaseGeneration ≤ j.leaseGeneration := by
  intro left
  by_cases hstate : j.state = .running
  · rw [show left = expireAttempt j attempts from if_pos hstate, expireAttempt]
    refine ⟨length_updateWhere, ?_, fun a ha ↦ ?_⟩
    · rw [runningAttempts, List.filter_eq_nil_iff]
      intro a ha hrun
      have hrun : a.status = .running := of_decide_eq_true hrun
      rcases mem_updateWhere.mp ha with ⟨b, -, -, rfl⟩ | ⟨hmem, hnot⟩
      · exact nomatch hrun
      · obtain ⟨-, hgen, -, hended⟩ := h.eq_current hmem hrun
        exact hnot ⟨h.owner a hmem, hgen, hrun, hended⟩
    · rcases mem_updateWhere.mp ha with ⟨b, hb, -, rfl⟩ | ⟨hmem, -⟩
      · exact ⟨h.owner b hb, h.bounded b hb⟩
      · exact ⟨h.owner a hmem, h.bounded a hmem⟩
  · rw [show left = attempts from if_neg hstate]
    exact ⟨rfl, h.idle hstate, fun a ha ↦ ⟨h.owner a ha, h.bounded a ha⟩⟩

/-- A claim of an available job. -/
theorem Coherent.granted (h : Coherent j attempts results) {now leaseUntil : Timestamp}
    (havail : Available now j) (token attemptId : UUID) (owner : String) :
    Coherent (leasedJob (j.leaseGeneration + 1) token owner leaseUntil j)
      ((if j.state = .running then expireAttempt j attempts else attempts) ++
        [{ id := attemptId
           jobId := j.id
           leaseGeneration := j.leaseGeneration + 1
           leaseToken := token
           owner := owner
           ended := false
           status := .running
           errorCode := none }]) results := by
  obtain ⟨hlength, hnone, hleft⟩ := h.expired
  refine ⟨?_, ?_, ?_, ?_, ?_, fun _ ↦ ?_, fun hne ↦ absurd rfl hne, fun _ ↦ ?_,
    fun hne ↦ absurd rfl hne, rfl, fun _ ↦ Nat.succ_pos _, ?_⟩
  · exact congrArg (· + 1) h.attempts_eq
  · rw [List.length_append, hlength, h.count, List.length_singleton]
    rfl
  · intro a ha
    rcases List.mem_append.mp ha with ha | ha
    · exact (hleft a ha).1
    · rw [List.mem_singleton.mp ha]
      rfl
  · intro a ha
    rcases List.mem_append.mp ha with ha | ha
    · exact Nat.le_succ_of_le (hleft a ha).2
    · rw [List.mem_singleton.mp ha]
      rfl
  · intro a ha hrun
    rcases List.mem_append.mp ha with ha | ha
    · have hmem : a ∈ runningAttempts _ := List.mem_filter.mpr ⟨ha, decide_eq_true hrun⟩
      rw [hnone] at hmem
      exact absurd hmem List.not_mem_nil
    · rw [List.mem_singleton.mp ha]
  · rw [runningAttempts] at hnone
    exact ⟨_, by rw [runningAttempts, List.filter_append, hnone]; rfl, rfl, rfl⟩
  · exact ⟨Option.some_ne_none _, Option.some_ne_none _, Option.some_ne_none _⟩
  · have hne : j.state ≠ .succeeded := by
      rcases havail with h | ⟨h, -⟩ <;> simp [h]
    rw [h.result, if_neg hne]
    rfl

/-- A heartbeat. -/
theorem Coherent.extended (h : Coherent j attempts results) (hrun : j.state = .running)
    (leaseUntil : Timestamp) :
    Coherent { j with leaseUntil := some leaseUntil } attempts results where
  attempts_eq := h.attempts_eq
  count := h.count
  owner := h.owner
  bounded := h.bounded
  unended := h.unended
  running := h.running
  idle := h.idle
  held := fun hs ↦ ⟨(h.held hs).1, (h.held hs).2.1, Option.some_ne_none _⟩
  free := fun hne ↦ absurd hrun hne
  coded := h.coded
  started := h.started
  result := h.result

/-- **What a completion may ask for**: success without an error code, or a failure with one. -/
theorem requireCompletionArguments_eq_ok {targetState : JobState} {errorCode : Option String}
    {u : Unit} : requireCompletionArguments targetState errorCode = .ok u ↔
      (targetState = .succeeded ∧ errorCode = none) ∨
        ((targetState = .failedRetryable ∨ targetState = .failedTerminal) ∧
          ∃ code, errorCode = some code ∧ ¬Text.Blank code ∧ code.length ≤ 128) := by
  cases errorCode with
  | none =>
    cases targetState <;>
      simp [requireCompletionArguments, completionStates, require]
  | some code =>
    cases targetState <;>
      simp [requireCompletionArguments, completionStates, require, bind_eq_ok]

theorem failureCoded_of_arguments {targetState : JobState} {errorCode : Option String}
    (h : requireCompletionArguments targetState errorCode = .ok ()) :
    targetState ≠ .running ∧ FailureCoded targetState errorCode := by
  rcases requireCompletionArguments_eq_ok.mp h with ⟨rfl, rfl⟩ | ⟨hfailed, code, rfl, hblank, hlen⟩
  · exact ⟨nofun, rfl⟩
  · have hpos : 1 ≤ code.length := by
      rw [Nat.one_le_iff_ne_zero, Ne, String.length_eq_zero_iff]
      exact Text.ne_empty_of_not_blank hblank
    rcases hfailed with rfl | rfl
    · exact ⟨nofun, code, rfl, hpos, hlen⟩
    · exact ⟨nofun, code, rfl, hpos, hlen⟩

/-- A completion by the holder of the lease. -/
theorem Coherent.completed (h : Coherent j attempts results) {claimed : ClaimedJob J}
    (hid : j.id = claimed.id) (hrun : j.state = .running)
    (hgen : j.leaseGeneration = claimed.leaseGeneration)
    (htoken : j.leaseToken = some claimed.leaseToken) {targetState : JobState}
    {errorCode : Option String}
    (harguments : requireCompletionArguments targetState errorCode = .ok ())
    {added : List (JobResult J)} (hadded : added.length = if targetState = .succeeded then 1 else 0) :
    Coherent (completedJob targetState errorCode j)
      (updateWhere (CurrentAttempt claimed) (endedAttempt targetState errorCode) attempts)
      (results ++ added) := by
  obtain ⟨htarget, hcoded⟩ := failureCoded_of_arguments harguments
  have hkeep : ∀ a ∈ updateWhere (CurrentAttempt claimed) (endedAttempt targetState errorCode)
      attempts, a.status ≠ .running ∧ ∃ b ∈ attempts, a.jobId = b.jobId ∧
        a.leaseGeneration = b.leaseGeneration := by
    intro a ha
    rcases mem_updateWhere.mp ha with ⟨b, hb, -, rfl⟩ | ⟨hmem, hnot⟩
    · refine ⟨?_, b, hb, rfl, rfl⟩
      simp only [endedAttempt, ne_eq]
      split <;> exact nofun
    · refine ⟨fun hstatus ↦ hnot ?_, a, hmem, rfl, rfl⟩
      obtain ⟨-, hag, hat, hended⟩ := h.eq_current hmem hstatus
      refine ⟨(h.owner a hmem).trans hid, hag.trans hgen, ?_, hstatus, hended⟩
      exact Option.some.inj (hat.symm.trans htoken)
  refine ⟨h.attempts_eq, ?_, ?_, ?_, ?_, fun hs ↦ absurd hs htarget, fun _ ↦ ?_,
    fun hs ↦ absurd hs htarget, fun _ ↦ ⟨rfl, rfl, rfl⟩, hcoded,
    fun _ ↦ h.started (by simp [hrun]), ?_⟩
  · rw [length_updateWhere]
    exact h.count
  · intro a ha
    obtain ⟨-, b, hb, hjob, -⟩ := hkeep a ha
    exact hjob.trans (h.owner b hb)
  · intro a ha
    obtain ⟨-, b, hb, -, hbgen⟩ := hkeep a ha
    exact hbgen.trans_le (h.bounded b hb)
  · exact fun a ha hs ↦ absurd hs (hkeep a ha).1
  · rw [runningAttempts, List.filter_eq_nil_iff]
    exact fun a ha hs ↦ (hkeep a ha).1 (of_decide_eq_true hs)
  · have hne : j.state ≠ .succeeded := by simp [hrun]
    rw [List.length_append, h.result, if_neg hne, Nat.zero_add]
    exact hadded

/-- A requeue of a failed job. -/
theorem Coherent.requeued (h : Coherent j attempts results) (hfailed : j.state = .failedRetryable) :
    Coherent (requeuedJob j) attempts results where
  attempts_eq := h.attempts_eq
  count := h.count
  owner := h.owner
  bounded := h.bounded
  unended := h.unended
  running := nofun
  idle := fun _ ↦ h.idle (by simp [hfailed])
  held := nofun
  free := fun _ ↦ h.free (by simp [hfailed])
  coded := rfl
  started := fun hne ↦ absurd rfl hne
  result := by rw [h.result, if_neg (by simp [hfailed])]; rfl

end CoherentSteps

/-! ## Consistency of the tables -/

/-- Unique keys, no orphans, and coherence of every job. -/
structure Consistent (s : Store J ρ) : Prop where
  ids : UniqueIds s
  keys : (s.jobs.map (·.logicalKey)).Nodup
  attempts : ∀ a ∈ s.jobAttempts, ∃ j ∈ s.jobs, j.id = a.jobId
  results : ∀ r ∈ s.jobResults, ∃ j ∈ s.jobs, j.id = r.jobId
  coherent : ∀ j ∈ s.jobs, Coherent j (attemptsOf j.id s) (resultsOf j.id s)

theorem consistent_empty (other : ρ) : Consistent (emptyStore other : Store J ρ) where
  ids := List.nodup_nil
  keys := List.nodup_nil
  attempts := List.forall_mem_nil _
  results := List.forall_mem_nil _
  coherent := List.forall_mem_nil _

section Preservation

variable {s s' : Store J ρ}

/-- **Locality.** A step that rewrites one job row, and the attempts and results of that job only,
keeps the tables consistent when it keeps that job coherent. -/
theorem Consistent.setJob (h : Consistent s) {row : Job J} (hmem : row ∈ s.jobs) {f : Job J → Job J}
    (hjobs : s'.jobs = MeetingRag.setJob row.id f s.jobs)
    (hid : ∀ j, (f j).id = j.id) (hkey : ∀ j, (f j).logicalKey = j.logicalKey)
    (hattempts : ∀ id ≠ row.id, attemptsOf id s' = attemptsOf id s)
    (hresults : ∀ id ≠ row.id, resultsOf id s' = resultsOf id s)
    (hrow : Coherent (f row) (attemptsOf row.id s') (resultsOf row.id s')) : Consistent s' := by
  have hids : s'.jobs.map (·.id) = s.jobs.map (·.id) := by
    rw [hjobs, MeetingRag.setJob, map_updateWhere_of_forall hid]
  have hkeys : s'.jobs.map (·.logicalKey) = s.jobs.map (·.logicalKey) := by
    rw [hjobs, MeetingRag.setJob, map_updateWhere_of_forall hkey]
  have hexists : ∀ id, (∃ j ∈ s.jobs, j.id = id) → ∃ j ∈ s'.jobs, j.id = id := by
    rintro id ⟨j, hj, rfl⟩
    have : j.id ∈ s'.jobs.map (·.id) := hids ▸ List.mem_map_of_mem hj
    exact List.mem_map.mp this
  refine ⟨?_, hkeys ▸ h.keys, fun a ha ↦ hexists _ ?_, fun r hr ↦ hexists _ ?_, fun j hj ↦ ?_⟩
  · rw [UniqueIds, hids]
    exact h.ids
  · by_cases hrowid : a.jobId = row.id
    · exact ⟨row, hmem, hrowid.symm⟩
    · have ha' : a ∈ attemptsOf a.jobId s' := List.mem_filter.mpr ⟨ha, decide_eq_true rfl⟩
      rw [hattempts _ hrowid] at ha'
      exact h.attempts a (List.mem_filter.mp ha').1
  · by_cases hrowid : r.jobId = row.id
    · exact ⟨row, hmem, hrowid.symm⟩
    · have hr' : r ∈ resultsOf r.jobId s' := List.mem_filter.mpr ⟨hr, decide_eq_true rfl⟩
      rw [hresults _ hrowid] at hr'
      exact h.results r (List.mem_filter.mp hr').1
  · rw [hjobs] at hj
    rcases mem_updateWhere.mp hj with ⟨j₀, hj₀, heq, rfl⟩ | ⟨hj₀, hne⟩
    · rw [eq_of_key_eq h.ids hj₀ hmem heq, hid]
      exact hrow
    · rw [hattempts _ hne, hresults _ hne]
      exact h.coherent j hj₀

theorem Consistent.inserted (h : Consistent s) {rows : List (Job J)} (hins : Inserted rows s s') :
    Consistent s' := by
  have hviews : ∀ id, attemptsOf id s' = attemptsOf id s ∧ resultsOf id s' = resultsOf id s :=
    fun id ↦ ⟨by rw [attemptsOf, hins.attempts]; rfl, by rw [resultsOf, hins.results]; rfl⟩
  have hnodup : ∀ {κ : Type} (key : Job J → κ), (s.jobs.map key).Nodup →
      (∀ a b, key a = key b → jobsClash a b) → (s'.jobs.map key).Nodup := by
    intro κ key hold hclash
    rw [hins.jobs, List.map_append, List.nodup_append]
    refine ⟨hold, ?_, ?_⟩
    · rw [List.Nodup, List.pairwise_map]
      exact hins.distinct.imp fun hne heq ↦ hne (hclash _ _ heq)
    · rintro _ ha _ hb heq
      obtain ⟨a, ha', rfl⟩ := List.mem_map.mp ha
      obtain ⟨b, hb', rfl⟩ := List.mem_map.mp hb
      exact hins.unique a ha' b hb' (hclash a b heq)
  refine ⟨hnodup _ h.ids fun _ _ ↦ Or.inl, hnodup _ h.keys fun _ _ ↦ Or.inr, ?_, ?_, ?_⟩
  · intro a ha
    obtain ⟨j, hj, hid⟩ := h.attempts a (hins.attempts ▸ ha)
    exact ⟨j, hins.jobs ▸ List.mem_append_left _ hj, hid⟩
  · intro r hr
    obtain ⟨j, hj, hid⟩ := h.results r (hins.results ▸ hr)
    exact ⟨j, hins.jobs ▸ List.mem_append_left _ hj, hid⟩
  · intro j hj
    rw [(hviews j.id).1, (hviews j.id).2]
    rw [hins.jobs] at hj
    rcases List.mem_append.mp hj with hj | hj
    · exact h.coherent j hj
    · -- A new job has no attempts and no results: they would belong to a job of the same id.
      have hattempts : attemptsOf j.id s = [] := List.filter_eq_nil_iff.mpr fun a ha heq ↦ by
        obtain ⟨k, hk, hid⟩ := h.attempts a ha
        exact hins.unique k hk j hj (Or.inl (hid.trans (of_decide_eq_true heq)))
      have hresults : resultsOf j.id s = [] := List.filter_eq_nil_iff.mpr fun r hr heq ↦ by
        obtain ⟨k, hk, hid⟩ := h.results r hr
        exact hins.unique k hk j hj (Or.inl (hid.trans (of_decide_eq_true heq)))
      rw [hattempts, hresults]
      obtain ⟨id, logicalKey, kind, snapshotId, payload, createdAt, rfl⟩ := hins.fresh j hj
      exact coherent_newJob _ _ _ _ _ _

theorem Consistent.granted (h : Consistent s) {row : Job J} {claimed : ClaimedJob J}
    {now leaseUntil : Timestamp} (hg : Granted row claimed now leaseUntil s s') :
    Consistent s' := by
  have hclaim := hg.claim
  have hid : claimed.id = row.id := by rw [hclaim]
  have hgen : claimed.leaseGeneration = row.leaseGeneration + 1 := by rw [hclaim]
  have hattempts : ∀ id, attemptsOf id s' =
      (if row.state = .running then expireAttempt row (attemptsOf id s) else attemptsOf id s) ++
        [{ id := claimed.attemptId
           jobId := claimed.id
           leaseGeneration := claimed.leaseGeneration
           leaseToken := claimed.leaseToken
           owner := claimed.owner
           ended := false
           status := .running
           errorCode := none }].filter (·.jobId = id) := by
    intro id
    rw [attemptsOf, hg.attempts, List.filter_append]
    congr 1
    split
    · exact filter_updateWhere_of_forall fun _ ↦ rfl
    · rfl
  refine h.setJob hg.mem hg.jobs (fun _ ↦ rfl) (fun _ ↦ rfl) (fun id hne ↦ ?_)
    (fun id _ ↦ by rw [resultsOf, hg.results]; rfl) ?_
  · rw [hattempts, List.filter_cons_of_neg (by simpa [hid] using Ne.symm hne), List.filter_nil,
      List.append_nil]
    split
    · refine updateWhere_eq_self fun a ha hp ↦ hne ?_
      rw [← hp.1]
      exact (of_decide_eq_true (List.mem_filter.mp ha).2).symm
    · rfl
  · rw [hattempts, List.filter_cons_of_pos (by simpa using hid), List.filter_nil, resultsOf,
      hg.results, hgen, hid]
    exact (h.coherent row hg.mem).granted hg.available _ _ _

theorem Consistent.extended (h : Consistent s) {row : Job J} {leaseUntil : Timestamp}
    (he : Extended row leaseUntil s s') : Consistent s' := by
  obtain ⟨hmem, hrun, rfl⟩ := he
  exact h.setJob hmem rfl (fun _ ↦ rfl) (fun _ ↦ rfl) (fun _ _ ↦ rfl) (fun _ _ ↦ rfl)
    ((h.coherent row hmem).extended hrun leaseUntil)

theorem Consistent.requeued (h : Consistent s) {row : Job J} (hr : Requeued row s s') :
    Consistent s' := by
  obtain ⟨hmem, hfailed, -, rfl⟩ := hr
  exact h.setJob hmem rfl (fun _ ↦ rfl) (fun _ ↦ rfl) (fun _ _ ↦ rfl) (fun _ _ ↦ rfl)
    ((h.coherent row hmem).requeued hfailed)

/-- A completion is the completion of one job followed by the inserts of its effect. -/
theorem Consistent.completed (h : Consistent s) {row : Job J} {claimed : ClaimedJob J}
    {targetState : JobState} {errorCode : Option String} {rows : List (Job J)}
    (hc : Completed row claimed targetState errorCode rows s s') : Consistent s' := by
  obtain ⟨added, hadded, hrow, hlength⟩ := hc.results
  set mid : Store J ρ := { s' with
    jobs := MeetingRag.setJob row.id (completedJob targetState errorCode) s.jobs } with hmid
  have hresults : ∀ id, resultsOf id mid = resultsOf id s ++ added.filter (·.jobId = id) := by
    intro id
    rw [resultsOf, hmid, hadded, List.filter_append]
    rfl
  have hattempts : ∀ id, attemptsOf id mid = updateWhere (CurrentAttempt claimed)
      (endedAttempt targetState errorCode) (attemptsOf id s) := by
    intro id
    rw [attemptsOf, hmid, hc.attempts]
    exact filter_updateWhere_of_forall fun _ ↦ rfl
  have hconsistent : Consistent mid := by
    refine h.setJob hc.mem rfl (fun _ ↦ rfl) (fun _ ↦ rfl)
      (fun id hne ↦ ?_) (fun id hne ↦ ?_) ?_
    · rw [hattempts]
      refine updateWhere_eq_self fun a ha hp ↦ hne ?_
      rw [hc.id, ← hp.1]
      exact (of_decide_eq_true (List.mem_filter.mp ha).2).symm
    · rw [hresults, List.filter_eq_nil_iff.mpr, List.append_nil]
      intro r hr heq
      exact hne ((of_decide_eq_true heq).symm.trans (hrow r hr))
    · rw [hattempts, hresults, List.filter_eq_self.mpr fun r hr ↦ decide_eq_true (hrow r hr)]
      exact (h.coherent row hc.mem).completed hc.id hc.running hc.generation hc.token
        hc.arguments hlength
  have hunique : ∀ r ∈ mid.jobs, ∀ new ∈ rows, ¬jobsClash r new := by
    intro r hr new hnew
    rcases mem_updateWhere.mp hr with ⟨r₀, hr₀, -, rfl⟩ | ⟨hr₀, -⟩
    · exact hc.unique r₀ hr₀ new hnew
    · exact hc.unique r hr₀ new hnew
  exact hconsistent.inserted ⟨hc.fresh, hunique, hc.distinct, hc.jobs, rfl, rfl⟩

/-- **The step lemma.** -/
theorem Consistent.step (h : Consistent s) (hstep : QueueStep s s') : Consistent s' := by
  cases hstep with
  | unchanged hsame => exact hsame ▸ h
  | inserted rows hins => exact h.inserted hins
  | granted row claimed now leaseUntil hg => exact h.granted hg
  | extended row leaseUntil he => exact h.extended he
  | completed row claimed targetState errorCode rows hc => exact h.completed hc
  | requeued row hr => exact h.requeued hr

end Preservation

/-! ## The lease behind a job row -/

/-- The fence of a job: its generation, its token, and whether it is finished for good. -/
def leaseCell (j : Job J) : Lease.Cell UUID :=
  ⟨j.leaseGeneration, j.leaseToken, decide (j.state = .succeeded)⟩

theorem leaseCell_of_ne {j : Job J} (h : j.state ≠ .succeeded) :
    leaseCell j = ⟨j.leaseGeneration, j.leaseToken, false⟩ := by
  rw [leaseCell, decide_eq_false h]

/-- Rewriting one row moves its lease, and every other row keeps its own. -/
theorem move_setJob {s s' : Store J ρ} {row : Job J} {f : Job J → Job J} {rows : List (Job J)}
    (hids : UniqueIds s) (hmem : row ∈ s.jobs) (hjobs : s'.jobs = setJob row.id f s.jobs ++ rows)
    (hid : ∀ j, (f j).id = j.id) (hmove : Lease.Move (leaseCell row) (leaseCell (f row))) :
    ∀ j ∈ s.jobs, ∃ j' ∈ s'.jobs, j'.id = j.id ∧ Lease.Move (leaseCell j) (leaseCell j') := by
  intro j hj
  rw [hjobs]
  by_cases heq : j.id = row.id
  · rw [eq_of_key_eq hids hj hmem heq]
    exact ⟨f row, List.mem_append_left _ (mem_updateWhere_of_mem hmem rfl), hid row, hmove⟩
  · exact ⟨j, List.mem_append_left _ (mem_updateWhere_of_not hj heq), rfl, .keep _⟩

/-- **The queue refines the fenced lease.** A queue step keeps every job row and moves the lease
behind it by one move. -/
theorem QueueStep.move {s s' : Store J ρ} (hids : UniqueIds s) (hstep : QueueStep s s') :
    ∀ j ∈ s.jobs, ∃ j' ∈ s'.jobs, j'.id = j.id ∧ Lease.Move (leaseCell j) (leaseCell j') := by
  cases hstep with
  | unchanged hsame =>
    subst hsame
    exact fun j hj ↦ ⟨j, hj, rfl, .keep _⟩
  | inserted rows hins =>
    exact fun j hj ↦ ⟨j, hins.jobs ▸ List.mem_append_left _ hj, rfl, .keep _⟩
  | granted row claimed now leaseUntil hg =>
    refine move_setJob hids hg.mem (hg.jobs.trans (List.append_nil _).symm) (fun _ ↦ rfl) ?_
    have hne : row.state ≠ .succeeded := by
      rcases hg.available with h | ⟨h, -⟩ <;> simp [h]
    rw [leaseCell_of_ne hne, hg.claim]
    exact .grant _ _ _
  | extended row leaseUntil he =>
    refine move_setJob hids he.mem ((congrArg Store.jobs he.store).trans
      (List.append_nil _).symm) (fun _ ↦ rfl) ?_
    exact .keep _
  | completed row claimed targetState errorCode rows hc =>
    refine move_setJob hids hc.mem hc.jobs (fun _ ↦ rfl) ?_
    have hne : row.state ≠ .succeeded := by simp [hc.running]
    rw [leaseCell_of_ne hne, hc.token]
    exact .release _ _ _
  | requeued row hr =>
    refine move_setJob hids hr.mem ((congrArg Store.jobs hr.store).trans
      (List.append_nil _).symm) (fun _ ↦ rfl) ?_
    have hne : row.state ≠ .succeeded := by simp [hr.failed]
    have hne' : (requeuedJob row).state ≠ .succeeded := nofun
    rw [leaseCell_of_ne hne, leaseCell_of_ne hne']
    exact .keep _

/-! ## Runs -/

section Runs

variable [JsonDocument J] {q : QueueState J ρ} {is : List (QueueInput J ρ)}

theorem consistent_step (i : QueueInput J ρ) (h : Consistent q.store) :
    Consistent ((queueMachine J ρ).step q i).2.store :=
  h.step (queueMachine_step q i h.ids)

/-- Every step of a legal run from a consistent store is taken in a consistent store. -/
theorem legal_consistent (hlegal : (queueMachine J ρ).Legal q is) (h : Consistent q.store) :
    (queueMachine J ρ).Along (fun q i ↦ Consistent q.store ∧ (queueMachine J ρ).enabled q i) q is :=
  Machine.Along.with_invariant hlegal h fun _ i hc _ ↦ consistent_step i hc

theorem legal_exec_consistent (hlegal : (queueMachine J ρ).Legal q is) (h : Consistent q.store) :
    Consistent ((queueMachine J ρ).exec q is).store :=
  Machine.Along.invariant (P := fun q ↦ Consistent q.store) hlegal h
    fun _ i hc _ ↦ consistent_step i hc

end Runs

/-- The coupling of the three queue tables, spelled out. -/
structure QueueTablesSound (s : Store J ρ) : Prop where
  result_iff : ∀ j ∈ s.jobs, (∃ r ∈ s.jobResults, r.jobId = j.id) ↔ j.state = .succeeded
  result_unique : (s.jobResults.map (·.jobId)).Nodup
  running_attempt : ∀ j ∈ s.jobs, j.state = .running →
    ∃ a, runningAttempts (attemptsOf j.id s) = [a] ∧ a.leaseGeneration = j.leaseGeneration ∧
      j.leaseToken = some a.leaseToken
  no_running_attempt : ∀ j ∈ s.jobs, j.state ≠ .running → runningAttempts (attemptsOf j.id s) = []
  counters : ∀ j ∈ s.jobs,
    j.attempts = j.leaseGeneration ∧ j.leaseGeneration = (attemptsOf j.id s).length
  lease_held : ∀ j ∈ s.jobs, j.state = .running →
    j.leaseOwner ≠ none ∧ j.leaseToken ≠ none ∧ j.leaseUntil ≠ none
  lease_free : ∀ j ∈ s.jobs, j.state ≠ .running →
    j.leaseOwner = none ∧ j.leaseToken = none ∧ j.leaseUntil = none

/-- What one call may do to the leases: no row loses its generation or leaves `succeeded`, and a
claim that returns a lease has raised the generation of its row. -/
structure LeaseProgress (outcome : Except Error (QueueReply J)) (s s' : Store J ρ) : Prop where
  kept : ∀ j ∈ s.jobs, ∃ j' ∈ s'.jobs, j'.id = j.id ∧ j.leaseGeneration ≤ j'.leaseGeneration ∧
    (j.state = .succeeded → j'.state = .succeeded)
  claimed : ∀ claimed, outcome = .ok (.claimed (some claimed)) →
    ∃ j ∈ s.jobs, ∃ j' ∈ s'.jobs, j.id = claimed.id ∧ j'.id = claimed.id ∧
      j.leaseGeneration < j'.leaseGeneration ∧ j'.leaseGeneration = claimed.leaseGeneration

theorem Consistent.sound {s : Store J ρ} (h : Consistent s) : QueueTablesSound s where
  result_iff j hj := by
    have hlength := (h.coherent j hj).result
    have hexists : (∃ r ∈ s.jobResults, r.jobId = j.id) ↔ 0 < (resultsOf j.id s).length := by
      rw [List.length_pos_iff_exists_mem]
      simp [resultsOf]
    rw [hexists, hlength]
    split <;> simp [*]
  result_unique := by
    rw [List.nodup_iff_count_le_one]
    intro id
    by_cases hid : ∃ r ∈ s.jobResults, r.jobId = id
    · obtain ⟨r, hr, rfl⟩ := hid
      obtain ⟨j, hj, hjr⟩ := h.results r hr
      have hlength := (h.coherent j hj).result
      rw [resultsOf, hjr, ← List.countP_eq_length_filter] at hlength
      rw [List.count, List.countP_map]
      have hle : s.jobResults.countP (fun a ↦ decide (a.jobId = r.jobId)) ≤ 1 := by
        rw [hlength]
        split <;> omega
      simpa [Function.comp_def, beq_eq_decide] using hle
    · rw [List.count_eq_zero_of_not_mem]
      · exact Nat.zero_le 1
      · exact fun hmem ↦ hid (List.mem_map.mp hmem)
  running_attempt j hj := (h.coherent j hj).running
  no_running_attempt j hj := (h.coherent j hj).idle
  counters j hj := ⟨(h.coherent j hj).attempts_eq, (h.coherent j hj).count.symm⟩
  lease_held j hj := (h.coherent j hj).held
  lease_free j hj := (h.coherent j hj).free

theorem leaseProgress_step [JsonDocument J] {q : QueueState J ρ} (i : QueueInput J ρ)
    (h : Consistent q.store) :
    LeaseProgress ((queueMachine J ρ).step q i).1 q.store ((queueMachine J ρ).step q i).2.store where
  kept j hj := by
    obtain ⟨j', hj', hid, hmove⟩ := (queueMachine_step q i h.ids).move h.ids j hj
    refine ⟨j', hj', hid, hmove.generation_le, fun hs ↦ ?_⟩
    exact of_decide_eq_true (hmove.finished (decide_eq_true hs))
  claimed claimed hclaimed := by
    obtain ⟨row, leaseUntil, hg⟩ := i.call.body_claimed (queueMachine_eq_ok.mp hclaimed)
    have hid : row.id = claimed.id := by rw [hg.claim]
    have hgen : claimed.leaseGeneration = row.leaseGeneration + 1 := by rw [hg.claim]
    have hleased : leasedJob claimed.leaseGeneration claimed.leaseToken claimed.owner leaseUntil row
        ∈ ((queueMachine J ρ).step q i).2.store.jobs := by
      rw [hg.jobs]
      exact mem_updateWhere_of_mem hg.mem rfl
    refine ⟨row, hg.mem, _, hleased, hid, hid, ?_, rfl⟩
    exact (Nat.lt_succ_self _).trans_eq hgen.symm

/-- **The queue invariant over runs.** However calls of any workers interleave, and however the
database clock advances between them: results mirror success, a running job has exactly the running
attempt that its row names and no other job has one, the three counters agree, a lease is held
exactly by the running jobs, and every call respects the leases. -/
theorem queue_run_sound [JsonDocument J] (other : ρ) (now : Timestamp) (is : List (QueueInput J ρ))
    (hlegal : (queueMachine J ρ).Legal (emptyQueue other now) is) :
    QueueTablesSound ((queueMachine J ρ).exec (emptyQueue other now) is).store ∧
      (queueMachine J ρ).Along
        (fun q i ↦ LeaseProgress ((queueMachine J ρ).step q i).1 q.store
          ((queueMachine J ρ).step q i).2.store) (emptyQueue other now) is := by
  have hempty : Consistent (emptyQueue other now : QueueState J ρ).store := consistent_empty other
  exact ⟨(legal_exec_consistent hlegal hempty).sound,
    (legal_consistent hlegal hempty).mono fun _ i h ↦ leaseProgress_step i h.1⟩

/-- A schedule with two workers: the first lets its lease run out, the second reclaims the job and
finishes it, and the first reports late. -/
def lateWorkerCalls : List (QueueInput Bool Unit) :=
  let lease (owner : String) (token attempt : UUID) (gen : ℕ) : ClaimedJob Bool :=
    ⟨10, "generation:1", .summary, true, owner, gen, token, attempt⟩
  [ ⟨⟨0, 0, le_rfl⟩, .enqueue 10 "generation:1" "summary" true none⟩,
    ⟨⟨1, 1, le_rfl⟩, .claimNext "first" 1 (some ["summary"]) 21 31 []⟩,
    ⟨⟨2000000, 2000001, by decide⟩, .claimNext "second" 60 none 22 32 []⟩,
    ⟨⟨2000002, 2000003, by decide⟩, .completeWithEffects (lease "second" 22 32 2) .succeeded true
      none none 41⟩,
    ⟨⟨2000004, 2000004, le_rfl⟩, .completeWithEffects (lease "first" 21 31 1) .succeeded true
      none none 42⟩ ]

theorem queue_run_sound_lateWorker :
    QueueTablesSound ((queueMachine Bool Unit).exec (emptyQueue () 0) lateWorkerCalls).store ∧
      (queueMachine Bool Unit).Along
        (fun q i ↦ LeaseProgress ((queueMachine Bool Unit).step q i).1 q.store
          ((queueMachine Bool Unit).step q i).2.store) (emptyQueue () 0) lateWorkerCalls :=
  queue_run_sound () 0 lateWorkerCalls (by decide)

end MeetingRag
