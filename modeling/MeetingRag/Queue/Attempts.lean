import MeetingRag.Queue.Progress

/-!
# A bound on attempts

A worker that gives a job up for good at its last allowed attempt keeps the generation of the job
below the cap as long as it waits. What a transaction does to this bound is the same for every kind
of job: `WithinCap` says of a transaction that the jobs of some kinds stay within the cap, and that
no job loses attempts. Each step of the queue has one lemma, under what it takes: a claim must not
take an expired lease over, and a completion must not put a job off after its last attempt.
-/

open Outcome Table

namespace MeetingRag

variable {J ρ : Type} {kinds : JobKind → Prop} {cap : ℕ} {s s' : Store J ρ}

/-- A job that waits for one of its first `cap` attempts, or is past waiting. -/
def CappedAt (cap : ℕ) (j : Job J) : Prop :=
  j.leaseGeneration ≤ cap ∧
    (j.state ∈ [JobState.pending, .failedRetryable] → j.leaseGeneration < cap)

/-- What is left of a transaction for the attempts at jobs: every job is an old one, which keeps its
attempts and its cap, or a new one without attempts. -/
def WithinCap (kinds : JobKind → Prop) (cap : ℕ) (s s' : Store J ρ) : Prop :=
  ∀ j' ∈ s'.jobs, (∃ j ∈ s.jobs, j'.id = j.id ∧ j'.kind = j.kind ∧
      j.leaseGeneration ≤ j'.leaseGeneration ∧ (kinds j.kind → CappedAt cap j → CappedAt cap j')) ∨
    (CappedAt cap j' ∧ ∀ j ∈ s.jobs, j.id ≠ j'.id)

theorem WithinCap.of_jobs (h : s'.jobs = s.jobs) : WithinCap kinds cap s s' := by
  rw [WithinCap, h]
  exact fun j hj ↦ Or.inl ⟨j, hj, rfl, rfl, le_rfl, fun _ ↦ id⟩

/-- One row is rewritten and fresh rows are appended. -/
theorem WithinCap.of_setJob (hcap : 0 < cap) {row : Job J} {f : Job J → Job J}
    {rows : List (Job J)} (hids : UniqueIds s) (hmem : row ∈ s.jobs)
    (hjobs : s'.jobs = setJob row.id f s.jobs ++ rows)
    (hf : ∀ j, (f j).id = j.id ∧ (f j).kind = j.kind)
    (hle : row.leaseGeneration ≤ (f row).leaseGeneration)
    (hcapped : kinds row.kind → CappedAt cap row → CappedAt cap (f row))
    (hfresh : ∀ new ∈ rows, Fresh new) (hunique : ∀ r ∈ s.jobs, ∀ new ∈ rows, ¬jobsClash r new) :
    WithinCap kinds cap s s' := by
  rw [WithinCap, hjobs]
  intro j' hj'
  rcases List.mem_append.mp hj' with hj' | hj'
  · left
    rcases mem_updateWhere.mp hj' with ⟨j, hj, hid, rfl⟩ | ⟨hj, -⟩
    · obtain rfl : j = row := eq_of_key_eq hids hj hmem hid
      exact ⟨j, hj, (hf j).1, (hf j).2, hle, hcapped⟩
    · exact ⟨j', hj, rfl, rfl, le_rfl, fun _ ↦ id⟩
  · right
    refine ⟨?_, fun j hj hid ↦ hunique j hj j' hj' (Or.inl hid)⟩
    obtain ⟨_, _, _, _, _, _, rfl⟩ := hfresh j' hj'
    exact ⟨hcap.le, fun _ ↦ hcap⟩

theorem Inserted.withinCap (hcap : 0 < cap) {rows : List (Job J)} (h : Inserted rows s s') :
    WithinCap kinds cap s s' := by
  intro j' hj'
  rw [h.jobs] at hj'
  rcases List.mem_append.mp hj' with hj' | hj'
  · exact Or.inl ⟨j', hj', rfl, rfl, le_rfl, fun _ ↦ id⟩
  · right
    refine ⟨?_, fun j hj hid ↦ h.unique j hj j' hj' (Or.inl hid)⟩
    obtain ⟨_, _, _, _, _, _, rfl⟩ := h.fresh j' hj'
    exact ⟨hcap.le, fun _ ↦ hcap⟩

variable {row : Job J} {claimed : ClaimedJob J}

/-- A claim of a waiting job uses one of the attempts it has left. -/
theorem Granted.withinCap (hcap : 0 < cap) (hids : UniqueIds s) {now leaseUntil : Timestamp}
    (h : Granted row claimed now leaseUntil s s') (hpending : row.state = .pending) :
    WithinCap kinds cap s s' := by
  have hgeneration : claimed.leaseGeneration = row.leaseGeneration + 1 := by rw [h.claim]
  refine .of_setJob hcap hids h.mem (h.jobs.trans (List.append_nil _).symm) (fun _ ↦ ⟨rfl, rfl⟩) ?_ ?_
    (List.forall_mem_nil _) fun _ _ ↦ List.forall_mem_nil _
  · exact (Nat.le_succ _).trans hgeneration.ge
  · rintro - ⟨-, hwaiting⟩
    have hlt := hwaiting (by rw [hpending]; decide)
    exact ⟨hgeneration.trans_le hlt, fun hstate ↦ absurd hstate (show JobState.running ∉ _ by decide)⟩

theorem Extended.withinCap (hcap : 0 < cap) (hids : UniqueIds s) {leaseUntil : Timestamp}
    (h : Extended row leaseUntil s s') : WithinCap kinds cap s s' :=
  .of_setJob hcap hids h.mem ((congrArg Store.jobs h.store).trans (List.append_nil _).symm)
    (fun _ ↦ ⟨rfl, rfl⟩) le_rfl (fun _ ↦ id) (List.forall_mem_nil _) fun _ _ ↦ List.forall_mem_nil _

/-- A completion that puts a job off does so before the last attempt. -/
theorem Completed.withinCap (hcap : 0 < cap) (hids : UniqueIds s) {targetState : JobState}
    {errorCode : Option String} {rows : List (Job J)}
    (h : Completed row claimed targetState errorCode rows s s')
    (hearly : kinds row.kind → targetState = .failedRetryable → claimed.leaseGeneration < cap) :
    WithinCap kinds cap s s' := by
  refine .of_setJob hcap hids h.mem h.jobs (fun _ ↦ ⟨rfl, rfl⟩) le_rfl ?_ h.fresh h.unique
  intro hkind hcapped
  refine ⟨hcapped.1, fun hstate ↦ ?_⟩
  have hstate : targetState ∈ [JobState.pending, .failedRetryable] := hstate
  have hlt : row.leaseGeneration < cap := by
    rw [h.generation]
    rcases List.mem_pair.mp hstate with hpending | hfailed
    · -- no completion leaves a job pending
      obtain ⟨_, hcompletion, -⟩ := bind_eq_ok.mp h.arguments
      rw [require_eq_ok, hpending] at hcompletion
      exact absurd hcompletion (by decide)
    · exact hearly hkind hfailed
  exact hlt

theorem Requeued.withinCap (hcap : 0 < cap) (hids : UniqueIds s) (h : Requeued row s s') :
    WithinCap kinds cap s s' := by
  refine .of_setJob hcap hids h.mem
    ((congrArg Store.jobs h.store).trans (List.append_nil _).symm) (fun _ ↦ ⟨rfl, rfl⟩) le_rfl ?_
    (List.forall_mem_nil _) fun _ _ ↦ List.forall_mem_nil _
  rintro - ⟨hle, hwaiting⟩
  exact ⟨hle, fun _ ↦ hwaiting (by rw [h.failed]; decide)⟩

/-- **A late completion is final**: unless it puts the job off, it leaves it succeeded or failed. -/
theorem Completed.final {targetState : JobState} {errorCode : Option String} {rows : List (Job J)}
    (h : Completed row claimed targetState errorCode rows s s') (hnot : targetState ≠ .failedRetryable) :
    ∀ j ∈ s'.jobs, j.id = claimed.id → j.state = .succeeded ∨ j.state = .failedTerminal := by
  have htarget : targetState = .succeeded ∨ targetState = .failedTerminal := by
    obtain ⟨_, hcompletion, -⟩ := bind_eq_ok.mp h.arguments
    rw [require_eq_ok] at hcompletion
    revert hcompletion hnot
    cases targetState <;> decide
  intro j hj hid
  rw [h.jobs] at hj
  rcases List.mem_append.mp hj with hj | hj
  · rcases mem_updateWhere.mp hj with ⟨j₀, -, -, rfl⟩ | ⟨-, hother⟩
    · exact htarget
    · exact absurd (hid.trans h.id.symm) hother
  · exact absurd (Or.inl (h.id.trans hid.symm)) (h.unique row h.mem j hj)

/-! ## Counting claims -/

/-- Every job has been claimed as often as its generation says, at most. -/
def Counted (issued : List (ClaimedJob J)) (s : Store J ρ) : Prop :=
  (∀ c ∈ issued, ∃ j ∈ s.jobs, j.id = c.id) ∧
    ∀ j ∈ s.jobs, issued.countP (·.id = j.id) ≤ j.leaseGeneration

theorem Counted.withinCap {issued : List (ClaimedJob J)} (hcounted : Counted issued s)
    (h : WithinCap kinds cap s s') (hkept : ∀ j ∈ s.jobs, ∃ j' ∈ s'.jobs, j'.id = j.id) :
    Counted issued s' := by
  obtain ⟨hknown, hcount⟩ := hcounted
  refine ⟨fun c hc ↦ ?_, fun j' hj' ↦ ?_⟩
  · obtain ⟨j, hj, hid⟩ := hknown c hc
    obtain ⟨j', hj', hid'⟩ := hkept j hj
    exact ⟨j', hj', hid'.trans hid⟩
  · rcases h j' hj' with ⟨j, hj, hid, -, hle, -⟩ | ⟨-, hnew⟩
    · rw [hid]
      exact (hcount j hj).trans hle
    · -- nobody has claimed a job that was not there
      have hnone : issued.countP (·.id = j'.id) = 0 := by
        rw [List.countP_eq_zero]
        intro c hc hid
        obtain ⟨j, hj, hjid⟩ := hknown c hc
        exact hnew j hj (hjid.trans (of_decide_eq_true hid))
      rw [hnone]
      exact Nat.zero_le _

/-- A claim counts once, for the job it was granted on. -/
theorem Counted.granted {issued : List (ClaimedJob J)} (hids : UniqueIds s)
    (hcounted : Counted issued s) {now leaseUntil : Timestamp}
    (h : Granted row claimed now leaseUntil s s') : Counted (issued ++ [claimed]) s' := by
  obtain ⟨hknown, hcount⟩ := hcounted
  have hid : claimed.id = row.id := by rw [h.claim]
  have hgeneration : claimed.leaseGeneration = row.leaseGeneration + 1 := by rw [h.claim]
  have hkept : ∀ j ∈ s.jobs, ∃ j' ∈ s'.jobs, j'.id = j.id := by
    rw [h.jobs]
    exact fun j hj ↦ exists_mem_updateWhere hj fun _ ↦ rfl
  refine ⟨?_, ?_⟩
  · refine List.forall_mem_append.mpr ⟨fun c hc ↦ ?_, List.forall_mem_singleton.mpr ?_⟩
    · obtain ⟨j, hj, hjid⟩ := hknown c hc
      obtain ⟨j', hj', hid'⟩ := hkept j hj
      exact ⟨j', hj', hid'.trans hjid⟩
    · obtain ⟨j', hj', hid'⟩ := hkept row h.mem
      exact ⟨j', hj', hid'.trans hid.symm⟩
  · rw [h.jobs]
    intro j' hj'
    rw [List.countP_append, List.countP_singleton]
    rcases mem_updateWhere.mp hj' with ⟨j, hj, hjid, rfl⟩ | ⟨hj, hother⟩
    · obtain rfl : j = row := eq_of_key_eq hids hj h.mem hjid
      have hold := hcount j hj
      change List.countP (fun c ↦ decide (c.id = j.id)) issued + (if decide (claimed.id = j.id) then 1
        else 0) ≤ claimed.leaseGeneration
      rw [hgeneration]
      split <;> omega
    · rw [if_neg (by simpa [hid] using fun heq ↦ hother heq.symm)]
      exact hcount j' hj

end MeetingRag
