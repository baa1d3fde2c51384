import Mathlib.Logic.Relation
import MeetingRag.Extraction.Worker

/-!
# One file

What the extraction of a file amounts to, without the tables: the state and the generation of its
job, the state of its revision, the run that the revision approves and the runs that have succeeded.
Eight moves change a file. Two of them are not the workers' own doing: a claim that takes an expired
lease over, and a retry by a member. A relation of moves says whether it admits these two, so that a
bound on the workers can be stated where they do not happen.
-/

namespace MeetingRag

structure FileCell where
  job : JobState
  generation : ℕ
  revision : RevisionProcessingState
  approved : Option UUID
  succeeded : List UUID
deriving DecidableEq, Repr

/-- A file that has just been uploaded. -/
def newCell : FileCell := ⟨.pending, 0, .queued, none, []⟩

inductive FileMove (reclaims retries : Prop) (c : FileCell) : FileCell → Prop
  | claimed (h : c.job = .pending) :
      FileMove reclaims retries c { c with job := .running, generation := c.generation + 1 }
  | reclaimed (expired : reclaims) (h : c.job = .running) :
      FileMove reclaims retries c { c with job := .running, generation := c.generation + 1 }
  | succeeded (runId : UUID) (h : c.job = .running) (queued : c.revision = .queued) :
      FileMove reclaims retries c { c with
        job := .succeeded
        revision := .ready
        approved := some runId
        succeeded := c.succeeded ++ [runId] }
  | putOff (h : c.job = .running) (early : c.generation < maxExtractionAttempts) :
      FileMove reclaims retries c { c with job := .failedRetryable }
  | failed (h : c.job = .running) (queued : c.revision = .queued) :
      FileMove reclaims retries c { c with job := .failedTerminal, revision := .failed }
  | requeued (h : c.job = .failedRetryable) :
      FileMove reclaims retries c { c with job := .pending }
  | exhausted (h : c.job = .failedRetryable) (late : maxExtractionAttempts ≤ c.generation)
      (queued : c.revision = .queued) :
      FileMove reclaims retries c { c with job := .failedTerminal, revision := .failed }
  | retried (asked : retries) (h : c.job = .failedTerminal) :
      FileMove reclaims retries c { c with job := .pending, revision := .queued }

/-- Any number of moves. -/
abbrev FileMoves (reclaims retries : Prop) : FileCell → FileCell → Prop :=
  Relation.ReflTransGen (FileMove reclaims retries)

section Moves

variable {reclaims retries : Prop} {c c' : FileCell} {g : ℕ}

/-- What every move preserves, any number of moves preserve. -/
theorem FileMoves.preserve {P : FileCell → Prop}
    (hstep : ∀ a b, FileMove reclaims retries a b → P a → P b)
    (h : FileMoves reclaims retries c c') (hc : P c) : P c' := by
  induction h with
  | refl => exact hc
  | tail _ hmove ih => exact hstep _ _ hmove ih

/-! ## Correspondence -/

/-- The revision of a file tells the state of its job. -/
inductive FileCell.Sound (c : FileCell) : Prop
  | queued (job : c.job ∈ [JobState.pending, .running, .failedRetryable])
      (revision : c.revision = .queued) (none : c.succeeded = [])
  | ready (runId : UUID) (job : c.job = .succeeded) (revision : c.revision = .ready)
      (approved : c.approved = some runId) (one : c.succeeded = [runId])
  | failed (job : c.job = .failedTerminal) (revision : c.revision = .failed)
      (none : c.succeeded = [])

theorem newCell_sound : newCell.Sound := .queued (by decide) rfl rfl

/-- A file that is being worked on is queued and has no result. -/
theorem FileCell.Sound.of_working (h : c.Sound)
    (hjob : c.job ∈ [JobState.pending, .running, .failedRetryable]) :
    c.revision = .queued ∧ c.succeeded = [] := by
  cases h with
  | queued job revision none => exact ⟨revision, none⟩
  | ready runId job revision approved one =>
    rw [job] at hjob
    exact absurd hjob (by decide)
  | failed job revision none =>
    rw [job] at hjob
    exact absurd hjob (by decide)

theorem FileMove.sound (h : FileMove reclaims retries c c') (hc : c.Sound) : c'.Sound := by
  have hworking : ∀ state ∈ [JobState.pending, .running, .failedRetryable], c.job = state →
      c.revision = .queued ∧ c.succeeded = [] := by
    intro state hstate hjob
    exact hc.of_working (hjob ▸ hstate)
  cases h with
  | claimed h =>
    obtain ⟨hrevision, hnone⟩ := hworking _ (by decide) h
    exact .queued (show JobState.running ∈ _ by decide) hrevision hnone
  | reclaimed expired h =>
    obtain ⟨hrevision, hnone⟩ := hworking _ (by decide) h
    exact .queued (show JobState.running ∈ _ by decide) hrevision hnone
  | succeeded runId h queued =>
    obtain ⟨-, hnone⟩ := hworking _ (by decide) h
    exact .ready runId rfl rfl rfl (congrArg (· ++ [runId]) hnone)
  | putOff h early =>
    obtain ⟨hrevision, hnone⟩ := hworking _ (by decide) h
    exact .queued (show JobState.failedRetryable ∈ _ by decide) hrevision hnone
  | failed h queued =>
    obtain ⟨-, hnone⟩ := hworking _ (by decide) h
    exact .failed rfl rfl hnone
  | requeued h =>
    obtain ⟨hrevision, hnone⟩ := hworking _ (by decide) h
    exact .queued (show JobState.pending ∈ _ by decide) hrevision hnone
  | exhausted h late queued =>
    obtain ⟨-, hnone⟩ := hworking _ (by decide) h
    exact .failed rfl rfl hnone
  | retried asked h =>
    -- a file that failed for good has no result, so it starts over as it began
    have hnone : c.succeeded = [] := by
      cases hc with
      | queued job revision none => exact none
      | ready runId job revision approved one => exact nomatch h.symm.trans job
      | failed job revision none => exact none
    exact .queued (show JobState.pending ∈ _ by decide) rfl hnone

/-! ## Generations -/

theorem FileMove.generation_le (h : FileMove reclaims retries c c') :
    c.generation ≤ c'.generation := by
  cases h <;> simp

/-- The lease of a generation is over: a later one was granted, or the job was given up. -/
def FileCell.Over (g : ℕ) (c : FileCell) : Prop :=
  g < c.generation ∨ (g = c.generation ∧ c.job ≠ .running)

/-- A lease that is over does not come back. -/
theorem FileMove.over (h : FileMove reclaims retries c c') (hover : c.Over g) : c'.Over g := by
  rcases hover with hlt | ⟨rfl, hjob⟩
  · exact Or.inl (hlt.trans_le h.generation_le)
  · cases h with
    | claimed h => exact Or.inl (Nat.lt_succ_self _)
    | reclaimed expired h => exact absurd h hjob
    | succeeded runId h queued => exact absurd h hjob
    | putOff h early => exact absurd h hjob
    | failed h queued => exact absurd h hjob
    | requeued h => exact Or.inr ⟨rfl, fun heq ↦ nomatch heq⟩
    | exhausted h late queued => exact Or.inr ⟨rfl, fun heq ↦ nomatch heq⟩
    | retried asked h => exact Or.inr ⟨rfl, fun heq ↦ nomatch heq⟩

/-! ## Attempts -/

/-- A file is claimed a third time at most. -/
def FileCell.Capped (c : FileCell) : Prop :=
  c.generation ≤ maxExtractionAttempts ∧
    (c.job ∈ [JobState.pending, .failedRetryable] → c.generation < maxExtractionAttempts)

theorem newCell_capped : newCell.Capped := ⟨by decide, fun _ ↦ by decide⟩

/-- **The workers alone do not exceed the cap.** -/
theorem FileMove.capped (hreclaims : ¬reclaims) (hretries : ¬retries)
    (h : FileMove reclaims retries c c') (hc : c.Capped) : c'.Capped := by
  obtain ⟨hle, hlt⟩ := hc
  cases h with
  | claimed h =>
    have hlt := hlt (by rw [h]; decide)
    exact ⟨hlt, fun hjob ↦ absurd hjob (show JobState.running ∉ _ by decide)⟩
  | reclaimed expired h => exact absurd expired hreclaims
  | succeeded runId h queued =>
    exact ⟨hle, fun hjob ↦ absurd hjob (show JobState.succeeded ∉ _ by decide)⟩
  | putOff h early => exact ⟨hle, fun _ ↦ early⟩
  | failed h queued =>
    exact ⟨hle, fun hjob ↦ absurd hjob (show JobState.failedTerminal ∉ _ by decide)⟩
  | requeued h => exact ⟨hle, fun _ ↦ hlt (by rw [h]; decide)⟩
  | exhausted h late queued =>
    exact ⟨hle, fun hjob ↦ absurd hjob (show JobState.failedTerminal ∉ _ by decide)⟩
  | retried asked h => exact absurd asked hretries

/-! ## A lost requeue -/

/-- Somebody else has moved the job on from its failure at generation `g`. -/
def FileCell.MovedOn (g : ℕ) (c : FileCell) : Prop :=
  g ≤ c.generation ∧ (c.job ∈ [JobState.running, .failedRetryable] → g < c.generation)

theorem FileMove.movedOn (h : FileMove reclaims retries c c') (hc : c.MovedOn g) :
    c'.MovedOn g := by
  obtain ⟨hle, hlt⟩ := hc
  cases h with
  | claimed h => exact ⟨hle.trans (Nat.le_succ _), fun _ ↦ Nat.lt_succ_of_le hle⟩
  | reclaimed expired h => exact ⟨hle.trans (Nat.le_succ _), fun _ ↦ Nat.lt_succ_of_le hle⟩
  | succeeded runId h queued =>
    exact ⟨hle, fun hjob ↦ absurd hjob (show JobState.succeeded ∉ _ by decide)⟩
  | putOff h early => exact ⟨hle, fun _ ↦ hlt (by rw [h]; decide)⟩
  | failed h queued =>
    exact ⟨hle, fun hjob ↦ absurd hjob (show JobState.failedTerminal ∉ _ by decide)⟩
  | requeued h => exact ⟨hle, fun hjob ↦ absurd hjob (show JobState.pending ∉ _ by decide)⟩
  | exhausted h late queued =>
    exact ⟨hle, fun hjob ↦ absurd hjob (show JobState.failedTerminal ∉ _ by decide)⟩
  | retried asked h => exact ⟨hle, fun hjob ↦ absurd hjob (show JobState.pending ∉ _ by decide)⟩

end Moves

end MeetingRag
