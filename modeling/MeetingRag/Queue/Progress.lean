import MeetingRag.Queue.Invariant

/-!
# What survives a queue step

The other tables of the database refer to jobs by what identifies them: their key, their kind, the
snapshot they belong to and their payload. No operation changes these, none forgets a job, and none
touches a job that is finished. `QueueMoves rows` is what is left of a step, or of several, once
everything else is forgotten: the tables stay consistent and the jobs grow by `rows` at most.
-/

open Outcome Table

namespace MeetingRag

variable {J ρ : Type}

/-- The columns of a job row that are never updated. -/
structure JobIdentity (J : Type) where
  id : UUID
  logicalKey : String
  kind : JobKind
  snapshotId : Option UUID
  payload : J

def Job.identity (j : Job J) : JobIdentity J := ⟨j.id, j.logicalKey, j.kind, j.snapshotId, j.payload⟩

/-- A job that no worker and no host can put back. -/
def Finished (j : Job J) : Prop := j.state = .succeeded ∨ j.state = .failedTerminal

/-- Every job is kept, untouched if it is finished, and every job is an old one or one of `rows`. -/
structure Grows (rows jobs jobs' : List (Job J)) : Prop where
  kept : ∀ j ∈ jobs, ∃ j' ∈ jobs', j'.identity = j.identity ∧ (Finished j → j' = j)
  origin : ∀ j' ∈ jobs', ∃ j ∈ jobs ++ rows, j'.identity = j.identity

namespace Grows

theorem refl (jobs : List (Job J)) : Grows [] jobs jobs where
  kept := fun j hj ↦ ⟨j, hj, rfl, fun _ ↦ rfl⟩
  origin := fun j hj ↦ ⟨j, List.mem_append_left _ hj, rfl⟩

theorem trans {rows rows' a b c : List (Job J)} (h : Grows rows a b) (h' : Grows rows' b c) :
    Grows (rows ++ rows') a c where
  kept j hj := by
    obtain ⟨j₁, hj₁, hid₁, hfin₁⟩ := h.kept j hj
    obtain ⟨j₂, hj₂, hid₂, hfin₂⟩ := h'.kept j₁ hj₁
    refine ⟨j₂, hj₂, hid₂.trans hid₁, fun hfin ↦ ?_⟩
    have hsame : j₁ = j := hfin₁ hfin
    rw [hsame] at hfin₂
    exact hfin₂ hfin
  origin j hj := by
    obtain ⟨j₁, hj₁, hid₁⟩ := h'.origin j hj
    rw [← List.append_assoc]
    rcases List.mem_append.mp hj₁ with hj₁ | hj₁
    · obtain ⟨j₀, hj₀, hid₀⟩ := h.origin j₁ hj₁
      exact ⟨j₀, List.mem_append_left _ hj₀, hid₁.trans hid₀⟩
    · exact ⟨j₁, List.mem_append_right _ hj₁, hid₁⟩

/-- One unfinished row is rewritten and rows are appended. -/
theorem setJob {rows jobs jobs' : List (Job J)} {row : Job J} {f : Job J → Job J}
    (hids : (jobs.map (·.id)).Nodup) (hmem : row ∈ jobs) (hopen : ¬Finished row)
    (hjobs : jobs' = MeetingRag.setJob row.id f jobs ++ rows)
    (hf : ∀ j, (f j).identity = j.identity) : Grows rows jobs jobs' where
  kept j hj := by
    rw [hjobs]
    by_cases heq : j.id = row.id
    · have hrow : j = row := eq_of_key_eq hids hj hmem heq
      refine ⟨f j, List.mem_append_left _ (mem_updateWhere_of_mem hj heq), hf j, fun hfin ↦ ?_⟩
      exact absurd (hrow ▸ hfin) hopen
    · exact ⟨j, List.mem_append_left _ (mem_updateWhere_of_not hj heq), rfl, fun _ ↦ rfl⟩
  origin j hj := by
    rw [hjobs] at hj
    rcases List.mem_append.mp hj with hj | hj
    · rcases mem_updateWhere.mp hj with ⟨j₀, hj₀, -, rfl⟩ | ⟨hj₀, -⟩
      · exact ⟨j₀, List.mem_append_left _ hj₀, hf j₀⟩
      · exact ⟨j, List.mem_append_left _ hj₀, rfl⟩
    · exact ⟨j, List.mem_append_right _ hj, rfl⟩

end Grows

/-- What a transaction may do to the queue: keep it consistent and add `rows` to it. -/
def QueueMoves (rows : List (Job J)) (s s' : Store J ρ) : Prop :=
  Consistent s → Consistent s' ∧ Grows rows s.jobs s'.jobs

namespace QueueMoves

variable {s s' s'' : Store J ρ} {rows rows' : List (Job J)}

/-- A transaction that does not write the queue. -/
theorem of_other (other : ρ) : QueueMoves [] s { s with other := other } :=
  fun h ↦ ⟨⟨h.ids, h.keys, h.attempts, h.results, h.coherent⟩, Grows.refl s.jobs⟩

theorem trans (h : QueueMoves rows s s') (h' : QueueMoves rows' s' s'') :
    QueueMoves (rows ++ rows') s s'' := fun hs ↦
  ⟨(h' (h hs).1).1, (h hs).2.trans (h' (h hs).1).2⟩

theorem inserted (h : Inserted rows s s') : QueueMoves rows s s' := by
  intro hs
  refine ⟨hs.inserted h, fun j hj ↦ ?_, fun j hj ↦ ?_⟩
  · exact ⟨j, h.jobs ▸ List.mem_append_left _ hj, rfl, fun _ ↦ rfl⟩
  · exact ⟨j, h.jobs ▸ hj, rfl⟩

theorem granted {row : Job J} {claimed : ClaimedJob J} {now leaseUntil : Timestamp}
    (h : Granted row claimed now leaseUntil s s') : QueueMoves [] s s' := by
  intro hs
  refine ⟨hs.granted h, Grows.setJob hs.ids h.mem ?_
    (h.jobs.trans (List.append_nil _).symm) fun _ ↦ rfl⟩
  rintro (hfin | hfin) <;> rcases h.available with hstate | ⟨hstate, -⟩ <;>
    exact nomatch hstate.symm.trans hfin

theorem extended {row : Job J} {leaseUntil : Timestamp} (h : Extended row leaseUntil s s') :
    QueueMoves [] s s' := by
  intro hs
  refine ⟨hs.extended h, Grows.setJob hs.ids h.mem ?_
    ((congrArg Store.jobs h.store).trans (List.append_nil _).symm) fun _ ↦ rfl⟩
  rintro (hfin | hfin) <;> exact nomatch h.running.symm.trans hfin

theorem completed {row : Job J} {claimed : ClaimedJob J} {targetState : JobState}
    {errorCode : Option String} (h : Completed row claimed targetState errorCode rows s s') :
    QueueMoves rows s s' := by
  intro hs
  refine ⟨hs.completed h, Grows.setJob hs.ids h.mem ?_ h.jobs fun _ ↦ rfl⟩
  rintro (hfin | hfin) <;> exact nomatch h.running.symm.trans hfin

theorem requeued {row : Job J} (h : Requeued row s s') : QueueMoves [] s s' := by
  intro hs
  refine ⟨hs.requeued h, Grows.setJob hs.ids h.mem ?_
    ((congrArg Store.jobs h.store).trans (List.append_nil _).symm) fun _ ↦ rfl⟩
  rintro (hfin | hfin) <;> exact nomatch h.failed.symm.trans hfin

end QueueMoves

end MeetingRag
