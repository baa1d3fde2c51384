import MeetingRag.Queue.Fencing

/-!
# The SQL queue and the queue intents

The transition rules of the queue are written twice: as the pure intents of the domain, and as the
`WHERE` and `SET` clauses of the repository. This file shows that on reachable rows the two agree,
up to the checks that only the repository makes on its own arguments.

A row is read as the view the domain works on, with its identifiers spelled out and its expiry as a
timezone-aware instant. That reading never raises on a reachable row, and it turns `Available` into
`Claimable` and `Fenced` into `OwnsLease` with an unexpired lease; the agreement of the operations
follows from these two translations.
-/

open Outcome Table Text

namespace MeetingRag

variable {J ρ : Type}

/-! ## Rows as lease views -/

/-- A database instant as the `datetime` the driver returns. -/
def databaseInstant (t : Timestamp) : DateTime := ⟨t, true⟩

/-- The domain's view of a job row. -/
def leaseView (j : Job J) : Except Error JobLeaseView :=
  JobLeaseView.new j.id.str j.state j.leaseGeneration (j.leaseToken.map UUID.str)
    (j.leaseUntil.map databaseInstant)

/-- A reachable row can always be read as a lease view. -/
theorem leaseView_total {j : Job J} {attempts : List JobAttempt} {results : List (JobResult J)}
    (h : Coherent j attempts results) : ∃ view, leaseView j = .ok view := by
  have hchecked : JobLeaseView.postInit j.id.str j.state j.leaseGeneration
      (j.leaseToken.map UUID.str) (j.leaseUntil.map databaseInstant) = .ok () := by
    refine JobLeaseView.postInit_eq_ok.mpr ⟨j.id.str_not_blank, Int.natCast_nonneg _, ?_, ?_, ?_⟩
    · intro token htoken
      obtain ⟨u, -, rfl⟩ := Option.map_eq_some_iff.mp htoken
      exact u.str_not_blank
    · intro hrun
      have := h.started (by simp [hrun])
      omega
    · intro hrun
      obtain ⟨-, htoken, huntil⟩ := h.held hrun
      simpa using ⟨htoken, huntil⟩
  exact ⟨⟨_, _, _, _, _, hchecked⟩, JobLeaseView.new_eq_ok.mpr ⟨rfl, rfl, rfl, rfl, rfl⟩⟩

section Views

variable {j : Job J} {view : JobLeaseView} (hview : leaseView j = .ok view)
include hview

theorem claimable_iff (now : Timestamp) :
    Claimable view (databaseInstant now) ↔ Available now j := by
  obtain ⟨-, hstate, -, -, huntil⟩ := JobLeaseView.new_eq_ok.mp hview
  rw [Claimable, Available, hstate, huntil]
  refine or_congr_right (and_congr_right fun _ ↦ ?_)
  simp [databaseInstant]

theorem ownsLease_iff (generation : ℕ) (token : UUID) :
    OwnsLease view generation token.str ↔
      j.state = .running ∧ j.leaseGeneration = generation ∧ j.leaseToken = some token := by
  obtain ⟨-, hstate, hgen, htoken, -⟩ := JobLeaseView.new_eq_ok.mp hview
  constructor
  · rintro ⟨hrun, hg, ht, -⟩
    rw [htoken, Option.map_eq_some_iff] at ht
    obtain ⟨u, hu, hstr⟩ := ht
    exact ⟨hstate ▸ hrun, Int.ofNat_inj.mp (hgen ▸ hg), by rw [hu, UUID.str_injective hstr]⟩
  · rintro ⟨hrun, hg, ht⟩
    exact ⟨hstate.trans hrun, hgen.trans (congrArg Nat.cast hg), by rw [htoken, ht]; rfl,
      token.str_ascii⟩

theorem fenced_iff {claimed : ClaimedJob J} (hid : j.id = claimed.id) (now : Timestamp) :
    Fenced claimed now j ↔ OwnsLease view claimed.leaseGeneration claimed.leaseToken.str ∧
      ∃ leaseUntil ∈ j.leaseUntil, now < leaseUntil := by
  rw [ownsLease_iff hview, Fenced, and_iff_right hid, and_assoc, and_assoc]

end Views

/-! ## When the operations succeed -/

/-- One attempt of a coherent running job answers to its lease. -/
theorem rowcount_currentAttempt {s : Store J ρ} (h : Consistent s) {j : Job J} (hj : j ∈ s.jobs)
    {claimed : ClaimedJob J} {now : Timestamp} (hfenced : Fenced claimed now j) :
    rowcount (CurrentAttempt claimed) s.jobAttempts = 1 := by
  obtain ⟨hid, hrun, hgen, htoken, -⟩ := hfenced
  obtain ⟨a, ha, hagen, hatoken⟩ := (h.coherent j hj).running hrun
  have hsub : rowcount (CurrentAttempt claimed) s.jobAttempts =
      rowcount (CurrentAttempt claimed) (runningAttempts (attemptsOf j.id s)) := by
    rw [rowcount, rowcount, runningAttempts, attemptsOf, List.countP_filter, List.countP_filter]
    refine List.countP_congr fun b _ ↦ ?_
    rw [decide_eq_true_iff, Bool.and_eq_true, Bool.and_eq_true, decide_eq_true_iff,
      decide_eq_true_iff, decide_eq_true_iff, hid]
    exact ⟨fun hb ↦ ⟨⟨hb, hb.2.2.2.1⟩, hb.1⟩, fun hb ↦ hb.1.1⟩
  have hmem : a ∈ attemptsOf j.id s := by
    have : a ∈ runningAttempts (attemptsOf j.id s) := ha ▸ List.mem_singleton_self a
    exact List.mem_of_mem_filter this
  have hstatus : a.status = .running := by
    have : a ∈ runningAttempts (attemptsOf j.id s) := ha ▸ List.mem_singleton_self a
    exact of_decide_eq_true (List.mem_filter.mp this).2
  have hcurrent : CurrentAttempt claimed a :=
    ⟨((h.coherent j hj).owner a hmem).trans hid, hagen.trans hgen,
      Option.some.inj (hatoken.symm.trans htoken), hstatus,
      (h.coherent j hj).unended a hmem hstatus⟩
  rw [hsub, ha, rowcount]
  simp [hcurrent]

section Success

variable [JsonDocument J] {s : Store J ρ} {j : Job J} {claimed : ClaimedJob J}
  {clock : StatementClock}

omit [JsonDocument J] in
theorem fenced_rowcount (hids : UniqueIds s) (hj : j ∈ s.jobs) (hid : j.id = claimed.id)
    (now : Timestamp) : rowcount (Fenced claimed now) s.jobs = 1 ↔ Fenced claimed now j := by
  rw [rowcount_eq_one hids fun _ _ hp ↦ hp.1]
  refine ⟨?_, fun h ↦ ⟨j, hj, h⟩⟩
  rintro ⟨k, hk, hfenced⟩
  rwa [eq_of_key_eq hids hj hk (hid.trans hfenced.1.symm)]

omit [JsonDocument J] in
theorem heartbeat_succeeds (hids : UniqueIds s) (hj : j ∈ s.jobs) (hid : j.id = claimed.id)
    (leaseSeconds : ℤ) :
    (∃ s', heartbeat claimed leaseSeconds clock s = .ok ((), s')) ↔
      requireLeaseSeconds leaseSeconds = .ok () ∧ Fenced claimed clock.seen j := by
  simp only [heartbeat, bind_eq_ok, require_eq_ok, exists_const, fenced_rowcount hids hj hid]
  constructor
  · rintro ⟨s', _, hargs, hfenced, -⟩
    exact ⟨hargs, hfenced⟩
  · rintro ⟨hargs, hfenced⟩
    exact ⟨_, _, hargs, hfenced, rfl⟩

/-- The store a completion hands to its effect. -/
def completedStore (claimed : ClaimedJob J) (targetState : JobState) (errorCode : Option String)
    (s : Store J ρ) : Store J ρ :=
  { s with jobs := setJob claimed.id (completedJob targetState errorCode) s.jobs }

/-- The effect of a completion returns and its result can be stored. -/
def EffectReturns (claimed : ClaimedJob J) (targetState : JobState) (result : J)
    (errorCode : Option String) (effect : Option (Effect J ρ)) (resultId : UUID)
    (s : Store J ρ) : Prop :=
  ∃ s₁ s₂, runEffect (effect.map (·.run)) (completedStore claimed targetState errorCode s) = .ok s₁ ∧
    storeResult targetState resultId claimed.id result s₁ = .ok s₂

theorem complete_succeeds (h : Consistent s) (hj : j ∈ s.jobs) (hid : j.id = claimed.id)
    (targetState : JobState) (result : J) (errorCode : Option String)
    (effect : Option (Effect J ρ)) (resultId : UUID) :
    (∃ s', completeWithEffects claimed targetState result errorCode (effect.map (·.run)) resultId
      clock s = .ok ((), s')) ↔
      requireCompletionArguments targetState errorCode = .ok () ∧ Fenced claimed clock.seen j ∧
        EffectReturns claimed targetState result errorCode effect resultId s := by
  have hset : Fenced claimed clock.seen j → updateWhere (Fenced claimed clock.seen)
      (completedJob targetState errorCode) s.jobs =
        setJob claimed.id (completedJob targetState errorCode) s.jobs := by
    intro hfenced
    obtain ⟨r, -, -, heq⟩ := exists_of_rowcount_eq_one h.ids (fun _ hp ↦ hp.1)
      ((fenced_rowcount h.ids hj hid _).mpr hfenced)
    exact heq
  simp only [completeWithEffects, bind_eq_ok, require_eq_ok, exists_const,
    fenced_rowcount h.ids hj hid]
  constructor
  · rintro ⟨s', _, hargs, hfenced, s₁, heffect, s₂, hresult, -⟩
    rw [hset hfenced] at heffect
    exact ⟨hargs, hfenced, s₁, s₂, heffect, hresult⟩
  · rintro ⟨hargs, hfenced, s₁, s₂, heffect, hresult⟩
    obtain ⟨rows, hins⟩ := runEffect_eq_ok heffect
    obtain ⟨added, rfl, -⟩ := storeResult_eq_ok hresult
    refine ⟨_, _, hargs, hfenced, s₁, ?_, _, hresult, ?_, rfl⟩
    · rw [hset hfenced]
      exact heffect
    · simp only [hins.attempts]
      exact rowcount_currentAttempt h hj hfenced

omit [JsonDocument J] in
theorem requeue_succeeds (hids : UniqueIds s) (hj : j ∈ s.jobs) (expected : ℤ) :
    (∃ s', requeueRetryable j.id expected s = .ok ((), s')) ↔
      1 ≤ expected ∧ Requeueable j.id expected j := by
  have hcount : rowcount (Requeueable j.id expected) s.jobs = 1 ↔ Requeueable j.id expected j := by
    rw [rowcount_eq_one hids fun _ _ hp ↦ hp.1]
    refine ⟨?_, fun h ↦ ⟨j, hj, h⟩⟩
    rintro ⟨k, hk, hrow⟩
    obtain rfl := eq_of_key_eq hids hj hk hrow.1.symm
    exact hrow
  simp only [requeueRetryable, bind_eq_ok, require_eq_ok, exists_const, hcount, not_lt]
  constructor
  · rintro ⟨s', hpos, hrow, -⟩
    exact ⟨hpos, hrow⟩
  · rintro ⟨hpos, hrow⟩
    exact ⟨_, hpos, hrow, rfl⟩

end Success

/-! ## Agreement -/

/-- A job row carries the lease of an intent. -/
structure CarriesLease (j : Job J) (generation : ℤ) (token : String) (leaseUntil : DateTime) :
    Prop where
  running : j.state = .running
  generation : (j.leaseGeneration : ℤ) = generation
  token : j.leaseToken.map UUID.str = some token
  leaseUntil : j.leaseUntil.map databaseInstant = some leaseUntil

/-- The operations on the row `j` agree with the intents built on its view. An operation reads the
clock twice: its predicate agrees with the intent at the instant seen, and the row it leaves is the
one of the intent at the instant written. -/
structure RefinesIntents [JsonDocument J] (s : Store J ρ) (j : Job J) (view : JobLeaseView) :
    Prop where
  /-- A claimed row is one on which the intent can be built, and becomes what the intent says. -/
  claim : ∀ owner leaseSeconds kinds token attemptId locked clock claimed s',
    claimNext owner leaseSeconds kinds token attemptId locked clock s = .ok (some claimed, s') →
      claimed.id = j.id →
      (∃ intent, buildClaimIntent view owner token.str (databaseInstant clock.seen)
        (seconds leaseSeconds) = .ok intent) ∧
      ∃ intent, buildClaimIntent view owner token.str (databaseInstant clock.written)
          (seconds leaseSeconds) = .ok intent ∧
        ∃ j' ∈ s'.jobs, j'.id = j.id ∧ j'.attempts = j.attempts + 1 ∧
          j'.leaseOwner = some intent.ownerId ∧
          CarriesLease j' intent.leaseGeneration intent.leaseToken intent.leaseUntil
  /-- A row on which the intent cannot be built is not claimed. -/
  claim_refused : ∀ owner leaseSeconds kinds token attemptId locked clock e,
    buildClaimIntent view owner token.str (databaseInstant clock.seen) (seconds leaseSeconds)
        = .error e →
      ∀ claimed s', claimNext owner leaseSeconds kinds token attemptId locked clock s
        = .ok (some claimed, s') → claimed.id ≠ j.id
  heartbeat : ∀ claimed leaseSeconds clock, j.id = claimed.id →
    ((∃ s', heartbeat claimed leaseSeconds clock s = .ok ((), s')) ↔
      requireLeaseSeconds leaseSeconds = .ok () ∧
      (∃ intent, buildHeartbeatIntent view claimed.leaseGeneration claimed.leaseToken.str
        (databaseInstant clock.seen) (seconds leaseSeconds) = .ok intent) ∧
      ∃ leaseUntil ∈ j.leaseUntil, clock.seen < leaseUntil)
  heartbeat_row : ∀ claimed leaseSeconds clock s', j.id = claimed.id →
    MeetingRag.heartbeat claimed leaseSeconds clock s = .ok ((), s') →
      ∃ intent, buildHeartbeatIntent view claimed.leaseGeneration claimed.leaseToken.str
          (databaseInstant clock.written) (seconds leaseSeconds) = .ok intent ∧
        ∃ j' ∈ s'.jobs, j'.id = j.id ∧
          CarriesLease j' intent.leaseGeneration intent.leaseToken intent.leaseUntil
  complete : ∀ claimed targetState result errorCode (effect : Option (Effect J ρ)) resultId clock,
    j.id = claimed.id →
    ((∃ s', completeWithEffects claimed targetState result errorCode (effect.map (·.run)) resultId
        clock s = .ok ((), s')) ↔
      requireCompletionArguments targetState errorCode = .ok () ∧
      (∃ intent, buildCompletionIntent view claimed.leaseGeneration claimed.leaseToken.str
        targetState = .ok intent) ∧
      (∃ leaseUntil ∈ j.leaseUntil, clock.seen < leaseUntil) ∧
      EffectReturns claimed targetState result errorCode effect resultId s)
  complete_row : ∀ claimed targetState result errorCode (effect : Option (Effect J ρ)) resultId
    clock s', j.id = claimed.id →
    completeWithEffects claimed targetState result errorCode (effect.map (·.run)) resultId
        clock s = .ok ((), s') →
      ∃ intent, buildCompletionIntent view claimed.leaseGeneration claimed.leaseToken.str
          targetState = .ok intent ∧
        ∃ j' ∈ s'.jobs, j'.id = j.id ∧ j'.state = intent.targetState ∧
          (j'.leaseGeneration : ℤ) = intent.leaseGeneration ∧ j'.leaseToken = none ∧
          j'.leaseOwner = none ∧ j'.leaseUntil = none
  requeue : ∀ expected, (∃ s', requeueRetryable j.id expected s = .ok ((), s')) ↔
    ∃ intent, buildRequeueIntent view = .ok intent ∧ expected = intent.expectedLeaseGeneration
  requeue_row : ∀ expected s', requeueRetryable j.id expected s = .ok ((), s') →
    ∃ intent, buildRequeueIntent view = .ok intent ∧
      ∃ j' ∈ s'.jobs, j'.id = j.id ∧ j'.state = .pending ∧
        (j'.leaseGeneration : ℤ) = intent.expectedLeaseGeneration ∧ j'.leaseToken = none

section Agreement

variable [JsonDocument J] {s s' : Store J ρ} (h : Consistent s) {j : Job J} (hj : j ∈ s.jobs)
  {view : JobLeaseView} (hview : leaseView j = .ok view) {claimed : ClaimedJob J}
  {clock : StatementClock}

theorem seconds_pos {n : ℤ} : 0 < seconds n ↔ 1 ≤ n := by
  rw [seconds]
  omega

/-- An accepted lease time is a positive duration. -/
theorem seconds_pos_of_require {n : ℤ} (hn : requireLeaseSeconds n = .ok ()) : 0 < seconds n := by
  rw [requireLeaseSeconds, require_eq_ok] at hn
  rw [seconds_pos]
  omega

include h hj hview

omit [JsonDocument J] in
theorem claim_refines {owner : String} {leaseSeconds : ℤ} {kinds : Option (List String)}
    {token attemptId : UUID} {locked : List UUID}
    (hclaim : claimNext owner leaseSeconds kinds token attemptId locked clock s
      = .ok (some claimed, s')) (hid : claimed.id = j.id) :
    (∀ now, clock.seen ≤ now → ∃ intent, buildClaimIntent view owner token.str
      (databaseInstant now) (seconds leaseSeconds) = .ok intent ∧
        intent.leaseGeneration = j.leaseGeneration + 1 ∧ intent.leaseToken = token.str ∧
        intent.ownerId = owner ∧ intent.leaseUntil = databaseInstant (now + seconds leaseSeconds)) ∧
    leasedJob (j.leaseGeneration + 1) token owner (clock.written + seconds leaseSeconds) j
      ∈ s'.jobs := by
  have hargs : ¬Blank owner ∧ requireLeaseSeconds leaseSeconds = .ok () := by
    simp only [claimNext, bind_eq_ok] at hclaim
    obtain ⟨_, howner, _, hseconds, -⟩ := hclaim
    rw [requireOwner, require_eq_ok] at howner
    exact ⟨fun hblank ↦ howner (Or.inl hblank), hseconds⟩
  have htaken : claimed.owner = owner ∧ claimed.leaseToken = token := by
    simp only [claimNext, bind_eq_ok] at hclaim
    obtain ⟨_, -, _, -, _, -, hrow⟩ := hclaim
    split at hrow
    · cases hrow
    · obtain ⟨attempts, -, hs'⟩ := bind_eq_ok.mp hrow
      cases hs'
      exact ⟨rfl, rfl⟩
  obtain ⟨hnone, -⟩ | ⟨row, c, hsome, hg⟩ := claimNext_step hclaim
  · cases hnone
  cases hsome
  have hrow : row = j := by
    refine eq_of_key_eq h.ids hg.mem hj (Eq.trans ?_ hid)
    rw [hg.claim]
  subst hrow
  have hgen : claimed.leaseGeneration = row.leaseGeneration + 1 := by rw [hg.claim]
  obtain ⟨-, hstate, hvgen, -, -⟩ := JobLeaseView.new_eq_ok.mp hview
  constructor
  · intro now hnow
    -- What was available when it was seen is available at every later instant.
    have hlater : Available now row := by
      rcases hg.available with hp | ⟨hrun, leaseUntil, huntil, hle⟩
      · exact Or.inl hp
      · exact Or.inr ⟨hrun, leaseUntil, huntil, hle.trans hnow⟩
    refine ⟨_, buildClaimIntent_eq_ok.mpr ⟨hargs.1, token.str_not_blank, rfl,
      seconds_pos_of_require hargs.2, (claimable_iff hview now).mpr hlater, rfl⟩, ?_, rfl, rfl, rfl⟩
    exact congrArg (· + 1) hvgen
  · rw [hg.jobs, htaken.1, htaken.2, hgen]
    exact mem_updateWhere_of_mem hg.mem rfl

omit [JsonDocument J] in
theorem heartbeat_refines (hid : j.id = claimed.id) (leaseSeconds : ℤ) :
    (∃ s', heartbeat claimed leaseSeconds clock s = .ok ((), s')) ↔
      requireLeaseSeconds leaseSeconds = .ok () ∧
      (∃ intent, buildHeartbeatIntent view claimed.leaseGeneration claimed.leaseToken.str
        (databaseInstant clock.seen) (seconds leaseSeconds) = .ok intent) ∧
      ∃ leaseUntil ∈ j.leaseUntil, clock.seen < leaseUntil := by
  rw [heartbeat_succeeds h.ids hj hid, fenced_iff hview hid]
  constructor
  · rintro ⟨hargs, howns, hlive⟩
    exact ⟨hargs, ⟨_, buildHeartbeatIntent_eq_ok.mpr
      ⟨howns, rfl, seconds_pos_of_require hargs, rfl⟩⟩, hlive⟩
  · rintro ⟨hargs, ⟨intent, hintent⟩, hlive⟩
    exact ⟨hargs, (buildHeartbeatIntent_eq_ok.mp hintent).1, hlive⟩

theorem complete_refines (hid : j.id = claimed.id) (targetState : JobState) (result : J)
    (errorCode : Option String) (effect : Option (Effect J ρ)) (resultId : UUID) :
    (∃ s', completeWithEffects claimed targetState result errorCode (effect.map (·.run)) resultId
        clock s = .ok ((), s')) ↔
      requireCompletionArguments targetState errorCode = .ok () ∧
      (∃ intent, buildCompletionIntent view claimed.leaseGeneration claimed.leaseToken.str
        targetState = .ok intent) ∧
      (∃ leaseUntil ∈ j.leaseUntil, clock.seen < leaseUntil) ∧
      EffectReturns claimed targetState result errorCode effect resultId s := by
  rw [complete_succeeds h hj hid, fenced_iff hview hid, and_assoc]
  constructor
  · rintro ⟨hargs, howns, hlive, heffect⟩
    have htarget : targetState ∈ completionStates := by
      rcases requireCompletionArguments_eq_ok.mp hargs with ⟨rfl, -⟩ | ⟨rfl | rfl, -⟩ <;> decide
    exact ⟨hargs, ⟨_, buildCompletionIntent_eq_ok.mpr ⟨howns, htarget, rfl⟩⟩, hlive, heffect⟩
  · rintro ⟨hargs, ⟨intent, hintent⟩, hlive, heffect⟩
    exact ⟨hargs, (buildCompletionIntent_eq_ok.mp hintent).1, hlive, heffect⟩

omit [JsonDocument J] in
theorem requeue_refines (expected : ℤ) :
    (∃ s', requeueRetryable j.id expected s = .ok ((), s')) ↔
      ∃ intent, buildRequeueIntent view = .ok intent ∧
        expected = intent.expectedLeaseGeneration := by
  obtain ⟨-, hstate, hgen, -, -⟩ := JobLeaseView.new_eq_ok.mp hview
  rw [requeue_succeeds h.ids hj]
  constructor
  · rintro ⟨-, -, hfailed, hexpected, -⟩
    exact ⟨_, buildRequeueIntent_eq_ok.mpr ⟨hstate.trans hfailed, rfl⟩,
      hexpected.symm.trans hgen.symm⟩
  · rintro ⟨intent, hintent, rfl⟩
    obtain ⟨hfailed, rfl⟩ := buildRequeueIntent_eq_ok.mp hintent
    have hfailed : j.state = .failedRetryable := hstate.symm.trans hfailed
    -- A failed job has been claimed before, and holds no token.
    have hstarted := (h.coherent j hj).started (by simp [hfailed])
    have hfree := (h.coherent j hj).free (by simp [hfailed])
    refine ⟨?_, rfl, hfailed, hgen.symm, hfree.2.1⟩
    simp only [hgen]
    exact_mod_cast hstarted

/-- The operations on a row of a consistent store agree with its intents. -/
theorem refinesIntents : RefinesIntents s j view where
  claim owner leaseSeconds kinds token attemptId locked clock claimed s' hclaim hid := by
    obtain ⟨hbuild, hrow⟩ := claim_refines h hj hview hclaim hid
    obtain ⟨seen, hseen, -⟩ := hbuild clock.seen le_rfl
    obtain ⟨intent, hintent, hgen, htoken, howner, huntil⟩ := hbuild clock.written clock.ordered
    refine ⟨⟨seen, hseen⟩, intent, hintent, _, hrow, rfl, rfl, congrArg some howner.symm, rfl, ?_,
      congrArg some htoken.symm, congrArg some huntil.symm⟩
    exact hgen.symm
  claim_refused owner leaseSeconds kinds token attemptId locked clock e herror claimed s' hclaim
      hid := by
    obtain ⟨intent, hintent, -⟩ := (claim_refines h hj hview hclaim hid).1 clock.seen le_rfl
    rw [herror] at hintent
    exact nomatch hintent
  heartbeat claimed leaseSeconds clock hid := heartbeat_refines h hj hview hid leaseSeconds
  heartbeat_row claimed leaseSeconds clock s' hid hbeat := by
    obtain ⟨hargs, ⟨intent, hintent⟩, -⟩ :=
      (heartbeat_refines h hj hview hid leaseSeconds).mp ⟨s', hbeat⟩
    have howns := (buildHeartbeatIntent_eq_ok.mp hintent).1
    obtain ⟨hrun, hgen, htoken⟩ := (ownsLease_iff hview _ _).mp howns
    obtain ⟨row, hfenced, hext⟩ := heartbeat_step h.ids hbeat
    obtain rfl := eq_of_key_eq h.ids hj hext.mem (hid.trans hfenced.1.symm)
    refine ⟨_, buildHeartbeatIntent_eq_ok.mpr ⟨howns, rfl, seconds_pos_of_require hargs, rfl⟩,
      { j with leaseUntil := some (clock.written + seconds leaseSeconds) }, ?_, rfl, hrun,
      congrArg Nat.cast hgen, by rw [htoken]; rfl, rfl⟩
    rw [hext.store]
    exact mem_updateWhere_of_mem hj rfl
  complete claimed targetState result errorCode effect resultId clock hid :=
    complete_refines h hj hview hid targetState result errorCode effect resultId
  complete_row claimed targetState result errorCode effect resultId clock s' hid hdone := by
    obtain ⟨-, ⟨intent, hintent⟩, -⟩ :=
      (complete_refines h hj hview hid targetState result errorCode effect resultId).mp ⟨s', hdone⟩
    obtain ⟨howns, -, rfl⟩ := buildCompletionIntent_eq_ok.mp hintent
    obtain ⟨-, hgen, -⟩ := (ownsLease_iff hview _ _).mp howns
    obtain ⟨row, rows, hfenced, hc⟩ := completeWithEffects_step h.ids hdone
    obtain rfl := eq_of_key_eq h.ids hj hc.mem (hid.trans hfenced.1.symm)
    refine ⟨_, hintent, completedJob targetState errorCode j, ?_, rfl, rfl, congrArg Nat.cast hgen,
      rfl, rfl, rfl⟩
    rw [hc.jobs]
    exact List.mem_append_left _ (mem_updateWhere_of_mem hj rfl)
  requeue expected := requeue_refines h hj hview expected
  requeue_row expected s' hback := by
    obtain ⟨intent, hintent, rfl⟩ := (requeue_refines h hj hview expected).mp ⟨s', hback⟩
    obtain ⟨row, hrow, hr⟩ := requeueRetryable_step h.ids hback
    obtain rfl := eq_of_key_eq h.ids hj hr.mem hrow.1.symm
    refine ⟨intent, hintent, requeuedJob j, ?_, rfl, rfl, hrow.2.2.1, hr.token⟩
    rw [hr.store]
    exact mem_updateWhere_of_mem hj rfl

end Agreement

/-- **The SQL queue refines the queue intents.** Whatever calls have run, every job row can be read
as a lease view on which the operations and the intents agree: a claim takes only rows the claim
intent allows, a heartbeat or a completion commits exactly when its own arguments are acceptable,
its intent can be built and the lease has not run out (and, for a completion, its effect returns and
its result can be stored), a requeue commits exactly when its intent can be built for the expected
generation, and the row they leave is the one the intent describes. -/
theorem queue_refines_intents [JsonDocument J] (other : ρ) (now : Timestamp)
    (is : List (QueueInput J ρ)) (hlegal : (queueMachine J ρ).Legal (emptyQueue other now) is) :
    ∀ j ∈ ((queueMachine J ρ).exec (emptyQueue other now) is).store.jobs,
      ∃ view, leaseView j = .ok view ∧
        RefinesIntents ((queueMachine J ρ).exec (emptyQueue other now) is).store j view := by
  intro j hj
  have hcons := legal_exec_consistent hlegal (consistent_empty other)
  obtain ⟨view, hview⟩ := leaseView_total (hcons.coherent j hj)
  exact ⟨view, hview, refinesIntents hcons hj hview⟩

theorem queue_refines_intents_lateWorker :
    ∃ j ∈ ((queueMachine Bool Unit).exec (emptyQueue () 0) lateWorkerCalls).store.jobs,
      ∃ view, leaseView j = .ok view ∧
        RefinesIntents ((queueMachine Bool Unit).exec (emptyQueue () 0) lateWorkerCalls).store
          j view := by
  have hjobs : ((queueMachine Bool Unit).exec (emptyQueue () 0) lateWorkerCalls).store.jobs ≠ [] := by
    decide
  obtain ⟨j, hj⟩ := List.exists_mem_of_ne_nil _ hjobs
  exact ⟨j, hj, queue_refines_intents () 0 lateWorkerCalls (by decide) j hj⟩

/-- The intent alone does not decide a heartbeat: the repository also bounds the lease time, so on a
running row with an unexpired lease a heartbeat of an hour and one second has an intent and still
raises. -/
theorem heartbeat_intent_not_sufficient :
    ∃ is : List (QueueInput Bool Unit), (queueMachine Bool Unit).Legal (emptyQueue () 0) is ∧
      ∃ j ∈ ((queueMachine Bool Unit).exec (emptyQueue () 0) is).store.jobs,
      ∃ (view : JobLeaseView) (claimed : ClaimedJob Bool) (clock : StatementClock),
        leaseView j = .ok view ∧ j.id = claimed.id ∧
        (∃ intent, buildHeartbeatIntent view claimed.leaseGeneration claimed.leaseToken.str
          (databaseInstant clock.seen) (seconds 3601) = .ok intent) ∧
        (∃ leaseUntil ∈ j.leaseUntil, clock.seen < leaseUntil) ∧
        heartbeat claimed 3601 clock ((queueMachine Bool Unit).exec (emptyQueue () 0) is).store =
          .error (.queueInvariant "lease_seconds must be between 1 and 3600") := by
  refine ⟨lateWorkerCalls.take 2, by decide, leasedJob 1 21 "first" 1000001
    (newJob 10 "generation:1" .summary none true 0), by decide, ?_⟩
  obtain ⟨view, hview⟩ : ∃ view, leaseView (leasedJob 1 21 "first" 1000001
      (newJob (J := Bool) 10 "generation:1" .summary none true 0)) = .ok view :=
    ⟨⟨_, _, _, _, _, JobLeaseView.postInit_eq_ok.mpr (by decide)⟩, JobLeaseView.new_eq_ok.mpr
      ⟨rfl, rfl, rfl, rfl, rfl⟩⟩
  refine ⟨view, ⟨10, "generation:1", .summary, true, "first", 1, 21, 31⟩, ⟨2, 2, le_rfl⟩, hview,
    rfl, ⟨_, buildHeartbeatIntent_eq_ok.mpr ⟨(ownsLease_iff hview 1 21).mpr ⟨rfl, rfl, rfl⟩, rfl,
      by decide, rfl⟩⟩, by decide, rfl⟩

end MeetingRag
