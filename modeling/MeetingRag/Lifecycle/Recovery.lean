import MeetingRag.Lifecycle.Safety

/-!
# When `stop` is killed

`stop` runs on a machine: the file of the manifest, and Docker with the drive mappings behind the commands.
It can be killed before any operation. What it leaves is *resumable* (`Resumable`): the manifest is still one
of the run, and says `cleanup_pending` only when the resources are gone.

A later `stop` completes exactly when the manifest also *agrees* with the system (`Agrees`): it passes the
checks that a `stop` makes at its start. A command whose record has not been written breaks this.
-/

open Py Py.Json Program

namespace MeetingRag

namespace Compose

/-! ## The machine -/

/-- What Docker and `subst` do with a command. -/
abbrev Commander (σ : Type) := σ → List Str → Option (ℤ × ℤ) → σ × Completed

/-- The file of the manifest, and the state of Docker and of the drive mappings. -/
structure World (σ : Type) where
  file : Loaded
  system : σ

/-- The answer to an operation. -/
def respond {σ : Type} (run : Commander σ) (w : World σ) : (op : Operation) → World σ × Answer op
  | .run argv ports => (⟨w.file, (run w.system argv ports).1⟩, (run w.system argv ports).2)
  | .load => (w, w.file)
  | .save manifest => (⟨.json (.object manifest), w.system⟩, ())
  | .archive => (⟨.missing, w.system⟩, ())

/-- The outcome of a program in a state of the system. -/
def outcome {σ α : Type} (run : Commander σ) (p : Proc α) (s : σ) : Except Failure α :=
  (exec (respond run) p ⟨.missing, s⟩).2

/-- The commands succeed: a listing changes nothing, `down` removes the resources of its project and nothing
else, and `/D` removes a mapping of its drive and nothing else. -/
structure Lawful {σ : Type} (h : Host) (run : Commander σ) : Prop where
  reading : ∀ s argv ports, ReadOnly h argv ∨ argv = [lit "subst"] → (run s argv ports).1 = s
  down : ∀ s (target : ComposeTarget h) ports, (run s target.down ports).2.returncode = 0 ∧
    outcome run (snapshotProject h target.project) (run s target.down ports).1 = .ok Snapshot.empty ∧
    (∀ project, project ≠ target.project → outcome run (snapshotProject h project)
      (run s target.down ports).1 = outcome run (snapshotProject h project) s) ∧
    ∀ drive, outcome run (substMapping h drive) (run s target.down ports).1 =
      outcome run (substMapping h drive) s
  unmap : ∀ s drive ports, outcome run (substMapping h drive) s ≠ .ok none →
    (run s [lit "subst", drive, lit "/D"] ports).2.returncode = 0 ∧
    outcome run (substMapping h drive) (run s [lit "subst", drive, lit "/D"] ports).1 = .ok none ∧
    ∀ project, outcome run (snapshotProject h project) (run s [lit "subst", drive, lit "/D"] ports).1 =
      outcome run (snapshotProject h project) s

variable {h : Host} {σ : Type} {run : Commander σ}

/-! ## Programs that only read -/

theorem respond_reading (hlaw : Lawful h run) (w : World σ) (op : Operation) (hop : Reading h op) :
    (respond run w op).1 = w := by
  cases op with
  | run argv ports => exact congrArg (World.mk w.file) (hlaw.reading w.system argv ports hop)
  | load => exact hop.elim
  | save manifest => exact hop.elim
  | archive => exact hop.elim

section Reads

variable (hlaw : Lawful h run) {α β : Type} {p : Proc α} (hp : Only (Reading h) p)
include hlaw hp

/-- A program that only reads leaves the world as it is. -/
theorem exec_reading (w : World σ) : exec (respond run) p w = (w, outcome run p w.system) := by
  refine Prod.ext (exec_of_quiet (respond_reading hlaw) hp w) ?_
  induction p generalizing w with
  | done a => rfl
  | raise e => rfl
  | call op next ih =>
    cases op with
    | run argv ports => exact ih _ (hp.2 _) _
    | load => exact hp.1.elim
    | save manifest => exact hp.1.elim
    | archive => exact hp.1.elim

theorem exec_bind_reading {f : α → Proc β} {a : α} {w : World σ} (hout : outcome run p w.system = .ok a) :
    exec (respond run) (p >>= f) w = exec (respond run) (f a) w :=
  exec_bind_ok ((exec_reading hlaw hp w).trans (by rw [hout]))

theorem outcome_bind (f : α → Proc β) (s : σ) : outcome run (p >>= f) s = match outcome run p s with
    | .ok a => outcome run (f a) s
    | .error e => .error e := by
  rw [outcome, exec_bind, exec_reading hlaw hp]
  cases outcome run p s <;> rfl

theorem outcome_bind_eq_ok {f : α → Proc β} {s : σ} {b : β} : outcome run (p >>= f) s = .ok b ↔
    ∃ a, outcome run p s = .ok a ∧ outcome run (f a) s = .ok b := by
  rw [outcome_bind hlaw hp]
  cases outcome run p s <;> simp

/-- What is killed in a program that only reads is killed where it began. -/
theorem stops_bind_reading {f : α → Proc β} {a : α} {w w' : World σ} (hout : outcome run p w.system = .ok a)
    (hstop : Stops (respond run) (p >>= f) w w') : w' = w ∨ Stops (respond run) (f a) w w' := by
  have hexec : exec (respond run) p w = (w, .ok a) := (exec_reading hlaw hp w).trans (by rw [hout])
  rcases stops_bind hstop with hstop | ⟨b, w₁, hb, hstop⟩
  · exact .inl (stops_of_quiet (respond_reading hlaw) hp hstop)
  · obtain ⟨rfl, heq⟩ := Prod.mk.inj (hexec.symm.trans hb)
    exact .inr (Except.ok.inj heq ▸ hstop)

end Reads

theorem outcome_ofExcept {α : Type} (x : Except Failure α) (s : σ) : outcome run (ofExcept x) s = x := by
  cases x <;> rfl

/-- A failure that is written down is still a failure. -/
theorem exec_recording_eq_ok {α : Type} {m : Fields} {p : Proc α} {w w' : World σ} {a : α} :
    exec (respond run) (recording m p) w = (w', .ok a) ↔ exec (respond run) p w = (w', .ok a) := by
  rw [recording, rescue, exec_handle]
  rcases exec (respond run) p w with ⟨w₁, (message | _) | b⟩
  · exact ⟨fun heq ↦ (nomatch (Prod.mk.inj heq).2), fun heq ↦ (nomatch (Prod.mk.inj heq).2)⟩
  · exact ⟨fun heq ↦ (nomatch (Prod.mk.inj heq).2), fun heq ↦ (nomatch (Prod.mk.inj heq).2)⟩
  · rfl

section Recording

variable (hlaw : Lawful h run) {α β : Type} {p : Proc α} (hp : Only (Reading h) p) {m : Fields}
  {f : α → Proc β} {a : α} {w : World σ} (hout : outcome run p w.system = .ok a)
include hlaw hp hout

theorem exec_bind_recording :
    exec (respond run) (recording m p >>= f) w = exec (respond run) (f a) w :=
  exec_bind_ok (exec_recording_eq_ok.mpr ((exec_reading hlaw hp w).trans (by rw [hout])))

theorem stops_bind_recording {w' : World σ} (hstop : Stops (respond run) (recording m p >>= f) w w') :
    w' = w ∨ Stops (respond run) (f a) w w' := by
  have hexec : exec (respond run) p w = (w, .ok a) := (exec_reading hlaw hp w).trans (by rw [hout])
  rcases stops_bind hstop with hstop | ⟨b, w₁, hb, hstop⟩
  · rcases stops_handle hstop with hstop | ⟨e, w₁, he, -⟩
    · exact .inl (stops_of_quiet (respond_reading hlaw) hp hstop)
    · exact nomatch (Prod.mk.inj (hexec.symm.trans he)).2
  · obtain ⟨rfl, heq⟩ := Prod.mk.inj (hexec.symm.trans (exec_recording_eq_ok.mp hb))
    exact .inr (Except.ok.inj heq ▸ hstop)

end Recording

theorem exec_runner_bind {β : Type} {argv : List Str} {ports : Option (ℤ × ℤ)} {f : Completed → Proc β}
    {w : World σ} : exec (respond run) (runner argv ports >>= f) w =
      exec (respond run) (f (run w.system argv ports).2) ⟨w.file, (run w.system argv ports).1⟩ := rfl

theorem exec_save_bind {β : Type} {m : Fields} {f : Unit → Proc β} {w : World σ} :
    exec (respond run) (save m >>= f) w = exec (respond run) (f ()) ⟨.json (.object m), w.system⟩ := rfl

/-- A program that issues a command is killed before it, or after it. -/
theorem stops_runner_bind {β : Type} {argv : List Str} {ports : Option (ℤ × ℤ)} {f : Completed → Proc β}
    {w w' : World σ} (hstop : Stops (respond run) (runner argv ports >>= f) w w') : w' = w ∨
      Stops (respond run) (f (run w.system argv ports).2) ⟨w.file, (run w.system argv ports).1⟩ w' := by
  cases hstop with
  | here => exact .inl rfl
  | later hstop => exact .inr hstop

/-- A program that writes the manifest is killed before that, or with the new manifest. -/
theorem stops_save_bind {β : Type} {m : Fields} {f : Unit → Proc β} {w w' : World σ}
    (hstop : Stops (respond run) (save m >>= f) w w') :
    w' = w ∨ Stops (respond run) (f ()) ⟨.json (.object m), w.system⟩ w' := by
  cases hstop with
  | here => exact .inl rfl
  | later hstop => exact .inr hstop

/-- The protected project is the same in a state where its snapshot is. -/
theorem checkPhase0_congr (hlaw : Lawful h run) {m m' : Fields} {s s' : σ}
    (hbefore : phase0Before m' = phase0Before m)
    (hsnapshot : outcome run (snapshotProject h protectedProject) s' =
      outcome run (snapshotProject h protectedProject) s) :
    outcome run (checkPhase0 h m') s' = outcome run (checkPhase0 h m) s := by
  rw [checkPhase0, checkPhase0, outcome_bind hlaw (reading_snapshotProject _),
    outcome_bind hlaw (reading_snapshotProject _), hsnapshot, hbefore]
  simp only [outcome_ofExcept]

/-- A drive is owned when the run has made its mapping, and it is the recorded one. -/
theorem validateSubstOwnership_eq_ok (hlaw : Lawful h run) {subst : Json} {s : σ} :
    outcome run (validateSubstOwnership h subst) s = .ok () ↔ ∃ drive target created,
      memberOr (.str []) "drive" subst = .ok drive ∧ memberOr (.str []) "target" subst = .ok target ∧
        memberOr .null "created_by_run" subst = .ok created ∧ truthy created = true ∧
          outcome run (substMapping h (h.str drive)) s =
            .ok (some (h.casefold (rstripBackslash (h.str target)))) := by
  rw [validateSubstOwnership, outcome_bind_eq_ok hlaw (only_ofExcept _)]
  refine exists_congr fun drive ↦ ?_
  rw [outcome_ofExcept, outcome_bind_eq_ok hlaw (only_ofExcept _)]
  simp only [outcome_ofExcept, outcome_bind_eq_ok hlaw (only_ofExcept _)]
  constructor
  · rintro ⟨hdrive, target, htarget, created, hcreated, hrest⟩
    refine ⟨target, created, hdrive, htarget, hcreated, ?_⟩
    split at hrest
    · rw [outcome_ofExcept] at hrest
      cases hrest
    · rename_i htruthy
      obtain ⟨mapping, hmapping, hensure⟩ :=
        (outcome_bind_eq_ok hlaw (reading_substMapping _)).mp hrest
      rw [outcome_ofExcept, ensure_eq_ok] at hensure
      exact ⟨by simpa using htruthy, hensure ▸ hmapping⟩
  · rintro ⟨target, created, hdrive, htarget, hcreated, htruthy, hmapping⟩
    refine ⟨hdrive, target, htarget, created, hcreated, ?_⟩
    rw [if_neg (by simp [htruthy]), outcome_bind_eq_ok hlaw (reading_substMapping _)]
    exact ⟨_, hmapping, by rw [outcome_ofExcept, ensure_eq_ok]⟩

/-! ## What a killed `stop` leaves -/

/-- The drive of a record, as the commands have it. -/
def driveOf (h : Host) : Json → Option Str
  | .null => none
  | subst => (memberOr (.str []) "drive" subst).toOption.map h.str

/-- What the manifest of a run keeps through `stop`, for the project and the drive of the run. -/
structure Carried (h : Host) (run : Commander σ) (project : Str) (drive : Option Str) (m : Fields)
    (s : σ) : Prop where
  identity : validateManifestIdentity m = .ok ()
  project : h.str (if Has m "project" then get m "project" else .str []) = project
  phase0 : outcome run (checkPhase0 h m) s = .ok ()
  history : Has m "status_history" → ∃ items, get m "status_history" = .array items
  mapped : get m "subst" ≠ .null → driveOf h (get m "subst") = drive
  unmapped : get m "subst" = .null → ∀ d ∈ drive, outcome run (substMapping h d) s = .ok none

/-- The run is up as far as the manifest says. -/
def Running (h : Host) (m : Fields) : Prop :=
  get m "status" = .str (lit "running") ∧ ∀ name ∈ ["web", "api"], ∃ port, portOf h m name = .ok port

/-- The resources are gone, and the manifest says so. -/
def Pending (h : Host) (run : Commander σ) (project : Str) (m : Fields) (s : σ) : Prop :=
  get m "status" = .str (lit "cleanup_pending") ∧
    outcome run (snapshotProject h project) s = .ok Snapshot.empty

/-- The manifest of a run that is being stopped. -/
def Resumable (h : Host) (run : Commander σ) (project : Str) (drive : Option Str) (w : World σ) : Prop :=
  ∃ m, w.file = .json (.object m) ∧ Carried h run project drive m w.system ∧
    (Running h m ∨ Pending h run project m w.system)

/-- The manifest passes the checks that a `stop` makes at its start: the paths are those of the repository
or of the recorded drive, the resources are the recorded ones unless they are said to be gone, and the
mapping of a recorded drive is the recorded one. -/
def Agrees (h : Host) (run : Commander σ) (w : World σ) : Prop :=
  ∃ m target, w.file = .json (.object m) ∧ targetFromManifest h m = .ok target ∧
    (get m "status" ≠ .str (lit "cleanup_pending") →
      ∃ current, outcome run (snapshotProject h target.project) w.system = .ok current ∧
        assertResourceOwnership h m current target = .ok ()) ∧
    (get m "subst" ≠ .null →
      outcome run (validateSubstOwnership h (get m "subst")) w.system = .ok ())

/-- A `stop` completes, and nothing of the project and the drive is left. -/
def Recovers (h : Host) (run : Commander σ) (project : Str) (drive : Option Str) (w : World σ) : Prop :=
  ∃ m s, exec (respond run) (stop h) w = (⟨.json (.object m), s⟩, .ok m) ∧
    get m "status" = .str (lit "stopped") ∧
      outcome run (snapshotProject h project) s = .ok Snapshot.empty ∧
        ∀ d ∈ drive, outcome run (substMapping h d) s = .ok none

/-! ## One `stop` -/

theorem get_update_cons {fields : Fields} {name : String} {v : Json} {items : List (String × Json)}
    (hname : name ∉ items.map Prod.fst) : get (update fields ((name, v) :: items)) name = v := by
  have hrest : get (update (setItem fields (lit name, v)) items) name = v := by
    rw [(update_of_not_mem hname).1, get_setItem, if_pos rfl]
  exact hrest

section Steps

variable (hlaw : Lawful h run) {project : Str} {drive : Option Str} {m : Fields} {s s' : σ}
include hlaw

theorem Carried.update {items : List (String × Json)} (hm : Carried h run project drive m s)
    (hkeep : ∀ name ∈ ["schema", "version", "project", "phase0_before", "status_history"],
      name ∉ items.map Prod.fst)
    (hsnapshot : outcome run (snapshotProject h protectedProject) s' =
      outcome run (snapshotProject h protectedProject) s)
    (hmapped : get (update m items) "subst" ≠ .null → driveOf h (get (update m items) "subst") = drive)
    (hunmapped : get (update m items) "subst" = .null →
      ∀ d ∈ drive, outcome run (substMapping h d) s' = .ok none) :
    Carried h run project drive (update m items) s' := by
  obtain ⟨hschema, hversion, hproject, hbefore, hhistory⟩ := by
    simpa only [List.forall_mem_cons, List.not_mem_nil, false_imp_iff, implies_true, and_true] using hkeep
  refine ⟨?_, ?_, ?_, ?_, hmapped, hunmapped⟩
  · rw [validateManifestIdentity, (update_of_not_mem hschema).1, (update_of_not_mem hversion).1]
    exact hm.identity
  · rw [(update_of_not_mem hproject).1]
    simp only [(update_of_not_mem hproject).2]
    exact hm.project
  · exact (checkPhase0_congr hlaw (phase0Before_update hbefore) hsnapshot).trans hm.phase0
  · rw [(update_of_not_mem hhistory).1, (update_of_not_mem hhistory).2]
    exact hm.history

/-- The last part of `stop` completes, and is killed before its only write. -/
theorem exec_finishStop (hm : Carried h run project drive m s) :
    (∃ m', exec (respond run) (finishStop h m) ⟨.json (.object m), s⟩ = (⟨.json (.object m'), s⟩, .ok m') ∧
      get m' "status" = .str (lit "stopped")) ∧
    ∀ w', Stops (respond run) (finishStop h m) ⟨.json (.object m), s⟩ w' → w' = ⟨.json (.object m), s⟩ := by
  have hhistory : ∃ items, (if Has (Compose.update m [("status", .str (lit "stopped"))]) "status_history" then
      get (Compose.update m [("status", .str (lit "stopped"))]) "status_history" else .array []) =
        .array items := by
    split
    · rename_i hhas
      obtain ⟨items, hitems⟩ := hm.history ((update_of_not_mem (by simp)).2.mp hhas)
      exact ⟨items, (update_of_not_mem (by simp)).1.trans hitems⟩
    · exact ⟨[], rfl⟩
  obtain ⟨items, hitems⟩ := hhistory
  constructor
  · rw [finishStop, exec_bind_recording hlaw (reading_checkPhase0 m) hm.phase0]
    simp only [hitems]
    refine ⟨_, rfl, ?_⟩
    rw [(update_of_not_mem (by simp)).1, get_update_cons (by simp)]
  · intro w' hstop
    rw [finishStop] at hstop
    rcases stops_bind_recording hlaw (reading_checkPhase0 m) hm.phase0 hstop with rfl | hstop
    · rfl
    simp only [hitems] at hstop
    rcases stops_save_bind hstop with rfl | hstop
    · rfl
    · exact nomatch hstop

/-- The mapping of an owned drive is removed, and nothing is written. -/
theorem exec_removeOwnedSubst {subst drivePart : Json} (hdrive : memberOr (.str []) "drive" subst = .ok drivePart)
    (hvalid : outcome run (validateSubstOwnership h subst) s = .ok ())
    (hreturned : (run s [lit "subst", h.str drivePart, lit "/D"] none).2.returncode = 0) (file : Loaded) :
    exec (respond run) (removeOwnedSubst h subst) ⟨file, s⟩ =
        (⟨file, (run s [lit "subst", h.str drivePart, lit "/D"] none).1⟩, .ok ()) ∧
      ∀ w', Stops (respond run) (removeOwnedSubst h subst) ⟨file, s⟩ w' → w' = ⟨file, s⟩ := by
  have hnext : removeOwnedSubst h subst = (do
      validateSubstOwnership h subst
      let result ← runner [lit "subst", h.str drivePart, lit "/D"] none
      if result.returncode ≠ 0 then
        .raise (.lifecycle (lit "subst removal failed: " ++ strip result.stderr))
      else .done ()) := by
    rw [removeOwnedSubst, hdrive]
    rfl
  rw [hnext]
  constructor
  · rw [exec_bind_reading hlaw (reading_validateSubstOwnership subst) hvalid]
    rw [exec_runner_bind, if_neg (not_not_intro hreturned)]
    rfl
  · intro w' hstop
    rcases stops_bind_reading hlaw (reading_validateSubstOwnership subst) hvalid hstop with rfl | hstop
    · rfl
    rcases stops_runner_bind hstop with rfl | hstop
    · rfl
    · rw [if_neg (not_not_intro hreturned)] at hstop
      exact nomatch hstop

/-- The removal of the mapping completes, and what it leaves when it is killed is resumable. -/
theorem exec_removeSubst (hm : Carried h run project drive m s) (hpending : Pending h run project m s)
    (hsubst : get m "subst" ≠ .null → outcome run (validateSubstOwnership h (get m "subst")) s = .ok ()) :
    (∃ m' s', exec (respond run) (removeSubst h m) ⟨.json (.object m), s⟩ =
        (⟨.json (.object m'), s'⟩, .ok m') ∧ Carried h run project drive m' s' ∧
      Pending h run project m' s' ∧ get m' "subst" = .null) ∧
    ∀ w', Stops (respond run) (removeSubst h m) ⟨.json (.object m), s⟩ w' →
      Resumable h run project drive w' := by
  have hresumable : Resumable h run project drive ⟨.json (.object m), s⟩ := ⟨m, rfl, hm, .inr hpending⟩
  rw [removeSubst]
  split
  · rename_i hnull
    exact ⟨⟨m, s, rfl, hm, hpending, hnull⟩, by rintro w' ⟨⟩⟩
  rename_i subst hne
  have hvalid := hsubst hne
  obtain ⟨drivePart, target, created, hdrive, -, -, -, hmapping⟩ :=
    (validateSubstOwnership_eq_ok hlaw).mp hvalid
  have hdriveOf : drive = some (h.str drivePart) := by
    rw [← hm.mapped hne, driveOf, hdrive]
    · rfl
    · exact hne
  obtain ⟨hreturned, hunmapped, hsnapshots⟩ := hlaw.unmap s (h.str drivePart) none (by rw [hmapping]; simp)
  obtain ⟨hexec, hstops⟩ :=
    exec_removeOwnedSubst hlaw hdrive hvalid hreturned (.json (.object m))
  generalize (run s [lit "subst", h.str drivePart, lit "/D"] none).1 = s₂ at hunmapped hsnapshots hexec
  -- Between the command and the write the manifest still has the mapping that is gone.
  have hgap : Resumable h run project drive ⟨.json (.object m), s₂⟩ := by
    have hphase0 : outcome run (checkPhase0 h m) s₂ = .ok () :=
      (checkPhase0_congr hlaw rfl (hsnapshots _)).trans hm.phase0
    have hcarried : Carried h run project drive m s₂ :=
      ⟨hm.identity, hm.project, hphase0, hm.history, hm.mapped, fun hnull ↦ absurd hnull hne⟩
    exact ⟨m, rfl, hcarried, .inr ⟨hpending.1, (hsnapshots _).trans hpending.2⟩⟩
  have hnull : get (Compose.update m [("removed_subst", get m "subst"), ("subst", .null)]) "subst" = .null :=
    @get_update_cons (setItem m (lit "removed_subst", get m "subst")) "subst" .null [] (by simp)
  have hm₂ : Carried h run project drive
      (Compose.update m [("removed_subst", get m "subst"), ("subst", .null)]) s₂ := by
    have hkeep : ∀ name ∈ ["schema", "version", "project", "phase0_before", "status_history"],
        name ∉ [("removed_subst", get m "subst"), ("subst", Json.null)].map Prod.fst := by simp
    have hgone : ∀ d ∈ drive, outcome run (substMapping h d) s₂ = .ok none := by
      intro d hd
      obtain rfl := Option.some.inj (hdriveOf.symm.trans hd)
      exact hunmapped
    exact hm.update hlaw hkeep (hsnapshots _) (fun hsome ↦ absurd hnull hsome) fun _ ↦ hgone
  have hpending₂ : Pending h run project
      (Compose.update m [("removed_subst", get m "subst"), ("subst", .null)]) s₂ :=
    ⟨(update_of_not_mem (by simp)).1.trans hpending.1, (hsnapshots _).trans hpending.2⟩
  constructor
  · refine ⟨_, s₂, ?_, hm₂, hpending₂, hnull⟩
    rw [exec_bind_ok (exec_recording_eq_ok.mpr hexec)]
    exact exec_save_bind
  · intro w' hstop
    rcases stops_bind hstop with hstop | ⟨_, w₁, hrecorded, hstop⟩
    · rcases stops_handle hstop with hstop | ⟨e, w₁, he, -⟩
      · exact hstops w' hstop ▸ hresumable
      · cases (Prod.mk.inj (hexec.symm.trans he)).2
    obtain ⟨rfl, -⟩ := Prod.mk.inj (hexec.symm.trans (exec_recording_eq_ok.mp hrecorded))
    rcases stops_save_bind hstop with rfl | hstop
    · exact hgap
    · cases hstop

omit hlaw in
theorem outcome_capture {current : Snapshot} (attempts : ℕ)
    (hcurrent : outcome run (snapshotProject h project) s = .ok current) (hlaw : Lawful h run) :
    outcome run (capture h project (attempts + 1)) s = .ok current := by
  have hexec := exec_reading hlaw (reading_snapshotProject project) ⟨.missing, s⟩
  rw [hcurrent] at hexec
  exact congrArg Prod.snd (exec_handle_ok hexec)

/-- `down` removes the resources, and is recorded after that. -/
theorem exec_composeDown {target : ComposeTarget h} (current : Snapshot) {web api : ℤ}
    (hweb : portOf h m "web" = .ok web) (hapi : portOf h m "api" = .ok api) (file : Loaded) :
    exec (respond run) (composeDown h m current target) ⟨file, s⟩ =
        (⟨.json (.object (Compose.update m (removed current (strings target.down)))),
          (run s target.down (some (web, api))).1⟩,
            .ok (Compose.update m (removed current (strings target.down)))) ∧
      ∀ w', Stops (respond run) (composeDown h m current target) ⟨file, s⟩ w' →
        w' = ⟨file, s⟩ ∨ w' = ⟨file, (run s target.down (some (web, api))).1⟩ := by
  obtain ⟨hreturned, hgone, -, -⟩ := hlaw.down s target (some (web, api))
  have hcapture := outcome_capture 2 hgone hlaw
  have hempty : ¬Snapshot.empty.HasResources := by decide
  rw [composeDown, hweb, hapi]
  simp only [ofExcept_ok, done_bind]
  constructor
  · rw [exec_runner_bind, if_neg (not_not_intro hreturned),
      exec_bind_reading hlaw (reading_capture _ _) hcapture, if_neg hempty]
    exact exec_save_bind
  · intro w' hstop
    rcases stops_runner_bind hstop with rfl | hstop
    · exact .inl rfl
    rw [if_neg (not_not_intro hreturned)] at hstop
    rcases stops_bind_reading hlaw (reading_capture _ _) hcapture hstop with rfl | hstop
    · exact .inr rfl
    rw [if_neg hempty] at hstop
    rcases stops_save_bind hstop with rfl | hstop
    · exact .inr rfl
    · exact nomatch hstop

/-- What is there is removed. -/
theorem exec_remove {target : ComposeTarget h} {current : Snapshot} (hrunning : Running h m)
    (hcurrent : outcome run (snapshotProject h target.project) s = .ok current) :
    ∃ argv s₁, outcome run (snapshotProject h target.project) s₁ = .ok Snapshot.empty ∧
      outcome run (snapshotProject h protectedProject) s₁ =
        outcome run (snapshotProject h protectedProject) s ∧
      (∀ d, outcome run (substMapping h d) s₁ = outcome run (substMapping h d) s) ∧
      exec (respond run) (if current.HasResources then composeDown h m current target
        else do
          save (Compose.update m (removed current .null))
          .done (Compose.update m (removed current .null))) ⟨.json (.object m), s⟩ =
        (⟨.json (.object (Compose.update m (removed current argv))), s₁⟩,
          .ok (Compose.update m (removed current argv))) ∧
      ∀ w', Stops (respond run) (if current.HasResources then composeDown h m current target
        else do
          save (Compose.update m (removed current .null))
          .done (Compose.update m (removed current .null))) ⟨.json (.object m), s⟩ w' →
        w' = ⟨.json (.object m), s⟩ ∨ w' = ⟨.json (.object m), s₁⟩ := by
  by_cases hhas : current.HasResources
  · obtain ⟨web, hweb⟩ := hrunning.2 "web" (by simp)
    obtain ⟨api, hapi⟩ := hrunning.2 "api" (by simp)
    obtain ⟨-, hgone, hothers, hmapping⟩ := hlaw.down s target (some (web, api))
    refine ⟨strings target.down, _, hgone, hothers _ target.unprotected.symm, hmapping, ?_⟩
    rw [if_pos hhas]
    exact exec_composeDown hlaw current hweb hapi _
  · have hempty : current = Snapshot.empty := by
      have hnone : ∀ kind, current.of kind = [] := fun kind ↦ by_contra fun hsome ↦ hhas ⟨kind, hsome⟩
      cases current
      rw [Snapshot.empty, Snapshot.mk.injEq]
      exact ⟨hnone .containers, hnone .networks, hnone .volumes⟩
    refine ⟨.null, s, hempty ▸ hcurrent, rfl, fun _ ↦ rfl, ?_⟩
    rw [if_neg hhas]
    refine ⟨exec_save_bind, fun w' hstop ↦ .inl ?_⟩
    rcases stops_save_bind hstop with rfl | hstop
    · rfl
    · exact nomatch hstop

/-- The record that the resources are gone is a step to `cleanup_pending`. -/
theorem pending_of_removed (hm : Carried h run project drive m s) (current : Snapshot) (argv : Json)
    (hgone : outcome run (snapshotProject h project) s' = .ok Snapshot.empty)
    (hprotected : outcome run (snapshotProject h protectedProject) s' =
      outcome run (snapshotProject h protectedProject) s)
    (hmapping : ∀ d, outcome run (substMapping h d) s' = outcome run (substMapping h d) s) :
    Carried h run project drive (Compose.update m (removed current argv)) s' ∧
      Pending h run project (Compose.update m (removed current argv)) s' ∧
        get (Compose.update m (removed current argv)) "subst" = get m "subst" := by
  have hsubst : get (Compose.update m (removed current argv)) "subst" = get m "subst" :=
    (update_of_not_mem (by simp [removed])).1
  refine ⟨hm.update hlaw (by simp [removed]) hprotected ?_ ?_, ⟨?_, hgone⟩, hsubst⟩
  · rw [hsubst]
    exact hm.mapped
  · rw [hsubst]
    exact fun hnull d hd ↦ (hmapping d).trans (hm.unmapped hnull d hd)
  · exact get_update_cons (by simp)

/-- What the checks before the removal say. -/
theorem assertOwned_eq_ok {target : ComposeTarget h} {current : Snapshot} :
    outcome run (assertOwned h m current target) s = .ok () ↔
      assertResourceOwnership h m current target = .ok () ∧ outcome run (checkPhase0 h m) s = .ok () ∧
        (get m "subst" ≠ .null → outcome run (validateSubstOwnership h (get m "subst")) s = .ok ()) := by
  rw [assertOwned, outcome_bind_eq_ok hlaw (only_ofExcept _)]
  simp only [outcome_ofExcept, outcome_bind_eq_ok hlaw (reading_checkPhase0 m)]
  constructor
  · rintro ⟨_, howned, _, hphase0, hrest⟩
    refine ⟨howned, hphase0, fun hne ↦ ?_⟩
    split at hrest
    · exact absurd ‹_› hne
    · exact hrest
  · rintro ⟨howned, hphase0, hsubst⟩
    refine ⟨(), howned, (), hphase0, ?_⟩
    split
    · rfl
    · exact hsubst ‹_›

omit hlaw in
theorem not_recovering (hrunning : Running h m) : ¬Recovering m := by
  rintro ⟨hstatus, -⟩
  rw [hrunning.1] at hstatus
  exact absurd hstatus (by decide)

/-- The removal of the resources completes, and what it leaves when it is killed is resumable. -/
theorem exec_removeResources {target : ComposeTarget h} (htarget : target.project = project)
    {current : Snapshot} (hm : Carried h run project drive m s) (hrunning : Running h m)
    (hcurrent : outcome run (snapshotProject h target.project) s = .ok current)
    (howned : assertResourceOwnership h m current target = .ok ())
    (hsubst : get m "subst" ≠ .null → outcome run (validateSubstOwnership h (get m "subst")) s = .ok ()) :
    (∃ m' s', exec (respond run) (removeResources h m target) ⟨.json (.object m), s⟩ =
        (⟨.json (.object m'), s'⟩, .ok m') ∧ Carried h run project drive m' s' ∧
      Pending h run project m' s' ∧
      (get m' "subst" ≠ .null → outcome run (validateSubstOwnership h (get m' "subst")) s' = .ok ())) ∧
    ∀ w', Stops (respond run) (removeResources h m target) ⟨.json (.object m), s⟩ w' →
      Resumable h run project drive w' := by
  have hresumable : Resumable h run project drive ⟨.json (.object m), s⟩ := ⟨m, rfl, hm, .inl hrunning⟩
  have hnotPending : ¬EqStr (lit "cleanup_pending") (get m "status") := by
    rw [hrunning.1]
    decide
  have hrecover : recoverCapture h m current target = .done m := if_neg (not_recovering hrunning)
  have hassert := (assertOwned_eq_ok hlaw).mpr ⟨howned, hm.phase0, hsubst⟩
  have hread := reading_snapshotProject (h := h) target.project
  have hdone : Only (Reading h) (.done m : Proc Fields) := trivial
  have howner := reading_assertOwned m current target
  obtain ⟨argv, s₁, hgone, hprotected, hmapping, hexec, hstops⟩ := exec_remove hlaw hrunning hcurrent
  rw [htarget] at hgone
  obtain ⟨hm₁, hpending₁, hsame⟩ := pending_of_removed hlaw hm current argv hgone hprotected hmapping
  have hgap : Resumable h run project drive ⟨.json (.object m), s₁⟩ := by
    have hphase0 : outcome run (checkPhase0 h m) s₁ = .ok () :=
      (checkPhase0_congr hlaw rfl hprotected).trans hm.phase0
    have hcarried : Carried h run project drive m s₁ :=
      ⟨hm.identity, hm.project, hphase0, hm.history, hm.mapped,
        fun hnull d hd ↦ (hmapping d).trans (hm.unmapped hnull d hd)⟩
    exact ⟨m, rfl, hcarried, .inl hrunning⟩
  rw [removeResources, if_neg hnotPending]
  constructor
  · rw [exec_bind_reading hlaw hread hcurrent, hrecover, exec_bind_recording hlaw hdone rfl,
      exec_bind_recording hlaw howner hassert]
    refine ⟨_, s₁, hexec, hm₁, hpending₁, ?_⟩
    rw [hsame]
    intro hne
    obtain ⟨drivePart, path, created, hdrive, hpath, hcreated, htruthy, hmapped⟩ :=
      (validateSubstOwnership_eq_ok hlaw).mp (hsubst hne)
    exact (validateSubstOwnership_eq_ok hlaw).mpr
      ⟨drivePart, path, created, hdrive, hpath, hcreated, htruthy, (hmapping _).trans hmapped⟩
  · intro w' hstop
    rcases stops_bind_reading hlaw hread hcurrent hstop with rfl | hstop
    · exact hresumable
    rw [hrecover] at hstop
    rcases stops_bind_recording hlaw hdone rfl hstop with rfl | hstop
    · exact hresumable
    rcases stops_bind_recording hlaw howner hassert hstop with rfl | hstop
    · exact hresumable
    rcases hstops w' hstop with rfl | rfl
    · exact hresumable
    · exact hgap

omit hlaw in
theorem exec_readManifest_bind {α : Type} {f : Fields → Proc α} : exec (respond run) (readManifest >>= f)
    ⟨.json (.object m), s⟩ = exec (respond run) (f m) ⟨.json (.object m), s⟩ := rfl

omit hlaw in
theorem stops_readManifest_bind {α : Type} {f : Fields → Proc α} {w' : World σ}
    (hstop : Stops (respond run) (readManifest >>= f) ⟨.json (.object m), s⟩ w') :
    w' = ⟨.json (.object m), s⟩ ∨ Stops (respond run) (f m) ⟨.json (.object m), s⟩ w' := by
  cases hstop with
  | here => exact .inl rfl
  | later hstop => exact .inr hstop

/-- **From a manifest that agrees with the system, `stop` completes**, and what it leaves when it is killed is
resumable. -/
theorem stop_of_agrees {w : World σ} (hw : Resumable h run project drive w) (hagrees : Agrees h run w) :
    Recovers h run project drive w ∧
      ∀ w', Stops (respond run) (stop h) w w' → Resumable h run project drive w' := by
  obtain ⟨file, s⟩ := w
  obtain ⟨m, rfl, hm, hphase⟩ := hw
  obtain ⟨_, target, heq, htarget, hresources, hsubst⟩ := hagrees
  obtain rfl : m = _ := by simpa using heq
  have hproject : target.project = project :=
    (project_of_targetFromManifest htarget).trans hm.project
  have hresumable : Resumable h run project drive ⟨.json (.object m), s⟩ := ⟨m, rfl, hm, hphase⟩
  obtain ⟨⟨m₁, s₁, hexec₁, hm₁, hpending₁, hsubst₁⟩, hstops₁⟩ :
      (∃ m' s', exec (respond run) (removeResources h m target) ⟨.json (.object m), s⟩ =
          (⟨.json (.object m'), s'⟩, .ok m') ∧ Carried h run project drive m' s' ∧
        Pending h run project m' s' ∧
        (get m' "subst" ≠ .null → outcome run (validateSubstOwnership h (get m' "subst")) s' = .ok ())) ∧
      ∀ w', Stops (respond run) (removeResources h m target) ⟨.json (.object m), s⟩ w' →
        Resumable h run project drive w' := by
    rcases hphase with hrunning | hpending
    · obtain ⟨current, hcurrent, howned⟩ := hresources (by rw [hrunning.1]; simp)
      exact exec_removeResources hlaw hproject hm hrunning hcurrent howned hsubst
    · have hdone : removeResources h m target = .done m := if_pos (eqStr_iff.mpr hpending.1)
      rw [hdone]
      exact ⟨⟨m, s, rfl, hm, hpending, hsubst⟩, fun w' hstop ↦ nomatch hstop⟩
  obtain ⟨⟨m₂, s₂, hexec₂, hm₂, hpending₂, hnull₂⟩, hstops₂⟩ := exec_removeSubst hlaw hm₁ hpending₁ hsubst₁
  obtain ⟨⟨m₃, hexec₃, hstatus⟩, hstops₃⟩ := exec_finishStop hlaw hm₂
  have hread : Only (Reading h) (ofExcept (targetFromManifest h m) : Proc (ComposeTarget h)) :=
    only_ofExcept _
  have hout : outcome run (ofExcept (targetFromManifest h m)) s = .ok target := by
    rw [outcome_ofExcept, htarget]
  constructor
  · refine ⟨m₃, s₂, ?_, hstatus, hpending₂.2, hm₂.unmapped hnull₂⟩
    rw [stop, exec_readManifest_bind, hm.identity, ofExcept_ok, done_bind,
      exec_bind_recording hlaw hread hout, exec_bind_ok hexec₁, exec_bind_ok hexec₂, hexec₃]
  · intro w' hstop
    rw [stop] at hstop
    rcases stops_readManifest_bind hstop with rfl | hstop
    · exact hresumable
    rw [hm.identity, ofExcept_ok, done_bind] at hstop
    rcases stops_bind_recording hlaw hread hout hstop with rfl | hstop
    · exact hresumable
    rcases stops_bind hstop with hstop | ⟨_, _, hdone₁, hstop⟩
    · exact hstops₁ w' hstop
    cases hexec₁.symm.trans hdone₁
    rcases stops_bind hstop with hstop | ⟨_, _, hdone₂, hstop⟩
    · exact hstops₂ w' hstop
    cases hexec₂.symm.trans hdone₂
    rw [hstops₃ w' hstop]
    exact ⟨m₂, rfl, hm₂, .inr hpending₂⟩

/-- What a `stop` has read when it goes on after a program that only reads. -/
theorem exec_reading_eq_ok {α : Type} {p : Proc α} (hp : Only (Reading h) p) {w w' : World σ} {a : α}
    (hexec : exec (respond run) p w = (w', .ok a)) : w' = w ∧ outcome run p w.system = .ok a := by
  obtain ⟨rfl, hout⟩ := Prod.mk.inj ((exec_reading hlaw hp w).symm.trans hexec)
  exact ⟨rfl, hout⟩

/-- A `stop` that completes has seen that the manifest agrees. -/
theorem agrees_of_recovers {w : World σ} (hw : Resumable h run project drive w)
    (hrecovers : Recovers h run project drive w) : Agrees h run w := by
  obtain ⟨file, s⟩ := w
  obtain ⟨m, rfl, hm, hphase⟩ := hw
  obtain ⟨m₃, s₃, hexec, -⟩ := hrecovers
  rw [stop, exec_readManifest_bind, hm.identity, ofExcept_ok, done_bind] at hexec
  obtain ⟨target, _, htarget, hexec₁⟩ := exec_bind_eq_ok.mp hexec
  obtain ⟨rfl, hout⟩ := exec_reading_eq_ok hlaw (only_ofExcept _) (exec_recording_eq_ok.mp htarget)
  rw [outcome_ofExcept] at hout
  obtain ⟨m₁, _, hremoved, hexec₂⟩ := exec_bind_eq_ok.mp hexec₁
  refine ⟨m, target, rfl, hout, ?_⟩
  rcases hphase with hrunning | hpending
  · have hnotPending : ¬EqStr (lit "cleanup_pending") (get m "status") := by
      rw [hrunning.1]
      decide
    rw [removeResources, if_neg hnotPending] at hremoved
    obtain ⟨current, _, hsnapshot, hremoved₁⟩ := exec_bind_eq_ok.mp hremoved
    obtain ⟨rfl, hcurrent⟩ := exec_reading_eq_ok hlaw (reading_snapshotProject _) hsnapshot
    have hrecover : recoverCapture h m current target = .done m := if_neg (not_recovering hrunning)
    rw [hrecover] at hremoved₁
    obtain ⟨_, _, hdone, hremoved₂⟩ := exec_bind_eq_ok.mp hremoved₁
    cases hdone
    obtain ⟨_, _, howned, -⟩ := exec_bind_eq_ok.mp hremoved₂
    obtain ⟨-, hassert⟩ := exec_reading_eq_ok hlaw (reading_assertOwned m current target)
      (exec_recording_eq_ok.mp howned)
    obtain ⟨hresources, -, hsubst⟩ := (assertOwned_eq_ok hlaw).mp hassert
    exact ⟨fun _ ↦ ⟨current, hcurrent, hresources⟩, hsubst⟩
  · have hdone : removeResources h m target = .done m := if_pos (eqStr_iff.mpr hpending.1)
    rw [hdone] at hremoved
    cases hremoved
    refine ⟨fun hne ↦ absurd hpending.1 hne, fun hne ↦ ?_⟩
    obtain ⟨m₂, _, hsubst, -⟩ := exec_bind_eq_ok.mp hexec₂
    rw [removeSubst] at hsubst
    split at hsubst
    · exact absurd ‹_› hne
    obtain ⟨_, _, howned, -⟩ := exec_bind_eq_ok.mp hsubst
    obtain ⟨_, _, hvalid, -⟩ := exec_bind_eq_ok.mp (exec_recording_eq_ok.mp howned)
    exact (exec_reading_eq_ok hlaw (reading_validateSubstOwnership _) hvalid).2

end Steps

/-- The resources that the manifest of a running stack records, and its mapping, are the live ones. -/
structure Live (h : Host) (run : Commander σ) (m : Fields) (target : ComposeTarget h) (s : σ) : Prop where
  identity : validateManifestIdentity m = .ok ()
  running : Running h m
  history : Has m "status_history" → ∃ items, get m "status_history" = .array items
  paths : targetFromManifest h m = .ok target
  phase0 : outcome run (checkPhase0 h m) s = .ok ()
  resources : ∃ current, outcome run (snapshotProject h target.project) s = .ok current ∧
    assertResourceOwnership h m current target = .ok ()
  subst : get m "subst" ≠ .null → outcome run (validateSubstOwnership h (get m "subst")) s = .ok ()

theorem Live.resumable {m : Fields} {target : ComposeTarget h} {s : σ} (hlive : Live h run m target s) :
    Resumable h run target.project (driveOf h (get m "subst")) ⟨.json (.object m), s⟩ := by
  have hcarried : Carried h run target.project (driveOf h (get m "subst")) m s := by
    refine ⟨hlive.identity, (project_of_targetFromManifest hlive.paths).symm, hlive.phase0, hlive.history,
      fun _ ↦ rfl, fun hnull d hd ↦ ?_⟩
    rw [hnull] at hd
    exact nomatch hd
  exact ⟨m, rfl, hcarried, .inl hlive.running⟩

theorem Live.agrees {m : Fields} {target : ComposeTarget h} {s : σ} (hlive : Live h run m target s) :
    Agrees h run ⟨.json (.object m), s⟩ :=
  ⟨m, target, rfl, hlive.paths, fun _ ↦ hlive.resources, hlive.subst⟩

/-! ## One container -/

/-- A host. -/
def plainHost : Host where
  str := fun | .str s => s | _ => []
  str_str _ := rfl
  int := fun | .int n => .ok n | _ => .error .other
  casefold := id
  digit c := 48 ≤ c.val && c.val ≤ 57
  isAbsolute _ := true
  drivePath drive name := drive ++ lit "/" ++ lit name
  limit := 10
  root := lit "/r"
  base := lit "/b"
  override := lit "/n"
  now := lit "now"
  isGrpcFailure _ := false
  diagnostic _ := (.null, [])
  validateConfig _ _ _ := .ok ()

def plainProject : Str := lit "axit-n4-20260101t000000z-1-abcdefgh"

def plainLabels : Json := .object (obj [("com.docker.compose.project", .str plainProject),
  ("com.docker.compose.service", .str (lit "web"))])

/-- What `docker inspect` says of the container. -/
def plainInspected : Str := lit "[\x7b\"Id\":\"a\",\"Config\":\x7b\"Labels\":\x7b" ++
  lit "\"com.docker.compose.project\":\"" ++ plainProject ++
  lit "\",\"com.docker.compose.service\":\"web\"\x7d\x7d,\"State\":\x7b\"Status\":\"running\"\x7d\x7d]"

/-- Docker with one container, up or not, and no drives. -/
def plainRun : Commander Bool := fun up argv _ ↦
  if argv = Kind.containers.listArgv plainProject then
    (up, ⟨0, if up then lit "\x7b\"ID\":\"a\"\x7d" else [], []⟩)
  else if argv = [lit "docker", lit "container", lit "inspect", lit "a"] then
    (up, if up then ⟨0, plainInspected, []⟩ else ⟨1, [], []⟩)
  else if argv[1]? = some (lit "compose") ∧ argv[3]? = some plainProject ∧ argv[8]? = some (lit "down") then
    (false, ⟨0, [], []⟩)
  else (up, ⟨0, [], []⟩)

def plainManifest : Fields := obj [("schema", .str (lit "axit.n4-compose-run")), ("version", .int 1),
  ("status", .str (lit "running")), ("project", .str plainProject),
  ("source_config_paths", strings [lit "/b", lit "/n"]), ("config_paths", strings [lit "/b", lit "/n"]),
  ("ports", .object (obj [("web", .int 8080), ("api", .int 8081)])), ("subst", .null),
  ("resources", (⟨[⟨lit "a", plainLabels, some (.str (lit "running"))⟩], [], []⟩ : Snapshot).json),
  ("phase0_before", Snapshot.empty.json)]

def plainTarget : ComposeTarget plainHost :=
  ⟨plainProject, lit "/b", lit "/n", by decide +kernel, by decide +kernel⟩

/-- What is not `down` leaves the container as it is. -/
theorem plainRun_state {up : Bool} {argv : List Str} (ports : Option (ℤ × ℤ))
    (hargv : ¬(argv[1]? = some (lit "compose") ∧ argv[3]? = some plainProject ∧
      argv[8]? = some (lit "down"))) : (plainRun up argv ports).1 = up := by
  rw [plainRun, if_neg hargv]
  split_ifs <;> rfl

theorem plainRun_list {project : Str} (hne : project ≠ plainProject) (up : Bool) (kind : Kind) :
    plainRun up (kind.listArgv project) none = (up, ⟨0, [], []⟩) := by
  have hother : kind.listArgv project ≠ Kind.containers.listArgv plainProject := by
    intro heq
    cases kind with
    | containers =>
      have hat := congrArg (·[4]?) heq
      exact hne (List.append_cancel_left (Option.some.inj hat))
    | networks => exact absurd (Option.some.inj (congrArg (·[1]?) heq)) (by decide)
    | volumes => exact absurd (Option.some.inj (congrArg (·[1]?) heq)) (by decide)
  have hinspect : kind.listArgv project ≠ [lit "docker", lit "container", lit "inspect", lit "a"] := by
    intro heq
    have hat := congrArg (·[1]?) heq
    cases kind <;> exact absurd (Option.some.inj hat) (by decide)
  have hcompose : (kind.listArgv project)[1]? ≠ some (lit "compose") := by
    intro hat
    cases kind <;> exact absurd (Option.some.inj hat) (by decide)
  rw [plainRun, if_neg hother, if_neg hinspect, if_neg fun hdown ↦ hcompose hdown.1]

/-- There is no other project. -/
theorem snapshot_plainRun {project : Str} (hne : project ≠ plainProject) (up : Bool) :
    outcome plainRun (snapshotProject plainHost project) up = .ok Snapshot.empty := by
  have hkind : ∀ kind, exec (respond plainRun) (snapshotKind plainHost project kind) ⟨.missing, up⟩ =
      (⟨.missing, up⟩, .ok []) := by
    intro kind
    rw [snapshotKind, exec_runner_bind, plainRun_list hne]
    rfl
  rw [outcome, snapshotProject, exec_bind_ok (hkind _), exec_bind_ok (hkind _), exec_bind_ok (hkind _)]
  rfl

theorem plainRun_lawful : Lawful plainHost plainRun := by
  have hmapping : ∀ up drive, outcome plainRun (substMapping plainHost drive) up = .ok none := by
    intro up drive
    cases up <;> rfl
  refine ⟨fun up argv ports hread ↦ plainRun_state ports ?_, fun up target ports ↦ ?_,
    fun up drive ports hsome ↦ absurd (hmapping up drive) hsome⟩
  · rintro ⟨hcompose, -, hdown⟩
    rcases hread with hread | rfl
    · cases hread with
      | ps rest => exact absurd (Option.some.inj hcompose) (by decide)
      | networks rest => exact absurd (Option.some.inj hcompose) (by decide)
      | volumes rest => exact absurd (Option.some.inj hcompose) (by decide)
      | inspect kind id => cases kind <;> exact absurd (Option.some.inj hcompose) (by decide)
      | config target rest => exact absurd (Option.some.inj hdown) (by decide)
      | logs target rest => exact absurd (Option.some.inj hdown) (by decide)
    · exact nomatch hcompose
  have hlist : target.down ≠ Kind.containers.listArgv plainProject := fun heq ↦
    absurd (Option.some.inj (congrArg (·[1]?) heq)) (by decide)
  have hinspect : target.down ≠ [lit "docker", lit "container", lit "inspect", lit "a"] := fun heq ↦
    absurd (Option.some.inj (congrArg (·[1]?) heq)) (by decide)
  by_cases hproject : target.project = plainProject
  · have hrun : plainRun up target.down ports = (false, ⟨0, [], []⟩) := by
      rw [plainRun, if_neg hlist, if_neg hinspect, if_pos]
      exact ⟨rfl, congrArg some hproject, rfl⟩
    rw [hrun, hproject]
    refine ⟨rfl, rfl, fun project hne ↦ ?_, fun drive ↦ ?_⟩
    · rw [snapshot_plainRun hne, snapshot_plainRun hne]
    · rw [hmapping, hmapping]
  · have hrun : plainRun up target.down ports = (up, ⟨0, [], []⟩) := by
      rw [plainRun, if_neg hlist, if_neg hinspect, if_neg]
      exact fun hdown ↦ hproject (Option.some.inj hdown.2.1)
    rw [hrun]
    exact ⟨rfl, snapshot_plainRun hproject up, fun _ _ ↦ rfl, fun _ ↦ rfl⟩

theorem plainManifest_live : Live plainHost plainRun plainManifest plainTarget true := by
  have hresources : ((outcome plainRun (snapshotProject plainHost plainProject) true) >>=
      fun current ↦ assertResourceOwnership plainHost plainManifest current plainTarget).isOk = true := by
    decide +kernel
  refine ⟨rfl, ⟨rfl, ?_⟩, fun hhas ↦ absurd hhas (by decide), rfl, rfl, ?_, fun hne ↦ absurd rfl hne⟩
  · exact List.forall_mem_cons.mpr ⟨⟨8080, rfl⟩, List.forall_mem_cons.mpr ⟨⟨8081, rfl⟩, by simp⟩⟩
  · cases hcurrent : outcome plainRun (snapshotProject plainHost plainProject) true with
    | error e =>
      rw [hcurrent] at hresources
      exact nomatch hresources
    | ok current =>
      rw [hcurrent] at hresources
      refine ⟨current, hcurrent, ?_⟩
      cases howned : assertResourceOwnership plainHost plainManifest current plainTarget with
      | ok _ => rfl
      | error e =>
        have herror : (assertResourceOwnership plainHost plainManifest current plainTarget).isOk = true :=
          hresources
        rw [howned] at herror
        exact nomatch herror

end Compose

open Compose in
/-- **After a kill, a later `stop` recovers exactly when the manifest agrees with the system.** -/
theorem stop_recovers_iff {h : Host} {σ : Type} {run : Commander σ} (hlaw : Lawful h run) {m : Fields}
    {target : ComposeTarget h} {s : σ} (hlive : Live h run m target s) {w : World σ}
    (hstop : Stops (respond run) (stop h) ⟨.json (.object m), s⟩ w) :
    Recovers h run target.project (driveOf h (get m "subst")) w ↔ Agrees h run w := by
  have hw := (stop_of_agrees hlaw hlive.resumable hlive.agrees).2 w hstop
  exact ⟨agrees_of_recovers hlaw hw, fun hagrees ↦ (stop_of_agrees hlaw hw hagrees).1⟩

open Compose in
theorem stop_recovers_plain : Recovers plainHost plainRun plainProject none
    ⟨.json (.object plainManifest), true⟩ ↔ Agrees plainHost plainRun ⟨.json (.object plainManifest), true⟩ :=
  stop_recovers_iff plainRun_lawful plainManifest_live (.here _)

open Compose in
/-- A `stop` killed between `down` and the write of `cleanup_pending` leaves a manifest that no `stop`
completes from. -/
theorem stop_killed_after_down : Lawful plainHost plainRun ∧
    Live plainHost plainRun plainManifest plainTarget true ∧
    ∃ w, Stops (respond plainRun) (stop plainHost) ⟨.json (.object plainManifest), true⟩ w ∧
      ¬Recovers plainHost plainRun plainProject none w := by
  have hkilled : ((killedAt (respond plainRun) 9 (stop plainHost) ⟨.json (.object plainManifest), true⟩).any
      fun w ↦ !(exec (respond plainRun) (stop plainHost) w).2.isOk) = true := by decide +kernel
  obtain ⟨w, hw, hstuck⟩ := (Option.any_eq_true _ _).mp hkilled
  refine ⟨plainRun_lawful, plainManifest_live, w, stops_of_killedAt hw, ?_⟩
  rintro ⟨m, s, hexec, -⟩
  rw [hexec] at hstuck
  exact nomatch hstuck

end MeetingRag
