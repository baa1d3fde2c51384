import Mathlib.Tactic.Linarith
import MeetingRag.Extraction.BlobStore

/-!
# Sweeping the blob store

A file that an upload is at work on was written to less than the minimum age ago, and the cut of a
running sweep lies at least that far back. So no such file is old, and a key that is committed after a
sweep has read the keys belongs to a file the sweep finds young (`Sweep.Sound`). A name that a sweep has
picked is `Dead`: it is not committed and no upload has it, and since new names are fresh it stays so.

The argument needs that no upload pauses for the minimum age, also between two writes, and that a sweep
is not told a later time than it is (`Timely`).
-/

namespace MeetingRag

/-- At each step every upload has written to its file less than `age` ago, and a sweep that begins has at
least that minimum age and is told no later time than it is. -/
def Timely (age : ℚ) (s : BlobStore) (i : BlobInput) : Prop :=
  (∀ p ∈ s.uploads.entries, p.2.file?.isSome = true → i.time < p.2.lastWrite + age) ∧
    match i.action with
    | .beginSweep _ minimumAgeSeconds now => age ≤ minimumAgeSeconds ∧ ∀ t ∈ now, t ≤ i.time
    | _ => True

instance (age : ℚ) (s : BlobStore) (i : BlobInput) : Decidable (Timely age s i) := by
  unfold Timely
  cases i.action <;> infer_instance

namespace BlobStore

/-! ## Spent names -/

section Dead

variable {s s' : BlobStore} {name : String}

/-- **A spent name stays spent.** -/
theorem Dead.move (h : s.Dead name) (hmove : Move s s') : s'.Dead name := by
  cases hmove with
  | advance id u huploads hcommitted hused hnames hroot hdated hvacant =>
    refine ⟨hused h.used, hcommitted ▸ h.not_committed, fun id' v hv hmem ↦ ?_⟩
    rw [huploads] at hv
    rcases lookup_insert_eq_some.mp hv with ⟨-, rfl⟩ | ⟨-, hv⟩
    · rcases (hnames name hmem).2 with hnew | ⟨w, hw, hold⟩
      · exact hnew h.used
      · exact h.free id w hw hold
    · exact h.free id' v hv hmem
  | shrink huploads hcommitted hused hroot =>
    refine ⟨hused ▸ h.used, fun hkey ↦ ?_, fun id v hv ↦ h.free id v (huploads id v hv)⟩
    rcases hcommitted name hkey with hold | ⟨id, u, hu, -, -, hmem⟩
    · exact h.not_committed hold
    · exact h.free id u hu hmem

/-- What is there under a name no upload has stays as it is or goes. -/
theorem Move.lookup_of_free (hmove : Move s s') (hused : name ∈ s.used) (hfree : s.Free name) :
    s'.root.lookup name = s.root.lookup name ∨ s'.root.lookup name = none := by
  cases hmove with
  | advance id u huploads hcommitted hsub hnames hroot hdated hvacant =>
    refine Or.inl (hroot name fun hmem ↦ ?_)
    rcases (hnames name hmem).2 with hnew | ⟨v, hv, hold⟩
    · exact hnew hused
    · exact hfree id v hv hold
  | shrink huploads hcommitted hsame hroot => exact hroot name

end Dead

end BlobStore

/-! ## Sweeps -/

/-- A running sweep: its cut lies back, a key that was committed since it read them has a young file,
and the name it has picked is spent. -/
structure Sweep.Sound (age : ℚ) (s : BlobStore) (w : Sweep) : Prop where
  cutoff : w.cutoff + age ≤ s.now
  young : ∀ referenced, w.referenced = some referenced → ∀ key ∈ s.committed, key ∉ referenced →
    ∀ mtime, s.root.lookup key = some (.file mtime) → w.cutoff < mtime
  picked : ∀ name, w.picked = some name → HasSweptName name ∧ s.Dead name ∧
    ∀ entry, s.root.lookup name = some entry → ∃ mtime, entry = .file mtime

/-- No file of an upload in progress is old. -/
def NoneOld (age : ℚ) (s : BlobStore) : Prop :=
  ∀ id u, s.uploads.lookup id = some u → u.file?.isSome = true → s.now < u.lastWrite + age

section Sound

variable {age : ℚ} {s s' : BlobStore} {w : Sweep}

/-- **A sweep stays sound** whatever the others do. -/
theorem Sweep.Sound.move (hsound : w.Sound age s) (h : s.Ordered) (hold : NoneOld age s)
    (hmove : BlobStore.Move s s') (hnow : s'.now = s.now) : w.Sound age s' := by
  refine ⟨hnow ▸ hsound.cutoff, fun referenced href key hkey hnot mtime hentry ↦ ?_, fun name hname ↦ ?_⟩
  · -- The key was committed before, and no upload has it, or an upload commits it now.
    have hcases : key ∈ s.committed ∨ ∃ id u, s.uploads.lookup id = some u ∧ u.file? = some key ∧
        s.root.lookup key = some (.file mtime) := by
      cases hmove with
      | advance id u huploads hcommitted hused hnames hroot hdated hvacant =>
        exact Or.inl (hcommitted ▸ hkey)
      | shrink huploads hcommitted hused hroot =>
        refine (hcommitted key hkey).imp_right ?_
        rintro ⟨id, u, hu, -, hfile, -⟩
        refine ⟨id, u, hu, hfile, ?_⟩
        rcases hroot key with heq | hnone
        · exact heq ▸ hentry
        · rw [hnone] at hentry
          exact nomatch hentry
    rcases hcases with hbefore | ⟨id, u, hu, hfile, hentry⟩
    · rcases hmove.lookup_of_free (h.committed hbefore) (h.not_mem_names hbefore) with heq | hnone
      · exact hsound.young referenced href key hbefore hnot mtime (heq ▸ hentry)
      · rw [hnone] at hentry
        exact nomatch hentry
    · have hmtime : RootEntry.file mtime = .file u.lastWrite := h.dated id u key _ hu hfile hentry
      have hyoung := hold id u hu (Option.isSome_iff_exists.mpr ⟨key, hfile⟩)
      have hcut := hsound.cutoff
      cases hmtime
      linarith
  · obtain ⟨hswept, hdead, hfile⟩ := hsound.picked name hname
    refine ⟨hswept, hdead.move hmove, fun entry hentry ↦ ?_⟩
    rcases hmove.lookup_of_free hdead.used hdead.free with heq | hnone
    · exact hfile entry (heq ▸ hentry)
    · rw [hnone] at hentry
      exact nomatch hentry

/-- **What a sweep picks is spent.** The file is old, so it is that of no upload in progress and of no
key committed since the sweep has read them. -/
theorem Sweep.Sound.dead (hsound : w.Sound age s) (h : s.Ordered) (hold : NoneOld age s)
    {referenced : List String} (href : w.referenced = some referenced) {name : String} {mtime : ℚ}
    (hentry : s.root.lookup name = some (.file mtime)) (hcut : ¬w.cutoff < mtime)
    (hnot : name ∉ referenced) : s.Dead name := by
  refine ⟨h.known name (Option.isSome_iff_exists.mpr ⟨_, hentry⟩), fun hkey ↦ ?_, fun id u hu hname ↦ ?_⟩
  · exact hcut (hsound.young referenced href name hkey hnot mtime hentry)
  · rcases Upload.file_or_temporary hname with hfile | ⟨rfl, hvacant⟩
    · have hmtime : RootEntry.file mtime = .file u.lastWrite := h.dated id u name _ hu hfile hentry
      have hyoung := hold id u hu (Option.isSome_iff_exists.mpr ⟨name, hfile⟩)
      have hback := hsound.cutoff
      cases hmtime
      exact hcut (by linarith)
    · rw [h.vacant id u hu hvacant] at hentry
      exact nomatch hentry

end Sound

/-! ## Runs -/

/-- The store is in order, and every running sweep is sound. -/
structure BlobInvariant (age : ℚ) (s : BlobStore) : Prop where
  ordered : s.Ordered
  sound : ∀ id w, s.sweeps.lookup id = some w → w.Sound age s

theorem BlobStore.Quiet.ordered {s : BlobStore} (h : s.Quiet) : s.Ordered := by
  have hnone : ∀ id u, s.uploads.lookup id ≠ some u := by
    intro id u
    rw [h.uploads, AList.lookup_empty]
    exact nofun
  exact ⟨h.root, h.committed, fun id u hu ↦ absurd hu (hnone id u),
    fun id _ u _ hu ↦ absurd hu (hnone id u), fun id u _ _ hu ↦ absurd hu (hnone id u),
    fun id u hu ↦ absurd hu (hnone id u)⟩

theorem BlobStore.Quiet.invariant {s : BlobStore} (h : s.Quiet) (age : ℚ) : BlobInvariant age s := by
  refine ⟨h.ordered, fun id w hw ↦ ?_⟩
  rw [h.sweeps, AList.lookup_empty] at hw
  exact nomatch hw

section Step

variable {age : ℚ} {s : BlobStore} {i : BlobInput}

theorem BlobStore.Ordered.at (h : s.Ordered) (time : ℚ) : { s with now := time }.Ordered :=
  ⟨h.known, h.committed, h.issued, h.apart, h.dated, h.vacant⟩

theorem BlobInvariant.later (h : BlobInvariant age s) {time : ℚ} (hle : s.now ≤ time) :
    BlobInvariant age { s with now := time } := by
  refine ⟨h.ordered.at time, fun id w hw ↦ ?_⟩
  have hsound := h.sound id w hw
  refine ⟨hsound.cutoff.trans hle, hsound.young, fun name hname ↦ ?_⟩
  obtain ⟨hswept, hdead, hfile⟩ := hsound.picked name hname
  exact ⟨hswept, ⟨hdead.used, hdead.not_committed, hdead.free⟩, hfile⟩

theorem NoneOld.of_timely (h : Timely age s i) : NoneOld age { s with now := i.time } :=
  fun id u hu hfile ↦ h.1 ⟨id, u⟩ (AList.mem_lookup_iff.mp hu) hfile

namespace BlobStore

/-- **Every step is a move.** -/
theorem move_step (h : s.Ordered) (time : ℚ) {action : BlobAction} (hadmits : s.Admits action) :
    Move s (s.step time action).2 := by
  cases action with
  | stage id uuid =>
    have hfresh : stagingName uuid ∉ s.used := hadmits.2
    refine .advance id _ rfl rfl (List.subset_cons_self _ _) (fun name hname ↦ ?_) (fun _ _ ↦ rfl)
      (fun _ _ hfile ↦ nomatch hfile) fun _ ↦ ?_
    · have heq : name = stagingName uuid := List.mem_singleton.mp hname
      exact heq ▸ ⟨List.mem_cons_self, Or.inl hfresh⟩
    · by_contra hsome
      exact hfresh (h.known _ (Option.isSome_iff_ne_none.mpr hsome))
  | beginSweep id minimumAgeSeconds now =>
    rw [step]
    split
    · exact .shrink (fun _ _ hu ↦ hu) (fun _ hkey ↦ Or.inl hkey) rfl fun _ ↦ Or.inl rfl
    · exact Move.refl s
  | openFile id | write id | close id | rename id _ | sync id | insert id | commit id | fail id
  | crash id =>
    rw [step]
    split
    · next u hu => exact move_stepUpload h hu time _ hadmits
    · exact Move.refl s
  | selectKeys id | examine id _ | unlink id | endSweep id =>
    rw [step]
    split
    · exact move_stepSweep _ _
    · exact Move.refl s

theorem now_stepUpload (time : ℚ) (id : ℕ) (u : Upload) (action : BlobAction) :
    (s.stepUpload time id u action).now = s.now ∧ (s.stepUpload time id u action).sweeps = s.sweeps := by
  unfold stepUpload
  repeat' split
  all_goals exact ⟨rfl, rfl⟩

theorem now_stepSweep (id : ℕ) (w : Sweep) (action : BlobAction) :
    (s.stepSweep id w action).2.now = s.now := by
  unfold stepSweep
  repeat' split
  all_goals rfl

theorem now_step (time : ℚ) (action : BlobAction) : (s.step time action).2.now = s.now := by
  cases action with
  | stage => rfl
  | beginSweep =>
    rw [step]
    split <;> rfl
  | openFile id | write id | close id | rename id _ | sync id | insert id | commit id | fail id
  | crash id =>
    rw [step]
    split
    · exact (now_stepUpload _ _ _ _).1
    · rfl
  | selectKeys id | examine id _ | unlink id | endSweep id =>
    rw [step]
    split
    · exact now_stepSweep _ _ _
    · rfl

end BlobStore

/-- A step of a sweep leaves it sound. -/
theorem BlobInvariant.sound_stepSweep (h : BlobInvariant age s) (hold : NoneOld age s) {id : ℕ}
    {w : Sweep} (hw : s.sweeps.lookup id = some w) (action : BlobAction) :
    ∀ id' w', (s.stepSweep id w action).2.sweeps.lookup id' = some w' → w'.Sound age s := by
  have hsound := h.sound id w hw
  have hset : ∀ v : Sweep, v.Sound age s →
      ∀ id' w', (s.sweeps.insert id v).lookup id' = some w' → w'.Sound age s := by
    intro v hv id' w' hw'
    rcases lookup_insert_eq_some.mp hw' with ⟨-, rfl⟩ | ⟨-, hw'⟩
    · exact hv
    · exact h.sound id' w' hw'
  cases action with
  | selectKeys i =>
    rw [BlobStore.stepSweep]
    split
    · refine hset _ ⟨hsound.cutoff, fun referenced href key hkey hnot ↦ ?_, hsound.picked⟩
      exact absurd (Option.some.inj href ▸ hkey) hnot
    · exact h.sound
  | examine i name =>
    rw [BlobStore.stepSweep]
    split
    · next referenced mtime href hnone hentry =>
      split
      · next hpick =>
        refine hset _ ⟨hsound.cutoff, hsound.young, fun found hfound ↦ ?_⟩
        cases hfound
        refine ⟨hpick.1, hsound.dead h.ordered hold href hentry hpick.2.1 hpick.2.2, fun entry he ↦ ?_⟩
        exact ⟨mtime, Option.some.inj (he.symm.trans hentry)⟩
      · exact h.sound
    · exact h.sound
  | unlink i =>
    rw [BlobStore.stepSweep]
    split
    · exact h.sound
    · split <;> exact hset _ ⟨hsound.cutoff, hsound.young, by rintro _ ⟨⟩⟩
  | endSweep i => exact fun id' w' hw' ↦ h.sound id' w' (lookup_erase_eq_some.mp hw').2
  | _ => exact h.sound

/-- A step leaves every sweep sound for the store as it was. -/
theorem BlobInvariant.sound_step (h : BlobInvariant age s) (hold : NoneOld age s) {action : BlobAction}
    (htimely : Timely age s ⟨s.now, action⟩) :
    ∀ id w, (s.step s.now action).2.sweeps.lookup id = some w → w.Sound age s := by
  cases action with
  | stage => exact h.sound
  | beginSweep id minimumAgeSeconds now =>
    rw [BlobStore.step]
    split
    · intro id' w hw
      rcases lookup_insert_eq_some.mp hw with ⟨-, rfl⟩ | ⟨-, hw⟩
      · obtain ⟨hage, htold⟩ := htimely.2
        have htime : now.getD s.now ≤ s.now := by
          cases now with
          | none => exact le_rfl
          | some t => exact htold t rfl
        refine ⟨?_, nofun, nofun⟩
        dsimp only
        linarith
      · exact h.sound id' w hw
    · exact h.sound
  | openFile id | write id | close id | rename id _ | sync id | insert id | commit id | fail id
  | crash id =>
    rw [BlobStore.step]
    split
    · rw [(BlobStore.now_stepUpload _ _ _ _).2]
      exact h.sound
    · exact h.sound
  | selectKeys id | examine id _ | unlink id | endSweep id =>
    rw [BlobStore.step]
    split
    · next w hw => exact h.sound_stepSweep hold hw _
    · exact h.sound

/-- **A timely step keeps the invariant.** -/
theorem BlobInvariant.step (h : BlobInvariant age s) (henabled : blobMachine.enabled s i)
    (htimely : Timely age s i) : BlobInvariant age (blobMachine.step s i).2 := by
  have hlater := h.later henabled.1
  have hold := NoneOld.of_timely htimely
  have hmove : BlobStore.Move { s with now := i.time } (blobMachine.step s i).2 :=
    BlobStore.move_step hlater.ordered i.time henabled.2
  refine ⟨hmove.ordered hlater.ordered, fun id w hw ↦ ?_⟩
  have hsound : w.Sound age { s with now := i.time } := hlater.sound_step hold htimely id w hw
  exact hsound.move hlater.ordered hold hmove (BlobStore.now_step i.time i.action)

/-- What a sweep removes is a name it has picked, and something is there. -/
theorem picked_of_removed {name : String} (h : (blobMachine.step s i).1 = some name) :
    ∃ id w entry, s.sweeps.lookup id = some w ∧ w.picked = some name ∧
      s.root.lookup name = some entry := by
  obtain ⟨time, action⟩ := i
  cases action with
  | stage => cases h
  | beginSweep id minimumAgeSeconds now =>
    simp only [blobMachine, BlobStore.step] at h
    split at h <;> cases h
  | openFile id | write id | close id | rename id _ | sync id | insert id | commit id | fail id
  | crash id =>
    simp only [blobMachine, BlobStore.step] at h
    split at h <;> cases h
  | selectKeys id =>
    simp only [blobMachine, BlobStore.step] at h
    split at h
    · rw [BlobStore.stepSweep] at h
      split at h <;> cases h
    · cases h
  | examine id found =>
    simp only [blobMachine, BlobStore.step] at h
    split at h
    · rw [BlobStore.stepSweep] at h
      split at h
      · split at h <;> cases h
      · cases h
    · cases h
  | endSweep id =>
    simp only [blobMachine, BlobStore.step] at h
    split at h <;> cases h
  | unlink id =>
    simp only [blobMachine, BlobStore.step] at h
    split at h
    · next w hw =>
      rw [BlobStore.stepSweep] at h
      split at h
      · cases h
      · next found hpicked =>
        split at h
        · next mtime hentry =>
          cases h
          exact ⟨id, w, .file mtime, hw, hpicked, hentry⟩
        · next hentry =>
          cases h
          exact ⟨id, w, .link, hw, hpicked, hentry⟩
        · cases h
        · cases h
    · cases h

end Step

section Run

variable {age : ℚ} {s₀ : BlobStore} {before after : List BlobInput} {i : BlobInput} {name : String}

theorem BlobInvariant.exec (hquiet : s₀.Quiet) {is : List BlobInput} (hlegal : blobMachine.Legal s₀ is)
    (htimely : blobMachine.Along (Timely age) s₀ is) : BlobInvariant age (blobMachine.exec s₀ is) :=
  Machine.Along.invariant (Machine.along_and.mpr ⟨hlegal, htimely⟩) (hquiet.invariant age)
    fun _ _ h hstep ↦ h.step hstep.1 hstep.2

/-- A name that is spent is spent at the end of every run. -/
theorem BlobStore.Dead.exec {s : BlobStore} (hdead : s.Dead name) (hordered : s.Ordered)
    {is : List BlobInput} (hlegal : blobMachine.Legal s is) : (blobMachine.exec s is).Dead name := by
  have hrun := Machine.Along.invariant (P := fun s ↦ s.Ordered ∧ s.Dead name) hlegal ⟨hordered, hdead⟩
  refine (hrun fun s i h henabled ↦ ?_).2
  have hmove : BlobStore.Move { s with now := i.time } (blobMachine.step s i).2 :=
    BlobStore.move_step (h.1.at i.time) i.time henabled.2
  have hnow : BlobStore.Dead { s with now := i.time } name :=
    ⟨h.2.used, h.2.not_committed, h.2.free⟩
  exact ⟨hmove.ordered (h.1.at i.time), hnow.move hmove⟩

/-- **Sweeping removes only orphans.** What a sweep removes is a file under a staging name or the name of
a blob; no upload in progress has that name, and no committed revision has it as its key, now or at the
end of any longer run. -/
theorem sweep_removes_orphan (hquiet : s₀.Quiet) (hlegal : blobMachine.Legal s₀ (before ++ i :: after))
    (htimely : blobMachine.Along (Timely age) s₀ before)
    (hremoved : (blobMachine.step (blobMachine.exec s₀ before) i).1 = some name) :
    (∃ mtime, (blobMachine.exec s₀ before).root.lookup name = some (.file mtime)) ∧ HasSweptName name ∧
      (∀ id u, (blobMachine.exec s₀ before).uploads.lookup id = some u →
        u.temporary ≠ name ∧ u.key? ≠ some name) ∧
      name ∉ (blobMachine.exec s₀ before).committed ∧
      name ∉ (blobMachine.exec s₀ (before ++ i :: after)).committed := by
  obtain ⟨hbefore, hafter⟩ := Machine.along_append.mp hlegal
  have hinvariant := BlobInvariant.exec hquiet hbefore htimely
  obtain ⟨id, w, entry, hw, hpicked, hentry⟩ := picked_of_removed hremoved
  obtain ⟨hswept, hdead, hfile⟩ := (hinvariant.sound id w hw).picked name hpicked
  obtain ⟨mtime, rfl⟩ := hfile entry hentry
  have hlater := hdead.exec hinvariant.ordered hafter
  rw [← Machine.exec_append] at hlater
  refine ⟨⟨mtime, hentry⟩, hswept, fun id u hu ↦ ⟨fun heq ↦ ?_, fun hkey ↦ ?_⟩, hdead.not_committed,
    hlater.not_committed⟩
  · exact hdead.free id u hu (heq ▸ List.mem_cons_self)
  · exact hdead.free id u hu (List.mem_cons_of_mem _ (Option.mem_toList.mpr hkey))

end Run

/-- A store with one old file, a new upload and a sweep. The upload is renamed after the sweep has read
the keys and committed after the sweep is done. -/
theorem sweep_removes_orphan_racing :
    let s₀ : BlobStore := ⟨0, AList.singleton "old.blob" (.file 0), [], ["old.blob"], ∅, ∅⟩
    let before : List BlobInput :=
      [⟨86400, .stage 0 1⟩, ⟨86400, .openFile 0⟩, ⟨86401, .write 0⟩, ⟨86401, .close 0⟩,
        ⟨86402, .beginSweep 0 86400 none⟩, ⟨86402, .selectKeys 0⟩, ⟨86403, .rename 0 2⟩,
        ⟨86404, .sync 0⟩, ⟨86404, .insert 0⟩, ⟨86405, .examine 0 (blobName 2)⟩,
        ⟨86405, .examine 0 "old.blob"⟩]
    let after : List BlobInput := [⟨86407, .endSweep 0⟩, ⟨86408, .commit 0⟩]
    "old.blob" ∉ (blobMachine.exec s₀ (before ++ ⟨86406, .unlink 0⟩ :: after)).committed ∧
      blobName 2 ∈ (blobMachine.exec s₀ (before ++ ⟨86406, .unlink 0⟩ :: after)).committed := by
  intro s₀ before after
  have hquiet : s₀.Quiet := by
    refine ⟨rfl, rfl, fun name hname ↦ ?_, List.nil_subset _⟩
    have hmem : name ∈ s₀.root := AList.lookup_isSome.mp hname
    exact hmem
  have hrun : blobMachine.Legal s₀ (before ++ ⟨86406, .unlink 0⟩ :: after) ∧
      blobMachine.Along (Timely 86400) s₀ before ∧
      (blobMachine.step (blobMachine.exec s₀ before) ⟨86406, .unlink 0⟩).1 = some "old.blob" ∧
      blobName 2 ∈ (blobMachine.exec s₀ (before ++ ⟨86406, .unlink 0⟩ :: after)).committed := by
    decide +kernel
  exact ⟨(sweep_removes_orphan hquiet hrun.1 hrun.2.1 hrun.2.2.1).2.2.2.2, hrun.2.2.2⟩

/-! ## Pauses -/

/-- An upload ends less than `age` after the latest write to its file. -/
def EndsPromptly (age : ℚ) (s : BlobStore) (i : BlobInput) : Prop :=
  match i.action with
  | .commit id | .fail id | .crash id =>
    ∀ u ∈ s.uploads.lookup id, u.file?.isSome = true → i.time < u.lastWrite + age
  | _ => True

instance (age : ℚ) (s : BlobStore) (i : BlobInput) : Decidable (EndsPromptly age s i) := by
  unfold EndsPromptly
  cases i.action <;> infer_instance

/-- **A pause loses the staging file.** An upload that opens its file, waits for a day and writes then
finds that a sweep has removed it, although it ends in the moment of its last write. A sweep that is told
a later time than it is removes the file without a pause. -/
theorem sweep_removes_staging_file :
    let s₀ : BlobStore := ⟨0, ∅, [], [], ∅, ∅⟩
    let paused : List BlobInput :=
      [⟨0, .stage 0 1⟩, ⟨0, .openFile 0⟩, ⟨86400, .beginSweep 0 86400 none⟩, ⟨86400, .selectKeys 0⟩,
        ⟨86400, .examine 0 (stagingName 1)⟩]
    let told : List BlobInput :=
      [⟨0, .stage 0 1⟩, ⟨0, .openFile 0⟩, ⟨0, .beginSweep 0 86400 (some 86400)⟩, ⟨0, .selectKeys 0⟩,
        ⟨0, .examine 0 (stagingName 1)⟩]
    let rest : ℚ → List BlobInput := fun time ↦ [⟨time, .write 0⟩, ⟨time, .close 0⟩, ⟨time, .fail 0⟩]
    ∀ run ∈ [(paused, (86400 : ℚ)), (told, 0)],
      blobMachine.Legal s₀ (run.1 ++ ⟨run.2, .unlink 0⟩ :: rest run.2) ∧
        blobMachine.Along (EndsPromptly 86400) s₀ (run.1 ++ ⟨run.2, .unlink 0⟩ :: rest run.2) ∧
        (blobMachine.exec s₀ (run.1 ++ ⟨run.2, .unlink 0⟩ :: rest run.2)).uploads.entries = [] ∧
        ((blobMachine.exec s₀ run.1).uploads.lookup 0).map Upload.file? = some (some (stagingName 1)) ∧
        (blobMachine.step (blobMachine.exec s₀ run.1) ⟨run.2, .unlink 0⟩).1 = some (stagingName 1) := by
  intro s₀ paused told rest
  decide +kernel

end MeetingRag
